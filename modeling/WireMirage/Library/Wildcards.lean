import Mathlib.Data.List.Infix

/-!
Patterns in which one symbol stands for any run of symbols. What a pattern stands for is a
relation; matching it amounts to placing its parts one behind the other, and each part may as
well be placed at its first occurrence.
-/
namespace Wildcards
variable {A : Type}

inductive Expands (star : A) : List A → List A → Prop
  | nil : Expands star [] []
  | run (gap : List A) {p t : List A} : Expands star p t → Expands star (star :: p) (gap ++ t)
  | keep {c : A} {p t : List A} : c ≠ star → Expands star p t → Expands star (c :: p) (c :: t)

theorem expands_nil_iff {star : A} {t : List A} : Expands star [] t ↔ t = [] := by
  constructor
  · intro e
    cases e
    rfl
  · rintro rfl
    exact .nil

theorem expands_star_iff {star : A} {p t : List A} :
    Expands star (star :: p) t ↔ ∃ gap later, t = gap ++ later ∧ Expands star p later := by
  constructor
  · intro e
    cases e with
    | run gap more => exact ⟨gap, _, rfl, more⟩
    | keep other more => exact absurd rfl other
  · rintro ⟨gap, later, rfl, more⟩
    exact .run gap more

theorem expands_plain_iff {star : A} {part p t : List A} (plain : star ∉ part) :
    Expands star (part ++ p) t ↔ ∃ later, t = part ++ later ∧ Expands star p later := by
  induction part generalizing t with
  | nil => simp
  | cons c part ih =>
    rw [List.mem_cons, not_or] at plain
    obtain ⟨other, plain⟩ := plain
    constructor
    · intro e
      cases e with
      | run gap more => exact absurd rfl other
      | keep _ kept =>
        obtain ⟨later, rfl, more⟩ := (ih plain).mp kept
        exact ⟨later, rfl, more⟩
    · rintro ⟨later, rfl, more⟩
      exact .keep (fun same => other same.symm) ((ih plain).mpr ⟨later, rfl, more⟩)

/-- Without a star a pattern stands for itself alone. -/
theorem expands_self_iff {star : A} {p t : List A} (plain : star ∉ p) :
    Expands star p t ↔ t = p := by
  have whole := expands_plain_iff (p := []) (t := t) plain
  rw [List.append_nil] at whole
  rw [whole]
  constructor
  · rintro ⟨later, rfl, more⟩
    rw [expands_nil_iff.mp more, List.append_nil]
  · rintro rfl
    exact ⟨[], (List.append_nil _).symm, .nil⟩

/-! Parts behind a star -/

/-- The parts stand in the text in their order, and the last one ends it. -/
def Placed : List (List A) → List A → Prop
  | [], _ => True
  | [part], t => part <:+ t
  | part :: next :: rest, t =>
    ∃ gap later, t = gap ++ (part ++ later) ∧ Placed (next :: rest) later

theorem placed_behind {parts : List (List A)} {t : List A} (gap : List A)
    (placed : Placed parts t) : Placed parts (gap ++ t) := by
  match parts with
  | [] => trivial
  | [part] => exact placed.trans (List.suffix_append gap t)
  | part :: next :: rest =>
    obtain ⟨before, later, rfl, more⟩ := placed
    exact ⟨gap ++ before, later, by rw [List.append_assoc], more⟩

theorem placed_of_suffix {parts : List (List A)} {t whole : List A} (suffix : t <:+ whole)
    (placed : Placed parts t) : Placed parts whole := by
  obtain ⟨gap, rfl⟩ := suffix
  exact placed_behind gap placed

theorem placed_empty_cons {parts : List (List A)} {t : List A} :
    Placed ([] :: parts) t ↔ Placed parts t := by
  cases parts with
  | nil => simp [Placed]
  | cons next rest =>
    constructor
    · rintro ⟨gap, later, rfl, more⟩
      exact placed_behind gap more
    · intro placed
      exact ⟨[], t, rfl, placed⟩

/-- What is left behind the first occurrence of a part holds what is left behind any other. -/
theorem placed_first {part next t first : List A} {rest : List (List A)}
    (occurs : ∃ gap, t = gap ++ (part ++ first))
    (leftmost : ∀ gap later, t = gap ++ (part ++ later) → later <:+ first) :
    Placed (part :: next :: rest) t ↔ Placed (next :: rest) first := by
  constructor
  · rintro ⟨gap, later, split, more⟩
    exact placed_of_suffix (leftmost gap later split) more
  · intro placed
    obtain ⟨gap, split⟩ := occurs
    exact ⟨gap, first, split, placed⟩

theorem expands_placed_iff {star : A} {parts : List (List A)} {t : List A}
    (plain : ∀ part ∈ parts, star ∉ part) (some_ : parts ≠ []) :
    Expands star (star :: [star].intercalate parts) t ↔ Placed parts t := by
  induction parts generalizing t with
  | nil => exact absurd rfl some_
  | cons part rest ih =>
    have here := plain part List.mem_cons_self
    cases rest with
    | nil =>
      rw [List.intercalate_singleton, expands_star_iff]
      constructor
      · rintro ⟨gap, later, rfl, more⟩
        rw [(expands_self_iff here).mp more]
        exact List.suffix_append gap part
      · rintro ⟨gap, rfl⟩
        exact ⟨gap, part, rfl, (expands_self_iff here).mpr rfl⟩
    | cons next rest =>
      have later_ (t' : List A) := ih (t := t')
        (fun other member => plain other (List.mem_cons_of_mem _ member)) (by simp)
      rw [List.intercalate_cons_cons, List.append_assoc, List.singleton_append,
        expands_star_iff]
      constructor
      · rintro ⟨gap, later, rfl, stands⟩
        obtain ⟨behind, rfl, more⟩ := (expands_plain_iff here).mp stands
        exact ⟨gap, behind, rfl, (later_ behind).mp more⟩
      · rintro ⟨gap, behind, rfl, placed⟩
        exact ⟨gap, part ++ behind, rfl,
          (expands_plain_iff here).mpr ⟨behind, rfl, (later_ behind).mpr placed⟩⟩

/-! Parts of a text -/

theorem plain_of_splitOn [BEq A] [LawfulBEq A] (sep : A) (text : List A) :
    ∀ part ∈ text.splitOn sep, sep ∉ part := by
  induction text with
  | nil => simp
  | cons c rest ih =>
    rw [List.splitOn_cons_eq_if_modifyHead]
    by_cases here : c = sep
    · simpa [here] using ih
    · cases parts : rest.splitOn sep with
      | nil => exact absurd parts (List.splitOn_ne_nil _ _)
      | cons first others =>
        rw [parts] at ih
        have plain := ih first List.mem_cons_self
        intro part member
        simp only [beq_iff_eq, here, if_false, List.modifyHead_cons, List.mem_cons] at member
        rcases member with rfl | member
        · simp only [List.mem_cons, not_or]
          exact ⟨fun same => here same.symm, plain⟩
        · exact ih part (List.mem_cons_of_mem _ member)

end Wildcards
