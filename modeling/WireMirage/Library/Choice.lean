import Mathlib.Data.List.Perm.Basic

/-!
A scan that takes the first decisive offer, and otherwise the highest of the
offers held in reserve. Where offers of one standing agree, the order of the
scan does not matter.
-/
inductive Offer (A : Type) where
  | decisive (a : A)
  | reserve (rank : Nat) (a : A)

namespace Offer
variable {A : Type}

/-- The better of the reserve held so far and a new one; ties keep the old. -/
def better (held : Option (Nat × A)) (rank : Nat) (a : A) : Option (Nat × A) :=
  match held with
  | none => some (rank, a)
  | some (len, b) => if rank > len then some (rank, a) else some (len, b)

def choose : List (Offer A) → Option (Nat × A) → Option A
  | [], held => held.map Prod.snd
  | .decisive a :: _, _ => some a
  | .reserve rank a :: rest, held => choose rest (better held rank a)

/-- Offers of one standing agree. -/
structure Agree (offers : List (Offer A)) : Prop where
  decisive : ∀ a b, .decisive a ∈ offers → .decisive b ∈ offers → a = b
  reserve : ∀ rank a b, .reserve rank a ∈ offers → .reserve rank b ∈ offers → a = b

theorem choose_decisive {offers : List (Offer A)} {a : A} (offered : .decisive a ∈ offers)
    (only : ∀ b, .decisive b ∈ offers → b = a) (held : Option (Nat × A)) :
    choose offers held = some a := by
  induction offers generalizing held with
  | nil => cases offered
  | cons offer rest ih =>
    cases offer with
    | decisive b =>
      have same := only b List.mem_cons_self
      subst same
      rfl
    | reserve rank b =>
      have later : Offer.decisive a ∈ rest := by simpa using offered
      exact ih later (fun x member => only x (List.mem_cons_of_mem _ member)) _

theorem better_cases (held : Option (Nat × A)) (rank : Nat) (a : A) :
    ∃ len b, better held rank a = some (len, b) ∧ (len = rank ∧ b = a ∨ held = some (len, b)) ∧
      rank ≤ len ∧ ∀ n c, held = some (n, c) → n ≤ len := by
  unfold better
  rcases held with _ | ⟨len, b⟩
  · exact ⟨rank, a, rfl, .inl ⟨rfl, rfl⟩, Nat.le_refl _, by simp⟩
  · simp only
    split
    · refine ⟨rank, a, rfl, .inl ⟨rfl, rfl⟩, Nat.le_refl _, ?_⟩
      intro n c same
      cases same
      omega
    · refine ⟨len, b, rfl, .inr rfl, by omega, ?_⟩
      intro n c same
      cases same
      exact Nat.le_refl _

/-- Without a decisive offer, the choice is the highest reserve, or nothing. -/
theorem choose_reserve {offers : List (Offer A)} (none : ∀ b, .decisive b ∉ offers)
    (held : Option (Nat × A)) :
    (choose offers held = Option.none ∧ offers = [] ∧ held = Option.none) ∨
      ∃ rank a, choose offers held = some a ∧
        (.reserve rank a ∈ offers ∨ held = some (rank, a)) ∧
        (∀ n b, .reserve n b ∈ offers → n ≤ rank) ∧ (∀ n b, held = some (n, b) → n ≤ rank) := by
  induction offers generalizing held with
  | nil =>
    rcases held with _ | ⟨len, b⟩
    · exact .inl ⟨rfl, rfl, rfl⟩
    · refine .inr ⟨len, b, rfl, .inr rfl, by simp, ?_⟩
      intro n c same
      cases same
      exact Nat.le_refl _
  | cons offer rest ih =>
    cases offer with
    | decisive b => exact absurd List.mem_cons_self (none b)
    | reserve rank b =>
      right
      obtain ⟨len, c, kept, origin, above, aboveHeld⟩ := better_cases held rank b
      have later := ih (fun x member => none x (List.mem_cons_of_mem _ member))
        (better held rank b)
      rw [kept] at later
      rcases later with ⟨_, _, empty⟩ | ⟨top, a, chosen, source, tops, topsHeld⟩
      · cases empty
      · have reaches := topsHeld len c rfl
        refine ⟨top, a, by rw [choose, kept]; exact chosen, ?_, ?_, ?_⟩
        · rcases source with offered | same
          · exact .inl (List.mem_cons_of_mem _ offered)
          · cases same
            rcases origin with ⟨rfl, rfl⟩ | before
            · exact .inl List.mem_cons_self
            · exact .inr before
        · intro n x member
          rcases List.mem_cons.mp member with same | inRest
          · cases same
            omega
          · exact tops n x inRest
        · intro n x same
          exact Nat.le_trans (aboveHeld n x same) reaches

/-- Where there is an offer, something is chosen. -/
theorem choose_some {offers : List (Offer A)} {held : Option (Nat × A)}
    (some_ : offers ≠ [] ∨ held ≠ none) : choose offers held ≠ none := by
  induction offers generalizing held with
  | nil =>
    cases held with
    | none => simp at some_
    | some pair => simp [choose]
  | cons offer rest ih =>
    cases offer with
    | decisive a => simp [choose]
    | reserve rank a =>
      obtain ⟨len, b, kept, _⟩ := better_cases held rank a
      exact ih (.inr (by rw [kept]; simp))

/-- What a choice is: the decisive offer, else the one highest reserve, else nothing. -/
theorem choose_cases {offers : List (Offer A)} (agree : Agree offers) :
    (∃ a, .decisive a ∈ offers ∧ choose offers none = some a) ∨
      ((∀ b, .decisive b ∉ offers) ∧ ∃ rank a, .reserve rank a ∈ offers ∧
        choose offers none = some a ∧ ∀ n b, .reserve n b ∈ offers → n ≤ rank) ∨
      (offers = [] ∧ choose offers none = none) := by
  by_cases decided : ∃ a, .decisive a ∈ offers
  · obtain ⟨a, offered⟩ := decided
    left
    exact ⟨a, offered, choose_decisive offered (fun b other => agree.decisive b a other offered) _⟩
  · have none := not_exists.mp decided
    right
    rcases choose_reserve none Option.none with
      ⟨chosen, empty, _⟩ | ⟨rank, a, chosen, origin, above, _⟩
    · exact .inr ⟨empty, chosen⟩
    · rcases origin with offered | held
      · exact .inl ⟨none, rank, a, offered, chosen, above⟩
      · cases held

theorem agree_perm {offers others : List (Offer A)} (same : others.Perm offers)
    (agree : Agree offers) : Agree others where
  decisive := fun a b one two => agree.decisive a b (same.mem_iff.mp one) (same.mem_iff.mp two)
  reserve := fun n a b one two =>
    agree.reserve n a b (same.mem_iff.mp one) (same.mem_iff.mp two)

/-- Where offers of one standing agree, every order of the scan chooses the same. -/
theorem choose_perm {offers others : List (Offer A)} (same : others.Perm offers)
    (agree : Agree offers) : choose others none = choose offers none := by
  rcases choose_cases agree with ⟨a, offered, chosen⟩ | ⟨no, rank, a, offered, chosen, above⟩ |
    ⟨empty, chosen⟩
  · rw [chosen]
    apply choose_decisive (same.mem_iff.mpr offered)
    intro b other
    exact agree.decisive b a (same.mem_iff.mp other) offered
  · rcases choose_cases (agree_perm same agree) with ⟨b, decided, _⟩ |
      ⟨_, rank', b, offered', chosen', above'⟩ | ⟨empty, _⟩
    · exact absurd (same.mem_iff.mp decided) (no b)
    · have up := above' rank a (same.mem_iff.mpr offered)
      have down := above rank' b (same.mem_iff.mp offered')
      have level : rank' = rank := by omega
      subst level
      rw [chosen, chosen', agree.reserve rank' b a (same.mem_iff.mp offered') offered]
    · have member := same.mem_iff.mpr offered
      rw [empty] at member
      cases member
  · subst empty
    rw [List.Perm.eq_nil same]

end Offer
