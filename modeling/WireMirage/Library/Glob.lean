import Mathlib.Data.List.Infix

/-!
Glob patterns over bytes: a star for any run of bytes, a question mark for one byte,
brackets for a class of bytes and a backslash before a byte that stands for itself.
-/
namespace Glob

inductive Token where
  | star
  | any
  | cls (negated : Bool) (ranges : List (UInt8 × UInt8))
  | lit (b : UInt8)
  deriving DecidableEq, Repr

/-- Where a reader of patterns stands: outside a class, or inside one with what it has read. -/
inductive Mode where
  | outside
  | inside (negated : Bool) (ranges : List (UInt8 × UInt8))

/-- A class left open by the end of the pattern ends there. -/
def tokens : Mode → List UInt8 → List Token
  | .outside, [] => []
  | .outside, 42 :: rest => .star :: tokens .outside rest
  | .outside, 63 :: rest => .any :: tokens .outside rest
  | .outside, 91 :: 94 :: rest => tokens (.inside true []) rest
  | .outside, 91 :: rest => tokens (.inside false []) rest
  | .outside, 92 :: b :: rest => .lit b :: tokens .outside rest
  | .outside, b :: rest => .lit b :: tokens .outside rest
  | .inside negated ranges, [] => [.cls negated ranges]
  | .inside negated ranges, 92 :: b :: rest => tokens (.inside negated ((b, b) :: ranges)) rest
  | .inside negated ranges, 93 :: rest => .cls negated ranges :: tokens .outside rest
  | .inside negated ranges, a :: 45 :: b :: rest =>
    tokens (.inside negated ((min a b, max a b) :: ranges)) rest
  | .inside negated ranges, b :: rest => tokens (.inside negated ((b, b) :: ranges)) rest

def Token.takes : Token → UInt8 → Bool
  | .star, _ => false
  | .any, _ => true
  | .cls negated ranges, b => ranges.any (fun r => r.1 ≤ b ∧ b ≤ r.2) != negated
  | .lit a, b => a = b

def accepts : List Token → List UInt8 → Bool
  | [], s => s.isEmpty
  | .star :: rest, s => s.tails.any (accepts rest)
  | _ :: _, [] => false
  | t :: rest, b :: s => t.takes b && accepts rest s

def isMatch (pattern s : List UInt8) : Bool := accepts (tokens .outside pattern) s

/-! Literals -/

def special : List UInt8 := [42, 63, 91, 92]

def Literal (l : List UInt8) : Prop := ∀ b ∈ l, b ∉ special

theorem tokens_lit {b : UInt8} (plain : b ∉ special) (rest : List UInt8) :
    tokens .outside (b :: rest) = .lit b :: tokens .outside rest := by
  simp only [special, List.mem_cons, List.not_mem_nil, or_false, not_or] at plain
  obtain ⟨star, question, bracket, backslash⟩ := plain
  rw [tokens.eq_def]
  split
  case h_7 same =>
    obtain ⟨rfl, rfl⟩ := List.cons.inj same
    rfl
  all_goals simp_all

theorem tokens_literal {l : List UInt8} (plain : Literal l) (rest : List UInt8) :
    tokens .outside (l ++ rest) = l.map .lit ++ tokens .outside rest := by
  induction l with
  | nil => rfl
  | cons b l ih =>
    have here : b ∉ special := plain b List.mem_cons_self
    have later := ih (fun b' member => plain b' (List.mem_cons_of_mem _ member))
    rw [List.cons_append, tokens_lit here, later, List.map_cons, List.cons_append]

theorem accepts_star (s : List UInt8) : accepts [.star] s = true := by
  have nil : [] ∈ s.tails := (List.mem_tails _ _).mpr List.nil_suffix
  rw [accepts.eq_def]
  exact List.any_eq_true.mpr ⟨[], nil, rfl⟩

theorem accepts_lits (l : List UInt8) (rest : List Token) (s : List UInt8) :
    accepts (l.map .lit ++ rest) s = true ↔ ∃ t, s = l ++ t ∧ accepts rest t = true := by
  induction l generalizing s with
  | nil => simp
  | cons b l ih =>
    cases s with
    | nil => simp [accepts]
    | cons c s =>
      simp only [List.map_cons, List.cons_append, accepts, Token.takes, Bool.and_eq_true,
        decide_eq_true_eq, ih, List.cons.injEq]
      constructor
      · rintro ⟨rfl, t, rfl, later⟩
        exact ⟨t, ⟨rfl, rfl⟩, later⟩
      · rintro ⟨t, ⟨rfl, rfl⟩, later⟩
        exact ⟨rfl, t, rfl, later⟩

/-- What a pattern that begins with a literal matches begins with it. -/
theorem prefix_of_isMatch {l rest : List UInt8} (plain : Literal l) {s : List UInt8}
    (matched : isMatch (l ++ rest) s = true) : l <+: s := by
  rw [isMatch, tokens_literal plain, accepts_lits] at matched
  obtain ⟨t, rfl, _⟩ := matched
  exact List.prefix_append l t

/-- A pattern that is a literal with a star behind it matches what begins with the literal. -/
theorem isMatch_literal {l : List UInt8} (plain : Literal l) (s : List UInt8) :
    isMatch (l ++ [42]) s = true ↔ l <+: s := by
  have star : tokens .outside [42] = [.star] := rfl
  rw [isMatch, tokens_literal plain, star, accepts_lits]
  constructor
  · rintro ⟨t, rfl, _⟩
    exact List.prefix_append l t
  · rintro ⟨t, rfl⟩
    exact ⟨t, rfl, accepts_star t⟩

end Glob
