import WireMirage.Journal.Filters
import WireMirage.Library.Timeline
import WireMirage.Store.Handles

/-!
The instant that a `since` or `until` parameter stands for. The last byte of the text is
taken for its unit, and the distance from now is made a span and then a date, each of a
limited range.
-/
namespace WireMirage

class Rfc3339 (t : Timeline) where
  parse : String → Option t.Instant

inductive Outcome (E A : Type) where
  | returned (a : A)
  | failed (e : E)
  | panicked
  deriving DecidableEq

def utf8Len (l : List Char) : Nat := (l.map Char.utf8Size).sum

/-- `split_at`, which panics at a byte where no character ends. -/
def splitAt : List Char → Nat → Option (List Char × List Char)
  | l, 0 => some ([], l)
  | [], _ + 1 => none
  | c :: rest, mid + 1 =>
    if c.utf8Size ≤ mid + 1 then
      (splitAt rest (mid + 1 - c.utf8Size)).map (fun halves => (c :: halves.1, halves.2))
    else none

def sinceMultiplier : List Char → Option Int
  | ['s'] => some 1
  | ['m'] => some 60
  | ['h'] => some 3600
  | ['d'] => some 86400
  | _ => none

def checkedMul (a b : Int) : Option Int := inI64 (a * b)

section
variable {t : Timeline} [Rfc3339 t]

def durationSince (raw : String) (now : t.Instant) (number unit : List Char) :
    Outcome FilterParseError t.Instant :=
  match parseI64 number with
  | none => .failed (.badSince raw)
  | some n =>
    if n < 0 then .failed (.badSince raw)
    else
      match sinceMultiplier unit with
      | none => .failed (.badSince raw)
      | some multiplier =>
        match checkedMul n multiplier with
        | none => .failed (.badSince raw)
        | some seconds =>
          match now.before seconds with
          | none => .panicked
          | some ts => .returned ts

def parseSince (raw : String) (now : t.Instant) : Outcome FilterParseError t.Instant :=
  match Rfc3339.parse raw with
  | some ts => .returned ts
  | none =>
    let trimmed := (trim raw).toList
    if trimmed = [] then .failed (.badSince raw)
    else
      match splitAt trimmed (utf8Len trimmed - 1) with
      | none => .panicked
      | some (number, unit) => durationSince raw now number unit

/-- The text is a number and a unit of so many seconds. -/
def Ago (raw : String) (n unit : Int) : Prop :=
  ∃ number u, (trim raw).toList = number ++ [u] ∧ parseI64 number = some n ∧ 0 ≤ n ∧
    sinceMultiplier [u] = some unit

/-- An error that names the text, the instant it is written as, or so many units before now. -/
def ExactSince (raw : String) (now : t.Instant) : Outcome FilterParseError t.Instant → Prop
  | .panicked => False
  | .failed e => e = .badSince raw
  | .returned i =>
    Rfc3339.parse raw = some i ∨
      ∃ n unit, Ago raw n unit ∧ (i.pos : Int) = now.pos - n * unit * t.second

/-- A text that is no timestamp ends in a character of one byte, and a distance that can be
    counted in seconds is neither longer than a span can be nor before the first date. -/
def WithinDates (raw : String) (now : t.Instant) : Prop :=
  Rfc3339.parse (t := t) raw = none →
    (∀ number u, (trim raw).toList = number ++ [u] → u.utf8Size = 1) ∧
    ∀ n unit, Ago raw n unit → n * unit ≤ i64Max →
      n * unit ≤ t.longest ∧ n * unit * t.second ≤ now.pos

end

/-! Splitting -/

theorem utf8Len_append (a b : List Char) : utf8Len (a ++ b) = utf8Len a + utf8Len b := by
  simp only [utf8Len, List.map_append, List.sum_append]

theorem splitAt_append (a b : List Char) (mid : Nat) :
    splitAt (a ++ b) (utf8Len a + mid) = (splitAt b mid).map (fun h => (a ++ h.1, h.2)) := by
  induction a with
  | nil => simp [utf8Len]
  | cons c a ih =>
    have width := c.utf8Size_pos
    have whole : utf8Len (c :: a) + mid = c.utf8Size + (utf8Len a + mid) - 1 + 1 := by
      simp only [utf8Len, List.map_cons, List.sum_cons]
      omega
    rw [whole, List.cons_append, splitAt, if_pos (by omega)]
    have rest : c.utf8Size + (utf8Len a + mid) - 1 + 1 - c.utf8Size = utf8Len a + mid := by omega
    rw [rest, ih, Option.map_map]
    rfl

/-- The last byte of a text stands alone when the last character is of one byte. -/
theorem splitAt_last (number : List Char) (u : Char) :
    splitAt (number ++ [u]) (utf8Len (number ++ [u]) - 1) =
      if u.utf8Size = 1 then some (number, [u]) else none := by
  have width := u.utf8Size_pos
  have last : utf8Len (number ++ [u]) - 1 = utf8Len number + (u.utf8Size - 1) := by
    rw [utf8Len_append]
    simp only [utf8Len, List.map_cons, List.map_nil, List.sum_cons, List.sum_nil]
    omega
  rw [last, splitAt_append]
  split
  · rename_i single
    rw [single]
    simp [splitAt]
  · rename_i wide
    obtain ⟨mid, more⟩ : ∃ mid, u.utf8Size - 1 = mid + 1 := ⟨u.utf8Size - 2, by omega⟩
    rw [more, splitAt, if_neg (by omega)]
    rfl

/-! What the parameter gives -/

section
variable {t : Timeline} [Rfc3339 t] {raw : String} {now : t.Instant}

theorem sinceMultiplier_pos {unit : List Char} {m : Int} (known : sinceMultiplier unit = some m) :
    0 < m := by
  unfold sinceMultiplier at known
  split at known <;> cases known <;> decide

theorem checkedMul_eq {n m : Int} (first : 0 ≤ n) (second : 0 < m) :
    checkedMul n m = if n * m ≤ i64Max then some (n * m) else none := by
  have product : 0 ≤ n * m := Int.mul_nonneg first second.le
  unfold checkedMul inI64 i64Min
  by_cases fits : n * m ≤ i64Max
  · rw [if_pos ⟨by omega, fits⟩, if_pos fits]
  · rw [if_neg (fun h => fits h.2), if_neg fits]

theorem durationSince_exact {number : List Char} {u : Char}
    (written : (trim raw).toList = number ++ [u]) :
    ExactSince raw now (durationSince raw now number [u]) ↔
      ∀ n unit, Ago raw n unit → n * unit ≤ i64Max →
        n * unit ≤ t.longest ∧ n * unit * t.second ≤ now.pos := by
  have ago : ∀ n unit, Ago raw n unit ↔
      parseI64 number = some n ∧ 0 ≤ n ∧ sinceMultiplier [u] = some unit := by
    intro n unit
    constructor
    · rintro ⟨number', u', written', rest⟩
      obtain ⟨rfl, same⟩ := List.append_inj' (written.symm.trans written') rfl
      cases same
      exact rest
    · intro rest
      exact ⟨number, u, written, rest⟩
  simp only [ago]
  unfold durationSince
  cases counted : parseI64 number with
  | none => simp [ExactSince]
  | some n =>
    dsimp only
    by_cases negative : n < 0
    · rw [if_pos negative]
      simp only [ExactSince, Option.some.injEq, true_iff]
      rintro _ _ ⟨rfl, forward, _⟩
      omega
    · rw [if_neg negative]
      cases known : sinceMultiplier [u] with
      | none => simp [ExactSince]
      | some m =>
        have forward : 0 ≤ n := by omega
        have positive := sinceMultiplier_pos known
        have span : 0 ≤ n * m := Int.mul_nonneg forward positive.le
        dsimp only
        rw [checkedMul_eq forward positive]
        by_cases fits : n * m ≤ i64Max
        · rw [if_pos fits]
          dsimp only
          cases dated : now.before (n * m) with
          | none =>
            simp only [ExactSince, false_iff]
            intro room
            obtain ⟨short, early⟩ := room n m ⟨rfl, forward, rfl⟩ fits
            have held := (Timeline.Instant.before_isSome span).mpr ⟨by omega, early⟩
            rw [dated] at held
            cases held
          | some i =>
            obtain ⟨short, same⟩ := Timeline.Instant.before_eq_some.mp dated
            constructor
            · rintro _ n' m' ⟨⟨⟩, _, sameUnit⟩ _
              cases sameUnit
              exact ⟨by omega, by omega⟩
            · intro _
              exact .inr ⟨n, m, ⟨number, u, written, counted, forward, known⟩, same⟩
        · rw [if_neg fits]
          simp only [ExactSince, Option.some.injEq, true_iff]
          rintro _ _ ⟨rfl, _, rfl⟩ small
          exact absurd small fits

/-- A text is read exactly, and without a panic, when what it says is within the dates. -/
theorem parse_since_exact_iff (raw : String) (now : t.Instant) :
    ExactSince raw now (parseSince raw now) ↔ WithinDates raw now := by
  unfold parseSince WithinDates
  cases dated : Rfc3339.parse (t := t) raw with
  | some i =>
    simp only [ExactSince, dated, true_or, reduceCtorEq, false_implies]
  | none =>
    simp only [forall_const]
    rcases List.eq_nil_or_concat' (trim raw).toList with empty | ⟨number, u, written⟩
    · have nothing : ∀ number u, (trim raw).toList ≠ number ++ [u] := by
        intro number u
        rw [empty]
        exact (List.append_ne_nil_of_right_ne_nil _ (by simp)).symm
      rw [if_pos empty]
      simp only [ExactSince, true_iff]
      refine ⟨fun number u written => absurd written (nothing number u), ?_⟩
      rintro n unit ⟨number, u, written, _⟩
      exact absurd written (nothing number u)
    · have inhabited : (trim raw).toList ≠ [] := by
        rw [written]
        simp
      have ends : (∀ number u, (trim raw).toList = number ++ [u] → u.utf8Size = 1) ↔
          u.utf8Size = 1 := by
        constructor
        · intro single
          exact single number u written
        · intro single number' u' written'
          obtain ⟨_, same⟩ := List.append_inj' (written.symm.trans written') rfl
          cases same
          exact single
      rw [if_neg inhabited, ends, written, splitAt_last]
      by_cases single : u.utf8Size = 1
      · rw [if_pos single]
        simp only [single, true_and]
        exact durationSince_exact written
      · rw [if_neg single]
        simp only [ExactSince, single, false_and]

end

namespace Sample

/-- The dates of the library in nanoseconds, and its longest span in seconds. -/
def dates : Timeline := ⟨16544868105599999999999, 1000000000, 9223372036854775, by decide⟩

/-- May 12, 2026, at eight. -/
def morning : dates.Instant := ⟨8336379801600000000000, by decide⟩

@[reducible] def untimed : Rfc3339 dates := ⟨fun _ => none⟩

end Sample

/-- A character of three bytes at the end, a span that is too long, and a date before the
    first one. -/
theorem since_panics :
    ¬ (∀ raw, @ExactSince _ Sample.untimed raw Sample.morning
      (@parseSince _ Sample.untimed raw Sample.morning)) ∧
    @parseSince _ Sample.untimed "5分" Sample.morning = .panicked ∧
    @parseSince _ Sample.untimed "9223372036854776s" Sample.morning = .panicked ∧
    @parseSince _ Sample.untimed "200000000d" Sample.morning = .panicked := by
  have character : @parseSince _ Sample.untimed "5分" Sample.morning = .panicked := by
    decide +kernel
  refine ⟨?_, character, by decide +kernel, by decide +kernel⟩
  intro exact_
  have here := exact_ "5分"
  rw [character] at here
  exact here

end WireMirage
