import Mathlib.Order.Basic

/-!
Dates between a first and a last instant, and spans of whole seconds up to a longest one.
Adding to a date and making a span give nothing where the result is out of range.
-/

/-- Instants are counted from the first one. -/
structure Timeline where
  latest : Nat
  second : Nat
  longest : Nat
  ticking : 0 < second

namespace Timeline

@[ext]
structure Instant (t : Timeline) where
  pos : Nat
  inside : pos ≤ t.latest
  deriving DecidableEq

variable {t : Timeline}

def seconds (t : Timeline) (n : Int) : Option Int :=
  if n.natAbs ≤ t.longest then some (n * t.second) else none

def Instant.shift (i : t.Instant) (span : Int) : Option t.Instant :=
  if h : 0 ≤ i.pos + span ∧ i.pos + span ≤ t.latest then
    some ⟨(i.pos + span).toNat, by omega⟩
  else none

def Instant.after (i : t.Instant) (n : Int) : Option t.Instant := (t.seconds n).bind i.shift

def Instant.before (i : t.Instant) (n : Int) : Option t.Instant :=
  (t.seconds n).bind (fun span => i.shift (-span))

theorem Instant.shift_eq_some {i j : t.Instant} {span : Int} :
    i.shift span = some j ↔ (j.pos : Int) = i.pos + span := by
  unfold Instant.shift
  constructor
  · intro shifted
    split at shifted
    · cases shifted
      show ((i.pos + span).toNat : Int) = i.pos + span
      omega
    · cases shifted
  · intro same
    have last := j.inside
    rw [dif_pos (by omega), Option.some.injEq]
    ext
    show (i.pos + span).toNat = j.pos
    omega

theorem Instant.shift_isSome {i : t.Instant} {span : Int} :
    (i.shift span).isSome ↔ 0 ≤ i.pos + span ∧ i.pos + span ≤ t.latest := by
  unfold Instant.shift
  split
  · rename_i inside
    exact ⟨fun _ => inside, fun _ => rfl⟩
  · rename_i outside
    constructor
    · intro nothing
      cases nothing
    · intro inside
      exact absurd inside outside

theorem seconds_eq_some {n span : Int} :
    t.seconds n = some span ↔ n.natAbs ≤ t.longest ∧ span = n * t.second := by
  unfold seconds
  split
  · rename_i short
    rw [Option.some.injEq]
    exact ⟨fun same => ⟨short, same.symm⟩, fun h => h.2.symm⟩
  · rename_i long
    constructor
    · intro nothing
      cases nothing
    · intro h
      exact absurd h.1 long

theorem Instant.after_eq_some {i j : t.Instant} {n : Int} :
    i.after n = some j ↔ n.natAbs ≤ t.longest ∧ (j.pos : Int) = i.pos + n * t.second := by
  simp only [Instant.after, Option.bind_eq_some_iff, seconds_eq_some, shift_eq_some]
  constructor
  · rintro ⟨span, ⟨short, rfl⟩, same⟩
    exact ⟨short, same⟩
  · rintro ⟨short, same⟩
    exact ⟨_, ⟨short, rfl⟩, same⟩

theorem Instant.before_eq_some {i j : t.Instant} {n : Int} :
    i.before n = some j ↔ n.natAbs ≤ t.longest ∧ (j.pos : Int) = i.pos - n * t.second := by
  simp only [Instant.before, Option.bind_eq_some_iff, seconds_eq_some, shift_eq_some]
  constructor
  · rintro ⟨span, ⟨short, rfl⟩, same⟩
    exact ⟨short, by omega⟩
  · rintro ⟨short, same⟩
    exact ⟨_, ⟨short, rfl⟩, by omega⟩

theorem Instant.after_isSome {i : t.Instant} {n : Int} :
    (i.after n).isSome ↔ n.natAbs ≤ t.longest ∧ 0 ≤ i.pos + n * t.second ∧
      i.pos + n * t.second ≤ t.latest := by
  unfold Instant.after seconds
  split
  · rename_i short
    rw [Option.bind_some, shift_isSome]
    exact ⟨fun h => ⟨short, h⟩, fun h => h.2⟩
  · rename_i long
    constructor
    · intro nothing
      cases nothing
    · intro h
      exact absurd h.1 long

theorem Instant.before_isSome {i : t.Instant} {n : Int} (forward : 0 ≤ n) :
    (i.before n).isSome ↔ n.natAbs ≤ t.longest ∧ n * t.second ≤ i.pos := by
  unfold Instant.before seconds
  split
  · rename_i short
    have last := i.inside
    have span : 0 ≤ n * t.second := Int.mul_nonneg forward (Int.natCast_nonneg _)
    rw [Option.bind_some, shift_isSome]
    constructor
    · rintro ⟨first, _⟩
      exact ⟨short, by omega⟩
    · rintro ⟨_, room⟩
      exact ⟨by omega, by omega⟩
  · rename_i long
    constructor
    · intro nothing
      cases nothing
    · intro h
      exact absurd h.1 long

end Timeline
