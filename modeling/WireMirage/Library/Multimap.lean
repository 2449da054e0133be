import Mathlib.Data.List.Dedup

/-!
Maps from names to lists of values that hold a limited number of names. An operation
that would go over the limit gives no map.
-/
namespace Multimap
variable {A B : Type} [DecidableEq A]

/-- The values that a list of pairs gives a name, in order. -/
def valuesOf (name : A) (pairs : List (A × B)) : List B :=
  (pairs.filter (fun pair => pair.1 = name)).map Prod.snd

def names (pairs : List (A × B)) : List A := (pairs.map Prod.fst).dedup

theorem valuesOf_append (name : A) (pairs others : List (A × B)) :
    valuesOf name (pairs ++ others) = valuesOf name pairs ++ valuesOf name others := by
  simp [valuesOf]

@[simp] theorem valuesOf_nil (name : A) : valuesOf name ([] : List (A × B)) = [] := rfl

theorem valuesOf_single (name : A) (pair : A × B) :
    valuesOf name [pair] = if pair.1 = name then [pair.2] else [] := by
  unfold valuesOf
  by_cases same : pair.1 = name <;> simp [same]

theorem mem_fst_iff (name : A) (pairs : List (A × B)) :
    name ∈ pairs.map Prod.fst ↔ valuesOf name pairs ≠ [] := by
  simp [valuesOf, List.filter_eq_nil_iff]

/-- Pairs that give every name the same values have no more names than pairs on either side. -/
theorem names_length_le {pairs others : List (A × B)}
    (same : ∀ name, valuesOf name pairs = valuesOf name others) :
    (names pairs).length ≤ others.length := by
  have among : names pairs ⊆ others.map Prod.fst := by
    intro name member
    rw [mem_fst_iff, ← same, ← mem_fst_iff]
    exact List.mem_dedup.mp member
  have fewer : (names pairs).length ≤ (others.map Prod.fst).length :=
    (List.nodup_dedup (pairs.map Prod.fst)).length_le_of_subset among
  rwa [List.length_map] at fewer

theorem valuesOf_without (name a : A) (pairs : List (A × B)) :
    valuesOf name (pairs.filter (fun pair => pair.1 ≠ a)) =
      if name = a then [] else valuesOf name pairs := by
  unfold valuesOf
  rw [List.filter_filter]
  by_cases same : name = a
  · rw [if_pos same, List.map_eq_nil_iff, List.filter_eq_nil_iff]
    intro pair _
    simp [same]
  · rw [if_neg same]
    congr 1
    apply List.filter_congr
    intro pair _
    by_cases here : pair.1 = name
    · simp [here, same]
    · simp [here]

end Multimap

open Multimap in
/-- What such a map promises; its pairs may come in any order of the names. -/
class BoundedMultimap (Map : Type) (A B : outParam Type) [DecidableEq A] where
  withCapacity : Nat → Option Map
  append : Map → A → B → Option Map
  insert : Map → A → B → Option Map
  iter : Map → List (A × B)
  capacity : Nat
  granted : ∀ n, (withCapacity n).isSome ↔ n ≤ capacity
  empty : ∀ n m, withCapacity n = some m → iter m = []
  room : ∀ m a b, (names (iter m)).length < capacity → (append m a b).isSome
  appended : ∀ m a b m', append m a b = some m' → ∀ name,
    valuesOf name (iter m') = valuesOf name (iter m) ++ valuesOf name [(a, b)]
  inserted : ∀ m a b m', insert m a b = some m' → ∀ name,
    valuesOf name (iter m') = if name = a then [b] else valuesOf name (iter m)

namespace Multimap
variable {Map A B : Type} [DecidableEq A] [BoundedMultimap Map A B]
open BoundedMultimap

def appendAll : List (A × B) → Map → Option Map
  | [], m => some m
  | pair :: rest, m => (append m pair.1 pair.2).bind (appendAll rest)

theorem valuesOf_appendAll {pairs : List (A × B)} {m m' : Map}
    (added : appendAll pairs m = some m') (name : A) :
    valuesOf name (iter m') = valuesOf name (iter m) ++ valuesOf name pairs := by
  induction pairs generalizing m with
  | nil =>
    cases added
    simp
  | cons pair rest ih =>
    rw [appendAll, Option.bind_eq_some_iff] at added
    obtain ⟨next, first, later⟩ := added
    have pairs : pair :: rest = [pair] ++ rest := rfl
    rw [ih later, appended m pair.1 pair.2 next first, List.append_assoc, pairs, valuesOf_append]

/-- A map that is the list of its pairs. -/
structure Listed (limit : Nat) (A B : Type) where
  pairs : List (A × B)

instance (limit : Nat) : BoundedMultimap (Listed limit A B) A B where
  withCapacity n := if n ≤ limit then some ⟨[]⟩ else none
  append m a b := if (names m.pairs).length < limit then some ⟨m.pairs ++ [(a, b)]⟩ else none
  insert m a b := some ⟨m.pairs.filter (fun pair => pair.1 ≠ a) ++ [(a, b)]⟩
  iter := Listed.pairs
  capacity := limit
  granted := by
    intro n
    split <;> simp [*]
  empty := by
    intro n m made
    split at made
    · cases made
      rfl
    · cases made
  room := by
    intro m a b room
    simp [room]
  appended := by
    intro m a b m' added name
    split at added
    · cases added
      exact valuesOf_append name _ _
    · cases added
  inserted := by
    intro m a b m' added name
    cases added
    rw [valuesOf_append, valuesOf_single, valuesOf_without]
    by_cases same : name = a
    · simp [same]
    · simp [same, Ne.symm same]

end Multimap
