import WireMirage.Library.Window
import WireMirage.Store.Views

/-!
Ranges of a stored list. Valkey answers with the elements between the two indices;
the in-memory store moves an index that is out of range onto the list first.
-/
namespace WireMirage
open Window

/-- An index that is negative counts from the end. -/
def fromEnd (len i : Int) : Int := if i < 0 then len + i else i

/-- The elements of a list that a range asks for. -/
def inRange {β : Type} (q : List β) (start stop : Int) : List β :=
  between q (fromEnd q.length start) (fromEnd q.length stop)

/-- The range lies past the end or before the beginning of the list, and both its indices
    are moved onto one element. -/
def MovedOnto (len start stop : Int) : Prop :=
  0 < len ∧
    (len ≤ start ∧ (len - 1 ≤ stop ∨ stop = -1 ∨ len = 1 ∧ stop < 0) ∨
      stop < -len ∧ (start = 0 ∨ start ≤ -len ∨ len = 1 ∧ 0 ≤ start))

section Lists
variable {β : Type} (q : List β) (start stop : Int)

theorem lrange_eq : Storage.lrange q start stop = inRange q start stop := by
  unfold Storage.lrange inRange
  simp only
  generalize isFirst : (if start < 0 then max (start + q.length) 0 else start) = first
  generalize isLast : (if stop < 0 then stop + q.length else stop : Int) = last
  split
  · rename_i none
    symm
    rw [between_eq_nil_iff]
    intro i within
    unfold fromEnd
    omega
  · rename_i some
    rw [slice_eq_between _ (by omega)]
    apply between_congr
    intro i within
    unfold fromEnd
    omega

theorem memoryRange_eq : Storage.memoryRange q start stop =
    between q (Storage.normalizeIndex q.length start) (Storage.normalizeIndex q.length stop) := by
  unfold Storage.memoryRange
  simp only
  split
  · rename_i empty
    symm
    rw [between_eq_nil_iff]
    intro i within
    omega
  · split
    · rename_i order
      symm
      rw [between_eq_nil_iff]
      intro i within
      omega
    · rw [slice_eq_between]
      unfold Storage.normalizeIndex
      omega

theorem memoryRange_iff :
    Storage.memoryRange q start stop = inRange q start stop ↔ ¬ MovedOnto q.length start stop := by
  rw [memoryRange_eq]
  constructor
  · rintro same ⟨some, moved⟩
    have empty : inRange q start stop = [] := by
      rw [inRange, between_eq_nil_iff]
      intro i within
      unfold fromEnd
      omega
    rw [empty, between_eq_nil_iff] at same
    refine same (Storage.normalizeIndex q.length start).toNat ?_ ?_
    · unfold Storage.normalizeIndex
      omega
    · unfold Storage.normalizeIndex
      omega
  · intro still
    apply between_congr
    intro i within
    unfold MovedOnto at still
    unfold Storage.normalizeIndex fromEnd
    omega

end Lists

/-- A range of the in-memory store is what Valkey answers, unless it was moved onto the list. -/
theorem list_range_follows_lrange {κ β : Type} [DecidableEq κ] {s : Storage κ β} {k : κ}
    {q : List β} (memory : s.backend = .inMemory) (stored : s.lookup k = some (.list q))
    (start stop : Int) :
    ((s.listRange k start stop).1 = .ok (inRange q start stop) ↔
        ¬ MovedOnto q.length start stop) ∧
      ∀ t : Storage κ β, t.backend = .valkey → t.lookup k = some (.list q) →
        (t.listRange k start stop).1 = .ok (inRange q start stop) := by
  constructor
  · have answer : (s.listRange k start stop).1 = .ok (Storage.memoryRange q start stop) := by
      simp only [Storage.listRange, stored, memory]
    rw [answer, Except.ok.injEq]
    exact memoryRange_iff q start stop
  · intro t valkey held
    simp only [Storage.listRange, held, valkey, lrange_eq]

namespace Sample

/-- A list of two elements under one key. -/
def queue (backend : Backend) : Storage String (List UInt8) :=
  (Storage.listPush "q" [98] (Storage.listPush "q" [97] (Storage.empty backend)).2).2

end Sample

theorem list_range_follows_lrange_queue :
    ((Sample.queue .inMemory).listRange "q" (-2) (-1)).1 = .ok [[97], [98]] ∧
      ((Sample.queue .valkey).listRange "q" (-2) (-1)).1 = .ok [[97], [98]] := by
  have stored : ∀ backend, (Sample.queue backend).lookup "q" = some (.list [[97], [98]]) := by
    intro backend
    rfl
  have follows := list_range_follows_lrange (s := Sample.queue .inMemory) rfl (stored _) (-2) (-1)
  have still : ¬ MovedOnto ([[97], [98]] : List (List UInt8)).length (-2) (-1) := by
    unfold MovedOnto
    decide
  exact ⟨follows.1.mpr still, follows.2 _ rfl (stored _)⟩

/-- Past the end of a list the in-memory store answers with its last element. -/
theorem range_past_the_end :
    ((Sample.queue .inMemory).listRange "q" 5 9).1 ≠ .ok (inRange [[97], [98]] 5 9) ∧
      ((Sample.queue .valkey).listRange "q" 5 9).1 = .ok (inRange [[97], [98]] 5 9) := by
  decide

end WireMirage
