import WireMirage.Library.Prog
import WireMirage.Store.Views

/-!
The commands of a bucket as programs over the store behind it, for any keys and
values and any errors that can carry an error of the store.
-/
namespace WireMirage
open Prog

class FromStoreError (κ Err : Type) where
  wrap : StoreError κ → Err

instance {κ : Type} : FromStoreError κ (StoreError κ) := ⟨id⟩

namespace Bucket
variable {κ β Err A : Type} [DecidableEq κ] [FromStoreError κ Err]

def command (f : Storage κ β → Storage.Reply κ β A) : Prog (Storage κ β) Err A :=
  Prog.atomic (fun s => ((f s).1.mapError FromStoreError.wrap, (f s).2))

def get (k : κ) : Prog (Storage κ β) Err (Option β) := command (Storage.get k)
def set (k : κ) (v : β) : Prog (Storage κ β) Err Unit := command (Storage.set k v)
def delete (k : κ) : Prog (Storage κ β) Err Unit := command (Storage.delete k)
def setWithTtl (k : κ) (v : β) (ttl : Nat) : Prog (Storage κ β) Err Unit :=
  command (Storage.setWithTtl k v ttl)
def setTtl (k : κ) (ttl : Nat) : Prog (Storage κ β) Err Unit := command (Storage.setTtl k ttl)
def clearTtl (k : κ) : Prog (Storage κ β) Err Unit := command (Storage.clearTtl k)
def setIfAbsent (k : κ) (v : β) : Prog (Storage κ β) Err Bool := command (Storage.setIfAbsent k v)
def incr [Decimal β] (k : κ) (delta : Int) : Prog (Storage κ β) Err Int :=
  command (Storage.incr k delta)
def hashGet (k : κ) (field : String) : Prog (Storage κ β) Err (Option β) :=
  command (Storage.hashGet k field)
def hashSet (k : κ) (field : String) (v : β) : Prog (Storage κ β) Err Unit :=
  command (Storage.hashSet k field v)
def hashDelete (k : κ) (field : String) : Prog (Storage κ β) Err Unit :=
  command (Storage.hashDelete k field)
def hashIncr [Decimal β] (k : κ) (field : String) (delta : Int) : Prog (Storage κ β) Err Int :=
  command (Storage.hashIncr k field delta)
def hashGetAll (k : κ) : Prog (Storage κ β) Err (Fields β) := command (Storage.hashGetAll k)
def setAdd (k : κ) (x : String) : Prog (Storage κ β) Err Unit := command (Storage.setAdd k x)
def setRemove (k : κ) (x : String) : Prog (Storage κ β) Err Unit := command (Storage.setRemove k x)
def setMembers (k : κ) : Prog (Storage κ β) Err (List String) := command (Storage.setMembers k)

end Bucket

/-! Commands -/

section Commands
variable {κ β Err A : Type} [DecidableEq κ] [FromStoreError κ Err] {s : Storage κ β} {k : κ}

omit [DecidableEq κ] in
@[simp] theorem run_command (f : Storage κ β → Storage.Reply κ β A) :
    run (Bucket.command f : Prog (Storage κ β) Err A) s =
      ((f s).1.mapError FromStoreError.wrap, (f s).2) := by
  simp [Bucket.command]

@[simp] theorem run_set (v : β) :
    run (Bucket.set k v : Prog (Storage κ β) Err _) s = (.ok (), s.put k v none) := by
  simp [Bucket.set, Storage.set_eq, Except.mapError]

@[simp] theorem run_delete :
    run (Bucket.delete k : Prog (Storage κ β) Err _) s = (.ok (), s.erase k) := by
  simp [Bucket.delete, Storage.delete_eq, Except.mapError]

@[simp] theorem run_setWithTtl (v : β) (ttl : Nat) :
    run (Bucket.setWithTtl k v ttl : Prog (Storage κ β) Err _) s =
      (.ok (), s.put k v (s.ttlDeadline ttl)) := by
  simp [Bucket.setWithTtl, Storage.setWithTtl_eq, Except.mapError]

@[simp] theorem run_setTtl {ttl : Nat} (positive : ttl ≠ 0) :
    run (Bucket.setTtl k ttl : Prog (Storage κ β) Err _) s =
      (.ok (), s.arm k (some (s.clock + ttl))) := by
  simp [Bucket.setTtl, Storage.setTtl_eq s k ttl positive, Except.mapError]

@[simp] theorem run_clearTtl :
    run (Bucket.clearTtl k : Prog (Storage κ β) Err _) s = (.ok (), s.arm k none) := by
  simp [Bucket.clearTtl, Storage.clearTtl_eq, Except.mapError]

variable [KeyKinds κ]

@[simp] theorem run_get (wk : s.WellKinded) (family : KeyKinds.kindOf k = some .bytes) :
    run (Bucket.get k : Prog (Storage κ β) Err _) s = (.ok (s.bytesAt k), s) := by
  simp [Bucket.get, Storage.get_eq wk family, Except.mapError]

theorem run_setIfAbsent (wk : s.WellKinded) (family : KeyKinds.kindOf k = some .bytes) (v : β) :
    run (Bucket.setIfAbsent k v : Prog (Storage κ β) Err _) s =
      if (s.bytesAt k).isSome then (.ok false, s) else (.ok true, s.put k v none) := by
  rw [Bucket.setIfAbsent, run_command, Storage.setIfAbsent_eq wk family]
  split <;> rfl

@[simp] theorem run_hashGet (wk : s.WellKinded) (family : KeyKinds.kindOf k = some .hash)
    (f : String) :
    run (Bucket.hashGet k f : Prog (Storage κ β) Err _) s = (.ok ((s.hashAt k).lookup f), s) := by
  simp [Bucket.hashGet, Storage.hashGet_eq wk family, Except.mapError]

@[simp] theorem run_hashGetAll (wk : s.WellKinded) (family : KeyKinds.kindOf k = some .hash) :
    run (Bucket.hashGetAll k : Prog (Storage κ β) Err _) s = (.ok (s.hashAt k), s) := by
  simp [Bucket.hashGetAll, Storage.hashGetAll_eq wk family, Except.mapError]

@[simp] theorem run_hashSet (wk : s.WellKinded) (family : KeyKinds.kindOf k = some .hash)
    (f : String) (v : β) :
    run (Bucket.hashSet k f v : Prog (Storage κ β) Err _) s =
      (.ok (), s.putHash k ((s.hashAt k).insert f v)) := by
  simp [Bucket.hashSet, Storage.hashSet_eq wk family, Except.mapError]

@[simp] theorem run_hashDelete (wk : s.WellKinded) (family : KeyKinds.kindOf k = some .hash)
    (f : String) :
    run (Bucket.hashDelete k f : Prog (Storage κ β) Err _) s = (.ok (), s.dropField k f) := by
  simp [Bucket.hashDelete, Storage.hashDelete_eq wk family, Except.mapError]

@[simp] theorem run_setAdd (wk : s.WellKinded) (family : KeyKinds.kindOf k = some .set)
    (x : String) :
    run (Bucket.setAdd k x : Prog (Storage κ β) Err _) s = (.ok (), s.addMember k x) := by
  simp [Bucket.setAdd, Storage.setAdd_eq wk family, Except.mapError]

@[simp] theorem run_setRemove (wk : s.WellKinded) (family : KeyKinds.kindOf k = some .set)
    (x : String) :
    run (Bucket.setRemove k x : Prog (Storage κ β) Err _) s = (.ok (), s.dropMember k x) := by
  simp [Bucket.setRemove, Storage.setRemove_eq wk family, Except.mapError]

@[simp] theorem run_setMembers (wk : s.WellKinded) (family : KeyKinds.kindOf k = some .set) :
    run (Bucket.setMembers k : Prog (Storage κ β) Err _) s = (.ok (s.setAt k), s) := by
  simp [Bucket.setMembers, Storage.setMembers_eq wk family, Except.mapError]

/-- Clearing fields one by one. -/
theorem run_hashDeletes (fields : List String) (wk : s.WellKinded)
    (family : KeyKinds.kindOf k = some .hash) :
    run (forEach fields (fun f => (Bucket.hashDelete k f : Prog (Storage κ β) Err Unit))) s =
      (.ok (), s.dropFields k fields) := by
  have each : ∀ f ∈ fields, ∀ t : Storage κ β, t.WellKinded →
      run (Bucket.hashDelete k f : Prog (Storage κ β) Err Unit) t = (.ok (), t.dropField k f) ∧
        (t.dropField k f).WellKinded := by
    intro f _ t held
    exact ⟨run_hashDelete held family f, Storage.wellKinded_dropField held family f⟩
  exact (run_forEach Storage.WellKinded (fun f t => t.dropField k f) fields _ each s wk).1

end Commands
end WireMirage
