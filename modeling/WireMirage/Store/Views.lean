import WireMirage.Store.Storage

/-!
What the operations of the store read and change when every key holds values of
the one kind its family is used for. A store is then three views: the byte
strings, the hashes and the sets under its keys, an absent key reading as an
absent string, a hash without fields or a set without members.
-/
namespace WireMirage

/-- The kind a family of keys is used for; `none` for keys that handlers choose. -/
class KeyKinds (κ : Type) where
  kindOf : κ → Option Kind

theorem lookup_insert {β : Type} (h : Fields β) (f f' : String) (v : β) :
    (h.insert f v).lookup f' = if f' = f then some v else h.lookup f' := by
  by_cases same : f' = f
  · subst same
    simp
  · simp [AList.lookup_insert_ne same, same]

namespace Storage
variable {κ β : Type} [DecidableEq κ]

def asBytes : Option (MemValue β) → Option β
  | some (.bytes b) => some b
  | _ => none

def asHash : Option (MemValue β) → Fields β
  | some (.hash h) => h
  | _ => ∅

def asSet : Option (MemValue β) → Members
  | some (.set ms) => ms
  | _ => Members.none

def bytesAt (s : Storage κ β) (k : κ) : Option β := asBytes (s.lookup k)
def hashAt (s : Storage κ β) (k : κ) : Fields β := asHash (s.lookup k)
def membersAt (s : Storage κ β) (k : κ) : Members := asSet (s.lookup k)
def setAt (s : Storage κ β) (k : κ) : List String := (s.membersAt k).toList

def WellKinded [KeyKinds κ] (s : Storage κ β) : Prop :=
  ∀ k v kd, s.lookup k = some v → KeyKinds.kindOf k = some kd → v.kind = kd

/-! The views of a key depend on its entry alone -/

section
variable {s t : Storage κ β} {k : κ} (same : t.entry k = s.entry k)
include same

theorem lookup_of_entry : t.lookup k = s.lookup k := congrArg (Option.map Entry.value) same

theorem armed_of_entry : t.armed k = s.armed k := congrArg (Option.bind · Entry.expires) same

theorem bytesAt_of_entry : t.bytesAt k = s.bytesAt k := congrArg asBytes (lookup_of_entry same)

theorem hashAt_of_entry : t.hashAt k = s.hashAt k := congrArg asHash (lookup_of_entry same)

theorem setAt_of_entry : t.setAt k = s.setAt k :=
  congrArg (fun v => (asSet v).toList) (lookup_of_entry same)

end

theorem setAt_nodup (s : Storage κ β) (k : κ) : (s.setAt k).Nodup := (s.membersAt k).nodup

/-! The changes an operation makes, as total functions of the store. -/

def put (s : Storage κ β) (k : κ) (b : β) (expires : Option Nat) : Storage κ β :=
  s.replace k (.bytes b) expires

def putHash (s : Storage κ β) (k : κ) (h : Fields β) : Storage κ β := s.write k (.hash h)

def dropField (s : Storage κ β) (k : κ) (field : String) : Storage κ β :=
  if (s.lookup k).isNone then s else s.writeBack k (.hash ((s.hashAt k).erase field))

def addMember (s : Storage κ β) (k : κ) (x : String) : Storage κ β :=
  s.write k (.set ((s.membersAt k).insert x))

def dropMember (s : Storage κ β) (k : κ) (x : String) : Storage κ β :=
  if (s.lookup k).isNone then s else s.writeBack k (.set ((s.membersAt k).erase x))

/-- The deadline of a key is set or cleared, its value stays. -/
def arm (s : Storage κ β) (k : κ) (expires : Option Nat) : Storage κ β :=
  match s.backend, s.lookup k with
  | .valkey, some v => s.replace k v expires
  | _, _ => s

/-! Lookups after a change -/

@[simp] theorem lookup_empty (b : Backend) (k : κ) :
    (Storage.empty b : Storage κ β).lookup k = none := by
  simp [Storage.empty, lookup, entry]

theorem lookup_write (s : Storage κ β) (k k' : κ) (v : MemValue β) :
    (s.write k v).lookup k' = if k' = k then some v else s.lookup k' := by
  by_cases same : k' = k
  · subst same
    simp [lookup, entry, write]
  · simp [lookup, entry, write, AList.lookup_insert_ne same, same]

theorem lookup_replace (s : Storage κ β) (k k' : κ) (v : MemValue β) (e : Option Nat) :
    (s.replace k v e).lookup k' = if k' = k then some v else s.lookup k' := by
  by_cases same : k' = k
  · subst same
    simp [lookup, entry, replace]
  · simp [lookup, entry, replace, AList.lookup_insert_ne same, same]

theorem lookup_erase (s : Storage κ β) (k k' : κ) :
    (s.erase k).lookup k' = if k' = k then none else s.lookup k' := by
  by_cases same : k' = k
  · subst same
    simp [lookup, entry, erase]
  · simp [lookup, entry, erase, AList.lookup_erase_ne same, same]

theorem lookup_writeBack_ne (s : Storage κ β) {k k' : κ} (v : MemValue β) (other : k' ≠ k) :
    (s.writeBack k v).lookup k' = s.lookup k' := by
  unfold writeBack
  split
  · simp [lookup_erase, other]
  · simp [lookup_write, other]

theorem lookup_writeBack_eq (s : Storage κ β) (k : κ) (v : MemValue β) :
    (s.writeBack k v).lookup k = if s.backend = .valkey ∧ v.isEmpty then none else some v := by
  unfold writeBack
  split
  · simp [lookup_erase]
  · simp [lookup_write]

@[simp] theorem lookup_arm (s : Storage κ β) (k k' : κ) (e : Option Nat) :
    (s.arm k e).lookup k' = s.lookup k' := by
  unfold arm
  split
  · rename_i found
    by_cases same : k' = k
    · subst same
      simp [lookup_replace, found]
    · simp [lookup_replace, same]
  · rfl

theorem eraseAll_cons (k : κ) (ks : List κ) (s : Storage κ β) :
    eraseAll (k :: ks) s = eraseAll ks (s.erase k) := rfl

theorem lookup_eraseAll (ks : List κ) (s : Storage κ β) (k : κ) :
    (eraseAll ks s).lookup k = if k ∈ ks then none else s.lookup k := by
  induction ks generalizing s with
  | nil => simp [eraseAll]
  | cons a ks ih =>
    rw [eraseAll_cons, ih, lookup_erase]
    by_cases first : k = a
    · simp [first]
    · simp [first]

theorem lookup_eq_none_iff (s : Storage κ β) (k : κ) :
    s.lookup k = none ↔ k ∉ s.entries.keys := by
  rw [← AList.mem_keys, ← AList.lookup_eq_none]
  simp [lookup, entry]

/-! The views after a change -/

section
variable (s : Storage κ β) (k k' : κ)

@[simp] theorem bytesAt_empty (b : Backend) :
    (Storage.empty b : Storage κ β).bytesAt k = none := by
  simp [bytesAt, asBytes]

@[simp] theorem hashAt_empty (b : Backend) :
    (Storage.empty b : Storage κ β).hashAt k = ∅ := by
  simp [hashAt, asHash]

@[simp] theorem setAt_empty (b : Backend) :
    (Storage.empty b : Storage κ β).setAt k = [] := by
  simp [setAt, membersAt, asSet, Members.none]

@[simp] theorem bytesAt_put (b : β) (e : Option Nat) :
    (s.put k b e).bytesAt k' = if k' = k then some b else s.bytesAt k' := by
  simp only [bytesAt, put, lookup_replace]
  split <;> rfl

@[simp] theorem hashAt_put (b : β) (e : Option Nat) :
    (s.put k b e).hashAt k' = if k' = k then ∅ else s.hashAt k' := by
  simp only [hashAt, put, lookup_replace]
  split <;> rfl

@[simp] theorem membersAt_put (b : β) (e : Option Nat) :
    (s.put k b e).membersAt k' = if k' = k then Members.none else s.membersAt k' := by
  simp only [membersAt, put, lookup_replace]
  split <;> rfl

@[simp] theorem bytesAt_putHash (h : Fields β) :
    (s.putHash k h).bytesAt k' = if k' = k then none else s.bytesAt k' := by
  simp only [bytesAt, putHash, lookup_write]
  split <;> rfl

@[simp] theorem hashAt_putHash (h : Fields β) :
    (s.putHash k h).hashAt k' = if k' = k then h else s.hashAt k' := by
  simp only [hashAt, putHash, lookup_write]
  split <;> rfl

@[simp] theorem membersAt_putHash (h : Fields β) :
    (s.putHash k h).membersAt k' = if k' = k then Members.none else s.membersAt k' := by
  simp only [membersAt, putHash, lookup_write]
  split <;> rfl

@[simp] theorem bytesAt_addMember (x : String) :
    (s.addMember k x).bytesAt k' = if k' = k then none else s.bytesAt k' := by
  simp only [bytesAt, addMember, lookup_write]
  split <;> rfl

@[simp] theorem hashAt_addMember (x : String) :
    (s.addMember k x).hashAt k' = if k' = k then ∅ else s.hashAt k' := by
  simp only [hashAt, addMember, lookup_write]
  split <;> rfl

@[simp] theorem membersAt_addMember (x : String) :
    (s.addMember k x).membersAt k' =
      if k' = k then (s.membersAt k).insert x else s.membersAt k' := by
  simp only [membersAt, addMember, lookup_write]
  split <;> rfl

@[simp] theorem bytesAt_erase :
    (s.erase k).bytesAt k' = if k' = k then none else s.bytesAt k' := by
  simp only [bytesAt, lookup_erase]
  split <;> rfl

@[simp] theorem hashAt_erase :
    (s.erase k).hashAt k' = if k' = k then ∅ else s.hashAt k' := by
  simp only [hashAt, lookup_erase]
  split <;> rfl

@[simp] theorem membersAt_erase :
    (s.erase k).membersAt k' = if k' = k then Members.none else s.membersAt k' := by
  simp only [membersAt, lookup_erase]
  split <;> rfl

@[simp] theorem bytesAt_arm (e : Option Nat) : (s.arm k e).bytesAt k' = s.bytesAt k' := by
  simp [bytesAt]

@[simp] theorem hashAt_arm (e : Option Nat) : (s.arm k e).hashAt k' = s.hashAt k' := by
  simp [hashAt]

@[simp] theorem membersAt_arm (e : Option Nat) : (s.arm k e).membersAt k' = s.membersAt k' := by
  simp [membersAt]

end

theorem hash_eq_empty_of_isEmpty {h : Fields β} (none : h.entries.isEmpty = true) : h = ∅ := by
  apply AList.ext
  exact List.isEmpty_iff.mp none

theorem members_eq_none_of_isEmpty {ms : Members} (none : ms.toList.isEmpty = true) :
    ms = Members.none := by
  cases ms
  simp only [Members.none, Members.mk.injEq]
  exact List.isEmpty_iff.mp none

@[simp] theorem hashAt_dropField (s : Storage κ β) (k k' : κ) (f : String) :
    (s.dropField k f).hashAt k' = if k' = k then (s.hashAt k).erase f else s.hashAt k' := by
  unfold dropField
  by_cases same : k' = k
  · subst same
    simp only [if_true]
    split
    · rename_i absent
      have nothing : s.hashAt k' = ∅ := by
        simp [hashAt, Option.isNone_iff_eq_none.mp absent, asHash]
      rw [nothing]
      rfl
    · simp only [hashAt, lookup_writeBack_eq]
      split
      · rename_i gone
        exact (hash_eq_empty_of_isEmpty gone.2).symm
      · rfl
  · simp only [same, if_false]
    split
    · rfl
    · simp [hashAt, lookup_writeBack_ne _ _ same]

@[simp] theorem membersAt_dropMember (s : Storage κ β) (k k' : κ) (x : String) :
    (s.dropMember k x).membersAt k' =
      if k' = k then (s.membersAt k).erase x else s.membersAt k' := by
  unfold dropMember
  by_cases same : k' = k
  · subst same
    simp only [if_true]
    split
    · rename_i absent
      have nothing : s.membersAt k' = Members.none := by
        simp [membersAt, Option.isNone_iff_eq_none.mp absent, asSet]
      rw [nothing]
      rfl
    · simp only [membersAt, lookup_writeBack_eq]
      split
      · rename_i gone
        exact (members_eq_none_of_isEmpty gone.2).symm
      · rfl
  · simp only [same, if_false]
    split
    · rfl
    · simp [membersAt, lookup_writeBack_ne _ _ same]

theorem lookup_dropField_ne (s : Storage κ β) {k k' : κ} (f : String) (other : k' ≠ k) :
    (s.dropField k f).lookup k' = s.lookup k' := by
  unfold dropField
  split
  · rfl
  · exact lookup_writeBack_ne s _ other

theorem lookup_dropMember_ne (s : Storage κ β) {k k' : κ} (x : String) (other : k' ≠ k) :
    (s.dropMember k x).lookup k' = s.lookup k' := by
  unfold dropMember
  split
  · rfl
  · exact lookup_writeBack_ne s _ other

@[simp] theorem setAt_put (s : Storage κ β) (k k' : κ) (b : β) (e : Option Nat) :
    (s.put k b e).setAt k' = if k' = k then [] else s.setAt k' := by
  simp only [setAt, membersAt_put]
  split <;> rfl

@[simp] theorem setAt_putHash (s : Storage κ β) (k k' : κ) (h : Fields β) :
    (s.putHash k h).setAt k' = if k' = k then [] else s.setAt k' := by
  simp only [setAt, membersAt_putHash]
  split <;> rfl

@[simp] theorem setAt_erase (s : Storage κ β) (k k' : κ) :
    (s.erase k).setAt k' = if k' = k then [] else s.setAt k' := by
  simp only [setAt, membersAt_erase]
  split <;> rfl

@[simp] theorem setAt_arm (s : Storage κ β) (k k' : κ) (e : Option Nat) :
    (s.arm k e).setAt k' = s.setAt k' := by
  simp only [setAt, membersAt_arm]

@[simp] theorem setAt_addMember (s : Storage κ β) (k k' : κ) (x : String) :
    (s.addMember k x).setAt k' = if k' = k then (s.setAt k).insert x else s.setAt k' := by
  simp only [setAt, membersAt_addMember]
  split <;> rfl

@[simp] theorem setAt_dropMember (s : Storage κ β) (k k' : κ) (x : String) :
    (s.dropMember k x).setAt k' = if k' = k then (s.setAt k).erase x else s.setAt k' := by
  simp only [setAt, membersAt_dropMember]
  split <;> rfl

theorem mem_setAt_erase (s : Storage κ β) (k : κ) (x y : String) :
    y ∈ (s.setAt k).erase x ↔ y ≠ x ∧ y ∈ s.setAt k := (s.setAt_nodup k).mem_erase_iff

theorem bytes_of_writeBack_hash (s : Storage κ β) (k : κ) (h : Fields β) :
    (s.writeBack k (.hash h)).bytesAt k = none ∧ (s.writeBack k (.hash h)).setAt k = [] := by
  simp only [bytesAt, setAt, membersAt, lookup_writeBack_eq]
  split <;> exact ⟨rfl, rfl⟩

theorem bytes_of_writeBack_set (s : Storage κ β) (k : κ) (ms : Members) :
    (s.writeBack k (.set ms)).bytesAt k = none ∧ (s.writeBack k (.set ms)).hashAt k = ∅ := by
  simp only [bytesAt, hashAt, lookup_writeBack_eq]
  split <;> exact ⟨rfl, rfl⟩

@[simp] theorem bytesAt_dropField (s : Storage κ β) (k k' : κ) (f : String) :
    (s.dropField k f).bytesAt k' = if k' = k then none else s.bytesAt k' := by
  by_cases same : k' = k
  · subst same
    unfold dropField
    split
    · rename_i absent
      simp [bytesAt, Option.isNone_iff_eq_none.mp absent, asBytes]
    · simp [(bytes_of_writeBack_hash s k' _).1]
  · simp [bytesAt, lookup_dropField_ne s f same, same]

@[simp] theorem setAt_dropField (s : Storage κ β) (k k' : κ) (f : String) :
    (s.dropField k f).setAt k' = if k' = k then [] else s.setAt k' := by
  by_cases same : k' = k
  · subst same
    unfold dropField
    split
    · rename_i absent
      simp [setAt, membersAt, Option.isNone_iff_eq_none.mp absent, asSet, Members.none]
    · simp [(bytes_of_writeBack_hash s k' _).2]
  · simp [setAt, membersAt, lookup_dropField_ne s f same, same]

@[simp] theorem bytesAt_dropMember (s : Storage κ β) (k k' : κ) (x : String) :
    (s.dropMember k x).bytesAt k' = if k' = k then none else s.bytesAt k' := by
  by_cases same : k' = k
  · subst same
    unfold dropMember
    split
    · rename_i absent
      simp [bytesAt, Option.isNone_iff_eq_none.mp absent, asBytes]
    · simp [(bytes_of_writeBack_set s k' _).1]
  · simp [bytesAt, lookup_dropMember_ne s x same, same]

@[simp] theorem hashAt_dropMember (s : Storage κ β) (k k' : κ) (x : String) :
    (s.dropMember k x).hashAt k' = if k' = k then ∅ else s.hashAt k' := by
  by_cases same : k' = k
  · subst same
    unfold dropMember
    split
    · rename_i absent
      simp [hashAt, Option.isNone_iff_eq_none.mp absent, asHash]
    · simp [(bytes_of_writeBack_set s k' _).2]
  · simp [hashAt, lookup_dropMember_ne s x same, same]

/-! Deletion of several fields of a hash -/

def eraseFields (h : Fields β) (fields : List String) : Fields β :=
  fields.foldl (fun h f => h.erase f) h

def dropFields (s : Storage κ β) (k : κ) (fields : List String) : Storage κ β :=
  fields.foldl (fun s f => s.dropField k f) s

theorem lookup_eraseFields (fields : List String) (h : Fields β) (f : String) :
    (eraseFields h fields).lookup f = if f ∈ fields then none else h.lookup f := by
  induction fields generalizing h with
  | nil => simp [eraseFields]
  | cons a fields ih =>
    show (eraseFields (h.erase a) fields).lookup f = _
    rw [ih]
    by_cases first : f = a
    · subst first
      simp
    · simp [first, AList.lookup_erase_ne first]

section
variable (s : Storage κ β) {k k' : κ} (fields : List String)

@[simp] theorem hashAt_dropFields :
    (s.dropFields k fields).hashAt k' =
      if k' = k then eraseFields (s.hashAt k) fields else s.hashAt k' := by
  induction fields generalizing s with
  | nil =>
    by_cases same : k' = k
    · subst same
      simp [dropFields, eraseFields]
    · simp [dropFields, same]
  | cons f fields ih =>
    show ((s.dropField k f).dropFields k fields).hashAt k' = _
    rw [ih]
    by_cases same : k' = k
    · subst same
      simp [eraseFields]
    · simp [same]

theorem lookup_dropFields_ne (other : k' ≠ k) :
    (s.dropFields k fields).lookup k' = s.lookup k' := by
  induction fields generalizing s with
  | nil => rfl
  | cons f fields ih =>
    show ((s.dropField k f).dropFields k fields).lookup k' = _
    rw [ih, lookup_dropField_ne s f other]

@[simp] theorem bytesAt_dropFields (other : k' ≠ k) :
    (s.dropFields k fields).bytesAt k' = s.bytesAt k' := by
  simp only [bytesAt, lookup_dropFields_ne s fields other]

@[simp] theorem setAt_dropFields (other : k' ≠ k) :
    (s.dropFields k fields).setAt k' = s.setAt k' := by
  simp only [setAt, membersAt, lookup_dropFields_ne s fields other]

end

/-! Deletion of every key under a prefix -/

/-- The store without the keys that a predicate covers. -/
def without (s : Storage κ β) (covers : κ → Bool) : Storage κ β :=
  eraseAll (s.entries.keys.filter covers) s

theorem lookup_without (s : Storage κ β) (covers : κ → Bool) (k : κ) :
    (s.without covers).lookup k = if covers k then none else s.lookup k := by
  rw [without, lookup_eraseAll]
  by_cases covered : covers k
  · simp only [covered, List.mem_filter, and_true, if_true]
    split
    · rfl
    · rename_i absent
      exact (lookup_eq_none_iff s k).mpr absent
  · simp [covered]

section
variable (s : Storage κ β) (covers : κ → Bool) (k : κ)

@[simp] theorem bytesAt_without :
    (s.without covers).bytesAt k = if covers k then none else s.bytesAt k := by
  simp only [bytesAt, lookup_without]
  split <;> rfl

@[simp] theorem hashAt_without :
    (s.without covers).hashAt k = if covers k then ∅ else s.hashAt k := by
  simp only [hashAt, lookup_without]
  split <;> rfl

@[simp] theorem setAt_without :
    (s.without covers).setAt k = if covers k then [] else s.setAt k := by
  simp only [setAt, membersAt, lookup_without]
  split <;> rfl

end

/-! Entries under other keys -/

section
variable (s : Storage κ β) {k k' : κ} (other : k' ≠ k)
include other

theorem entry_write_ne (v : MemValue β) : (s.write k v).entry k' = s.entry k' :=
  AList.lookup_insert_ne other

theorem entry_replace_ne (v : MemValue β) (e : Option Nat) :
    (s.replace k v e).entry k' = s.entry k' :=
  AList.lookup_insert_ne other

theorem entry_erase_ne : (s.erase k).entry k' = s.entry k' := AList.lookup_erase_ne other

theorem entry_writeBack_ne (v : MemValue β) : (s.writeBack k v).entry k' = s.entry k' := by
  unfold writeBack
  split
  · exact entry_erase_ne s other
  · exact entry_write_ne s other v

theorem entry_dropField_ne (f : String) : (s.dropField k f).entry k' = s.entry k' := by
  unfold dropField
  split
  · rfl
  · exact entry_writeBack_ne s other _

theorem entry_dropMember_ne (x : String) : (s.dropMember k x).entry k' = s.entry k' := by
  unfold dropMember
  split
  · rfl
  · exact entry_writeBack_ne s other _

theorem entry_arm_ne (e : Option Nat) : (s.arm k e).entry k' = s.entry k' := by
  unfold arm
  split
  · exact entry_replace_ne s other _ _
  · rfl

end

/-! A record written field by field -/

theorem armed_write (s : Storage κ β) (k k' : κ) (v : MemValue β) :
    (s.write k v).armed k' = s.armed k' := by
  by_cases same : k' = k
  · subst same
    simp [armed, entry, write]
  · simp [armed, entry, write, AList.lookup_insert_ne same]

/-- Writing a hash twice is writing it once. -/
@[simp] theorem putHash_putHash (s : Storage κ β) (k : κ) (h h' : Fields β) :
    (s.putHash k h).putHash k h' = s.putHash k h' := by
  have kept := armed_write s k k (.hash h)
  unfold putHash write at *
  simp only [kept, AList.insert_insert]

/-! What each operation does, on a key of its own kind where it needs one -/

theorem set_eq (s : Storage κ β) (k : κ) (b : β) : s.set k b = (.ok (), s.put k b none) := rfl

theorem delete_eq (s : Storage κ β) (k : κ) : s.delete k = (.ok (), s.erase k) := rfl

/-- The deadline `SET EX` leaves on a key. -/
def ttlDeadline (s : Storage κ β) (ttlSeconds : Nat) : Option Nat :=
  match s.backend with
  | .inMemory => none
  | .valkey => some (s.clock + max ttlSeconds 1)

theorem setWithTtl_eq (s : Storage κ β) (k : κ) (b : β) (ttl : Nat) :
    s.setWithTtl k b ttl = (.ok (), s.put k b (s.ttlDeadline ttl)) := by
  unfold setWithTtl ttlDeadline
  cases s.backend <;> rfl

theorem setTtl_eq (s : Storage κ β) (k : κ) (ttl : Nat) (positive : ttl ≠ 0) :
    s.setTtl k ttl = (.ok (), s.arm k (some (s.clock + ttl))) := by
  unfold setTtl arm
  cases s.backend <;> cases s.lookup k <;> simp [positive]

theorem clearTtl_eq (s : Storage κ β) (k : κ) : s.clearTtl k = (.ok (), s.arm k none) := by
  unfold clearTtl arm
  cases s.backend <;> cases s.lookup k <;> rfl

section Kinds
variable [KeyKinds κ] {s : Storage κ β} {k : κ}

theorem wellKinded_of_lookup {t : Storage κ β} (wk : s.WellKinded)
    (same : ∀ k v, t.lookup k = some v → s.lookup k = some v ∨
      ∀ kd, KeyKinds.kindOf k = some kd → v.kind = kd) : t.WellKinded := by
  intro k v kd found family
  rcases same k v found with old | fresh
  · exact wk k v kd old family
  · exact fresh kd family

@[simp] theorem wellKinded_empty (b : Backend) : (Storage.empty b : Storage κ β).WellKinded := by
  intro k v kd found
  simp at found

theorem wellKinded_write (wk : s.WellKinded) (v : MemValue β)
    (fits : KeyKinds.kindOf k = some v.kind ∨ KeyKinds.kindOf k = none) :
    (s.write k v).WellKinded := by
  apply wellKinded_of_lookup wk
  intro k' v' found
  rw [lookup_write] at found
  split at found
  · rename_i same
    right
    intro kd family
    cases found
    rcases fits with f | f <;> simp_all
  · exact .inl found

theorem wellKinded_replace (wk : s.WellKinded) (v : MemValue β) (e : Option Nat)
    (fits : KeyKinds.kindOf k = some v.kind ∨ KeyKinds.kindOf k = none) :
    (s.replace k v e).WellKinded := by
  apply wellKinded_of_lookup wk
  intro k' v' found
  rw [lookup_replace] at found
  split at found
  · rename_i same
    right
    intro kd family
    cases found
    rcases fits with f | f <;> simp_all
  · exact .inl found

@[simp] theorem wellKinded_erase (wk : s.WellKinded) : (s.erase k).WellKinded := by
  apply wellKinded_of_lookup wk
  intro k' v' found
  rw [lookup_erase] at found
  split at found
  · cases found
  · exact .inl found

theorem wellKinded_writeBack (wk : s.WellKinded) (v : MemValue β)
    (fits : KeyKinds.kindOf k = some v.kind ∨ KeyKinds.kindOf k = none) :
    (s.writeBack k v).WellKinded := by
  unfold writeBack
  split
  · exact wellKinded_erase wk
  · exact wellKinded_write wk v fits

@[simp] theorem wellKinded_put (wk : s.WellKinded)
    (family : KeyKinds.kindOf k = some .bytes) (b : β) (e : Option Nat) :
    (s.put k b e).WellKinded :=
  wellKinded_replace wk _ e (.inl family)

@[simp] theorem wellKinded_putHash (wk : s.WellKinded)
    (family : KeyKinds.kindOf k = some .hash) (h : Fields β) : (s.putHash k h).WellKinded :=
  wellKinded_write wk _ (.inl family)

@[simp] theorem wellKinded_addMember (wk : s.WellKinded)
    (family : KeyKinds.kindOf k = some .set) (x : String) : (s.addMember k x).WellKinded :=
  wellKinded_write wk _ (.inl family)

@[simp] theorem wellKinded_dropField (wk : s.WellKinded)
    (family : KeyKinds.kindOf k = some .hash) (f : String) : (s.dropField k f).WellKinded := by
  unfold dropField
  split
  · exact wk
  · exact wellKinded_writeBack wk _ (.inl family)

@[simp] theorem wellKinded_dropMember (wk : s.WellKinded)
    (family : KeyKinds.kindOf k = some .set) (x : String) : (s.dropMember k x).WellKinded := by
  unfold dropMember
  split
  · exact wk
  · exact wellKinded_writeBack wk _ (.inl family)

@[simp] theorem wellKinded_arm (wk : s.WellKinded) (e : Option Nat) : (s.arm k e).WellKinded := by
  apply wellKinded_of_lookup wk
  intro k' v' found
  exact .inl (by simpa using found)

@[simp] theorem wellKinded_dropFields (wk : s.WellKinded)
    (family : KeyKinds.kindOf k = some .hash) (fields : List String) :
    (s.dropFields k fields).WellKinded := by
  induction fields generalizing s with
  | nil => exact wk
  | cons f fields ih => exact ih (wellKinded_dropField wk family f)

theorem wellKinded_eraseAll (wk : s.WellKinded) (ks : List κ) : (eraseAll ks s).WellKinded := by
  apply wellKinded_of_lookup wk
  intro k' v' found
  rw [lookup_eraseAll] at found
  split at found
  · cases found
  · exact .inl found

@[simp] theorem wellKinded_without (wk : s.WellKinded) (covers : κ → Bool) :
    (s.without covers).WellKinded :=
  wellKinded_eraseAll wk _

/-- A key used for sets shows neither bytes nor fields. -/
theorem views_of_set (wk : s.WellKinded) (family : KeyKinds.kindOf k = some .set) :
    s.bytesAt k = none ∧ s.hashAt k = ∅ := by
  unfold bytesAt hashAt
  cases found : s.lookup k with
  | none => exact ⟨rfl, rfl⟩
  | some v =>
    have fits := wk k v _ found family
    cases v <;> simp_all [MemValue.kind, asBytes, asHash]

theorem get_eq (wk : s.WellKinded) (family : KeyKinds.kindOf k = some .bytes) :
    s.get k = (.ok (s.bytesAt k), s) := by
  unfold get bytesAt
  cases found : s.lookup k with
  | none => rfl
  | some v =>
    have fits := wk k v _ found family
    cases v <;> simp_all [MemValue.kind, asBytes]

theorem setIfAbsent_eq (wk : s.WellKinded) (family : KeyKinds.kindOf k = some .bytes) (v : β) :
    s.setIfAbsent k v =
      if (s.bytesAt k).isSome then (.ok false, s) else (.ok true, s.put k v none) := by
  have views : (s.lookup k).isSome = (s.bytesAt k).isSome := by
    unfold bytesAt
    cases found : s.lookup k with
    | none => rfl
    | some x =>
      have fits := wk k x _ found family
      cases x <;> simp_all [MemValue.kind, asBytes]
  unfold setIfAbsent
  cases s.backend with
  | inMemory =>
    simp only [get_eq wk family]
    cases s.bytesAt k <;> rfl
  | valkey =>
    simp only [views]
    rfl

theorem hashGetAll_eq (wk : s.WellKinded) (family : KeyKinds.kindOf k = some .hash) :
    s.hashGetAll k = (.ok (s.hashAt k), s) := by
  unfold hashGetAll hashAt
  cases found : s.lookup k with
  | none => rfl
  | some v =>
    have fits := wk k v _ found family
    cases v <;> simp_all [MemValue.kind, asHash]

theorem hashGet_eq (wk : s.WellKinded) (family : KeyKinds.kindOf k = some .hash) (f : String) :
    s.hashGet k f = (.ok ((s.hashAt k).lookup f), s) := by
  unfold hashGet hashAt
  cases found : s.lookup k with
  | none => simp [asHash]
  | some v =>
    have fits := wk k v _ found family
    cases v <;> simp_all [MemValue.kind, asHash]

theorem hashSet_eq (wk : s.WellKinded) (family : KeyKinds.kindOf k = some .hash) (f : String)
    (v : β) : s.hashSet k f v = (.ok (), s.putHash k ((s.hashAt k).insert f v)) := by
  unfold hashSet hashAt putHash
  cases found : s.lookup k with
  | none => rfl
  | some v =>
    have fits := wk k v _ found family
    cases v <;> simp_all [MemValue.kind, asHash]

theorem hashDelete_eq (wk : s.WellKinded) (family : KeyKinds.kindOf k = some .hash)
    (f : String) : s.hashDelete k f = (.ok (), s.dropField k f) := by
  unfold hashDelete dropField hashAt
  cases found : s.lookup k with
  | none => rfl
  | some v =>
    have fits := wk k v _ found family
    cases v <;> simp_all [MemValue.kind, asHash]

theorem hashIncr_eq [Decimal β] (wk : s.WellKinded) (family : KeyKinds.kindOf k = some .hash)
    (f : String) (delta : Int) :
    s.hashIncr k f delta = s.storeSum (s.addInt k (some f) ((s.hashAt k).lookup f) delta)
      (fun n => s.putHash k ((s.hashAt k).insert f (Decimal.ofInt n))) := by
  unfold hashIncr hashAt putHash
  cases found : s.lookup k with
  | none => simp [asHash, addInt, storeSum]
  | some v =>
    have fits := wk k v _ found family
    cases v <;> simp_all [MemValue.kind, asHash]

theorem setAdd_eq (wk : s.WellKinded) (family : KeyKinds.kindOf k = some .set) (x : String) :
    s.setAdd k x = (.ok (), s.addMember k x) := by
  unfold setAdd addMember membersAt
  cases found : s.lookup k with
  | none => rfl
  | some v =>
    have fits := wk k v _ found family
    cases v <;> simp_all [MemValue.kind, asSet]

theorem setRemove_eq (wk : s.WellKinded) (family : KeyKinds.kindOf k = some .set) (x : String) :
    s.setRemove k x = (.ok (), s.dropMember k x) := by
  unfold setRemove dropMember membersAt
  cases found : s.lookup k with
  | none => rfl
  | some v =>
    have fits := wk k v _ found family
    cases v <;> simp_all [MemValue.kind, asSet]

theorem setMembers_eq (wk : s.WellKinded) (family : KeyKinds.kindOf k = some .set) :
    s.setMembers k = (.ok (s.setAt k), s) := by
  unfold setMembers setAt membersAt
  cases found : s.lookup k with
  | none => rfl
  | some v =>
    have fits := wk k v _ found family
    cases v <;> simp_all [MemValue.kind, asSet]

theorem incr_eq [Decimal β] (wk : s.WellKinded) (family : KeyKinds.kindOf k = some .bytes)
    (delta : Int) :
    s.incr k delta = s.storeSum (s.addInt k none (s.bytesAt k) delta)
      (fun n => s.write k (.bytes (Decimal.ofInt n))) := by
  unfold incr bytesAt
  cases found : s.lookup k with
  | none => simp [asBytes, addInt, storeSum]
  | some v =>
    have fits := wk k v _ found family
    cases v <;> simp_all [MemValue.kind, asBytes]

end Kinds
end Storage
end WireMirage
