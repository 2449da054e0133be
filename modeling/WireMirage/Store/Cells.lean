import WireMirage.Store.Scans

/-!
What a call on a bucket answers and leaves behind. A call on one key reads and changes that
key alone, so the store behind it may be any store that holds the same there, down to the
store that has no other key.
-/
namespace WireMirage

abbrev Cell := Option (MemValue Bytes)

/-- A call on one key of a bucket. -/
inductive KeyCall where
  | get
  | set (value : Bytes)
  | delete
  | setWithTtl (value : Bytes) (ttlSeconds : Nat)
  | setTtl (ttlSeconds : Nat)
  | clearTtl
  | setIfAbsent (value : Bytes)
  | incr (delta : Int64)
  | kind
  | listPush (value : Bytes)
  | listPop
  | listRange (start stop : Int64)
  | listLength
  | hashGet (field : String)
  | hashSet (field : String) (value : Bytes)
  | hashDelete (field : String)
  | hashKeys
  | hashIncr (field : String) (delta : Int64)
  | hashGetAll
  | setAdd (member : String)
  | setRemove (member : String)
  | setContains (member : String)
  | setMembers

inductive BucketCall where
  | on (key : String) (call : KeyCall)
  | listKeys (userPrefix : Option String)
  | deleteWithPrefix (userPrefix : String)

inductive Answer where
  | done
  | flag (b : Bool)
  | value (b : Option Bytes)
  | kind (k : Option Kind)
  | number (n : Int)
  | count (n : Nat)
  | names (l : List String)
  | values (l : List Bytes)
  | fields (h : Fields Bytes)
  deriving DecidableEq

def Storage.Reply.answer {κ A : Type} (wrap : A → Answer) (r : Storage.Reply κ Bytes A) :
    Storage.Reply κ Bytes Answer := (r.1.map wrap, r.2)

namespace KeyCall
variable {κ : Type} [DecidableEq κ]

def op (k : κ) (s : Storage κ Bytes) : KeyCall → Storage.Reply κ Bytes Answer
  | get => (s.get k).answer .value
  | set value => (s.set k value).answer (fun _ => .done)
  | delete => (s.delete k).answer (fun _ => .done)
  | setWithTtl value ttl => (s.setWithTtl k value ttl).answer (fun _ => .done)
  | setTtl ttl => (s.setTtl k ttl).answer (fun _ => .done)
  | clearTtl => (s.clearTtl k).answer (fun _ => .done)
  | setIfAbsent value => (s.setIfAbsent k value).answer .flag
  | incr delta => (s.incr k delta.toInt).answer .number
  | kind => (s.kind k).answer .kind
  | listPush value => (s.listPush k value).answer (fun _ => .done)
  | listPop => (s.listPop k).answer .value
  | listRange start stop => (s.listRange k start.toInt stop.toInt).answer .values
  | listLength => (s.listLength k).answer .count
  | hashGet field => (s.hashGet k field).answer .value
  | hashSet field value => (s.hashSet k field value).answer (fun _ => .done)
  | hashDelete field => (s.hashDelete k field).answer (fun _ => .done)
  | hashKeys => (s.hashKeys k).answer .names
  | hashIncr field delta => (s.hashIncr k field delta.toInt).answer .number
  | hashGetAll => (s.hashGetAll k).answer .fields
  | setAdd member => (s.setAdd k member).answer (fun _ => .done)
  | setRemove member => (s.setRemove k member).answer (fun _ => .done)
  | setContains member => (s.setContains k member).answer .flag
  | setMembers => (s.setMembers k).answer .names

end KeyCall

/-- The store that has one key. -/
def alone (backend : Backend) (c : Cell) : Storage Unit Bytes where
  backend := backend
  entries := c.elim ∅ (fun v => AList.insert () ⟨v, none⟩ ∅)
  clock := 0

theorem lookup_alone (backend : Backend) (c : Cell) : (alone backend c).lookup () = c := by
  cases c with
  | none => rfl
  | some v => rfl

/-- What a call answers on a key that holds a value or none. -/
def KeyCall.outcome (call : KeyCall) (backend : Backend) (c : Cell) :
    Except (StoreError Unit) Answer := (call.op () (alone backend c)).1

/-- What a call leaves there. -/
def KeyCall.left (call : KeyCall) (backend : Backend) (c : Cell) : Cell :=
  (call.op () (alone backend c)).2.lookup ()

def StoreError.on {κ : Type} (k : κ) : StoreError Unit → StoreError κ
  | .wrongType _ actual expected => .wrongType k actual expected
  | .notInteger _ field => .notInteger k field
  | .incrOverflow _ field => .incrOverflow k field
  | .backend msg => .backend msg

/-! One key is enough -/

section OneKey
variable {κ A : Type} [DecidableEq κ]

/-- A reply that comes from one key is the reply of the store that has no other. -/
structure OneKey (k : κ) (s : Storage κ Bytes) (r : Storage.Reply κ Bytes A)
    (r' : Storage.Reply Unit Bytes A) : Prop where
  answer : r.1 = r'.1.mapError (StoreError.on k)
  here : r.2.lookup k = r'.2.lookup ()
  elsewhere : ∀ k', k' ≠ k → r.2.lookup k' = s.lookup k'
  backend : r.2.backend = s.backend

variable {k : κ} {s : Storage κ Bytes} {t : Storage Unit Bytes} (here : s.lookup k = t.lookup ())

include here in
theorem oneKey_keep (a : A) : OneKey k s (.ok a, s) (.ok a, t) := ⟨rfl, here, fun _ _ => rfl, rfl⟩

include here in
theorem oneKey_error (e : StoreError Unit) :
    OneKey (A := A) k s (.error (e.on k), s) (.error e, t) := ⟨rfl, here, fun _ _ => rfl, rfl⟩

theorem oneKey_replace (a : A) (v : MemValue Bytes) (e e' : Option Nat) :
    OneKey k s (.ok a, s.replace k v e) (.ok a, t.replace () v e') := by
  refine ⟨rfl, ?_, ?_, rfl⟩
  · rw [Storage.lookup_replace, Storage.lookup_replace, if_pos rfl, if_pos rfl]
  · intro k' other
    rw [Storage.lookup_replace, if_neg other]

theorem oneKey_write (a : A) (v : MemValue Bytes) :
    OneKey k s (.ok a, s.write k v) (.ok a, t.write () v) := oneKey_replace a v _ _

theorem oneKey_erase (a : A) : OneKey k s (.ok a, s.erase k) (.ok a, t.erase ()) := by
  refine ⟨rfl, ?_, ?_, rfl⟩
  · rw [Storage.lookup_erase, Storage.lookup_erase, if_pos rfl, if_pos rfl]
  · intro k' other
    rw [Storage.lookup_erase, if_neg other]

variable (backend : s.backend = t.backend)

include backend in
theorem oneKey_writeBack (a : A) (v : MemValue Bytes) :
    OneKey k s (.ok a, s.writeBack k v) (.ok a, t.writeBack () v) := by
  unfold Storage.writeBack
  rw [backend]
  split
  · exact oneKey_erase a
  · exact oneKey_write a v

include here backend in
theorem oneKey_wrongType (actual : Kind) (expected onValkey : String) :
    OneKey (A := A) k s (.error (s.wrongType k actual expected onValkey), s)
      (.error (t.wrongType () actual expected onValkey), t) := by
  have same : s.wrongType k actual expected onValkey =
      (t.wrongType () actual expected onValkey).on k := by
    unfold Storage.wrongType
    rw [backend]
    split <;> rfl
  rw [same]
  exact oneKey_error here _

theorem oneKey_answer {r : Storage.Reply κ Bytes A} {r' : Storage.Reply Unit Bytes A}
    (one : OneKey k s r r') (wrap : A → Answer) : OneKey k s (r.answer wrap) (r'.answer wrap) := by
  refine ⟨?_, one.here, one.elsewhere, one.backend⟩
  show r.1.map wrap = (r'.1.map wrap).mapError (StoreError.on k)
  rw [one.answer]
  cases r'.1 <;> rfl

end OneKey

section Operations
variable {κ : Type} [DecidableEq κ] {k : κ} {s : Storage κ Bytes} {t : Storage Unit Bytes}
  (here : s.lookup k = t.lookup ()) (backend : s.backend = t.backend)
include here backend

theorem oneKey_get : OneKey k s (s.get k) (t.get ()) := by
  unfold Storage.get
  rw [here]
  split
  · exact oneKey_keep here _
  · exact oneKey_keep here _
  · exact oneKey_wrongType here backend _ _ _

omit here in
theorem oneKey_setWithTtl (value : Bytes) (ttl : Nat) :
    OneKey k s (s.setWithTtl k value ttl) (t.setWithTtl () value ttl) := by
  unfold Storage.setWithTtl
  rw [backend]
  split
  · exact oneKey_replace _ _ _ _
  · exact oneKey_replace _ _ _ _

theorem oneKey_setTtl (ttl : Nat) : OneKey k s (s.setTtl k ttl) (t.setTtl () ttl) := by
  unfold Storage.setTtl
  rw [backend, here]
  split
  · exact oneKey_keep here _
  · split
    · exact oneKey_keep here _
    · split
      · exact oneKey_erase _
      · exact oneKey_replace _ _ _ _

theorem oneKey_clearTtl : OneKey k s (s.clearTtl k) (t.clearTtl ()) := by
  unfold Storage.clearTtl
  rw [backend, here]
  split
  · exact oneKey_keep here _
  · split
    · exact oneKey_keep here _
    · exact oneKey_replace _ _ _ _

theorem oneKey_setIfAbsent (value : Bytes) :
    OneKey k s (s.setIfAbsent k value) (t.setIfAbsent () value) := by
  unfold Storage.setIfAbsent Storage.get
  rw [backend, here]
  cases t.backend with
  | inMemory =>
    cases t.lookup () with
    | none => exact oneKey_replace _ _ _ _
    | some v =>
      cases v with
      | bytes b => exact oneKey_keep here _
      | list q => exact oneKey_wrongType here backend _ _ _
      | hash h => exact oneKey_wrongType here backend _ _ _
      | set ms => exact oneKey_wrongType here backend _ _ _
  | valkey =>
    simp only
    split
    · exact oneKey_keep here _
    · exact oneKey_replace _ _ _ _

omit [DecidableEq κ] here in
/-- An addition answers the same, and fails the same, on any two stores of one backend. -/
theorem addInt_on (current : Option Bytes) (field : Option String) (delta : Int) :
    s.addInt k field current delta =
      (t.addInt () field current delta).mapError (StoreError.on k) := by
  cases current with
  | none => rfl
  | some b =>
    have reads : s.readInt b = t.readInt b := by
      unfold Storage.readInt
      rw [backend]
    unfold Storage.addInt
    simp only [reads]
    cases t.readInt b with
    | none => rfl
    | some n =>
      simp only
      split <;> rfl

theorem oneKey_storeSum {current : Option Bytes} {field : Option String} {delta : Int}
    {update : Int → MemValue Bytes} :
    OneKey k s (s.storeSum (s.addInt k field current delta) (fun n => s.write k (update n)))
      (t.storeSum (t.addInt () field current delta) (fun n => t.write () (update n))) := by
  rw [addInt_on backend]
  cases t.addInt () field current delta with
  | error e => exact oneKey_error here e
  | ok n => exact oneKey_write _ _

theorem oneKey_incr (delta : Int) : OneKey k s (s.incr k delta) (t.incr () delta) := by
  unfold Storage.incr
  rw [here]
  split
  · exact oneKey_write _ _
  · exact oneKey_storeSum here backend
  · exact oneKey_wrongType here backend _ _ _

omit backend in
theorem oneKey_kind : OneKey k s (s.kind k) (t.kind ()) := by
  unfold Storage.kind
  rw [here]
  exact oneKey_keep here _

theorem oneKey_listPush (value : Bytes) :
    OneKey k s (s.listPush k value) (t.listPush () value) := by
  unfold Storage.listPush
  rw [here]
  split
  · exact oneKey_write _ _
  · exact oneKey_write _ _
  · exact oneKey_wrongType here backend _ _ _

theorem oneKey_listPop : OneKey k s (s.listPop k) (t.listPop ()) := by
  unfold Storage.listPop
  rw [here]
  split
  · exact oneKey_keep here _
  · exact oneKey_writeBack backend _ _
  · exact oneKey_wrongType here backend _ _ _

theorem oneKey_listRange (start stop : Int) :
    OneKey k s (s.listRange k start stop) (t.listRange () start stop) := by
  unfold Storage.listRange
  rw [here, backend]
  split
  · exact oneKey_keep here _
  · split
    · exact oneKey_keep here _
    · exact oneKey_keep here _
  · exact oneKey_wrongType here backend _ _ _

theorem oneKey_listLength : OneKey k s (s.listLength k) (t.listLength ()) := by
  unfold Storage.listLength
  rw [here]
  split
  · exact oneKey_keep here _
  · exact oneKey_keep here _
  · exact oneKey_wrongType here backend _ _ _

theorem oneKey_hashGet (field : String) : OneKey k s (s.hashGet k field) (t.hashGet () field) := by
  unfold Storage.hashGet
  rw [here]
  split
  · exact oneKey_keep here _
  · exact oneKey_keep here _
  · exact oneKey_wrongType here backend _ _ _

theorem oneKey_hashSet (field : String) (value : Bytes) :
    OneKey k s (s.hashSet k field value) (t.hashSet () field value) := by
  unfold Storage.hashSet
  rw [here]
  split
  · exact oneKey_write _ _
  · exact oneKey_write _ _
  · exact oneKey_wrongType here backend _ _ _

theorem oneKey_hashDelete (field : String) :
    OneKey k s (s.hashDelete k field) (t.hashDelete () field) := by
  unfold Storage.hashDelete
  rw [here]
  split
  · exact oneKey_keep here _
  · exact oneKey_writeBack backend _ _
  · exact oneKey_wrongType here backend _ _ _

theorem oneKey_hashKeys : OneKey k s (s.hashKeys k) (t.hashKeys ()) := by
  unfold Storage.hashKeys
  rw [here]
  split
  · exact oneKey_keep here _
  · exact oneKey_keep here _
  · exact oneKey_wrongType here backend _ _ _

theorem oneKey_hashIncr (field : String) (delta : Int) :
    OneKey k s (s.hashIncr k field delta) (t.hashIncr () field delta) := by
  unfold Storage.hashIncr
  rw [here]
  split
  · exact oneKey_write _ _
  · exact oneKey_storeSum here backend
  · exact oneKey_wrongType here backend _ _ _

theorem oneKey_hashGetAll : OneKey k s (s.hashGetAll k) (t.hashGetAll ()) := by
  unfold Storage.hashGetAll
  rw [here]
  split
  · exact oneKey_keep here _
  · exact oneKey_keep here _
  · exact oneKey_wrongType here backend _ _ _

theorem oneKey_setAdd (member : String) : OneKey k s (s.setAdd k member) (t.setAdd () member) := by
  unfold Storage.setAdd
  rw [here]
  split
  · exact oneKey_write _ _
  · exact oneKey_write _ _
  · exact oneKey_wrongType here backend _ _ _

theorem oneKey_setRemove (member : String) :
    OneKey k s (s.setRemove k member) (t.setRemove () member) := by
  unfold Storage.setRemove
  rw [here]
  split
  · exact oneKey_keep here _
  · exact oneKey_writeBack backend _ _
  · exact oneKey_wrongType here backend _ _ _

theorem oneKey_setContains (member : String) :
    OneKey k s (s.setContains k member) (t.setContains () member) := by
  unfold Storage.setContains
  rw [here]
  split
  · exact oneKey_keep here _
  · exact oneKey_keep here _
  · exact oneKey_wrongType here backend _ _ _

theorem oneKey_setMembers : OneKey k s (s.setMembers k) (t.setMembers ()) := by
  unfold Storage.setMembers
  rw [here]
  split
  · exact oneKey_keep here _
  · exact oneKey_keep here _
  · exact oneKey_wrongType here backend _ _ _

theorem oneKey_op (call : KeyCall) : OneKey k s (call.op k s) (call.op () t) := by
  cases call with
  | get => exact oneKey_answer (oneKey_get here backend) _
  | set value => exact oneKey_answer (oneKey_replace _ _ _ _) _
  | delete => exact oneKey_answer (oneKey_erase _) _
  | setWithTtl value ttl => exact oneKey_answer (oneKey_setWithTtl backend value ttl) _
  | setTtl ttl => exact oneKey_answer (oneKey_setTtl here backend ttl) _
  | clearTtl => exact oneKey_answer (oneKey_clearTtl here backend) _
  | setIfAbsent value => exact oneKey_answer (oneKey_setIfAbsent here backend value) _
  | incr delta => exact oneKey_answer (oneKey_incr here backend _) _
  | kind => exact oneKey_answer (oneKey_kind here) _
  | listPush value => exact oneKey_answer (oneKey_listPush here backend value) _
  | listPop => exact oneKey_answer (oneKey_listPop here backend) _
  | listRange start stop => exact oneKey_answer (oneKey_listRange here backend _ _) _
  | listLength => exact oneKey_answer (oneKey_listLength here backend) _
  | hashGet field => exact oneKey_answer (oneKey_hashGet here backend field) _
  | hashSet field value => exact oneKey_answer (oneKey_hashSet here backend field value) _
  | hashDelete field => exact oneKey_answer (oneKey_hashDelete here backend field) _
  | hashKeys => exact oneKey_answer (oneKey_hashKeys here backend) _
  | hashIncr field delta => exact oneKey_answer (oneKey_hashIncr here backend field _) _
  | hashGetAll => exact oneKey_answer (oneKey_hashGetAll here backend) _
  | setAdd member => exact oneKey_answer (oneKey_setAdd here backend member) _
  | setRemove member => exact oneKey_answer (oneKey_setRemove here backend member) _
  | setContains member => exact oneKey_answer (oneKey_setContains here backend member) _
  | setMembers => exact oneKey_answer (oneKey_setMembers here backend) _

end Operations

section Cells
variable {κ : Type} [DecidableEq κ] (call : KeyCall) (k : κ) (s : Storage κ Bytes)

theorem oneKey_alone : OneKey k s (call.op k s) (call.op () (alone s.backend (s.lookup k))) :=
  oneKey_op (lookup_alone _ _).symm rfl call

theorem op_outcome :
    (call.op k s).1 = (call.outcome s.backend (s.lookup k)).mapError (StoreError.on k) :=
  (oneKey_alone call k s).answer

theorem lookup_op (k' : κ) : (call.op k s).2.lookup k' =
    if k' = k then call.left s.backend (s.lookup k) else s.lookup k' := by
  have one := oneKey_alone call k s
  split
  · rename_i same
    rw [same]
    exact one.here
  · rename_i other
    exact one.elsewhere k' other

theorem backend_op : (call.op k s).2.backend = s.backend := (oneKey_alone call k s).backend

end Cells

/-! Calls on a bucket -/

namespace BucketCall

/-- A call on the bucket behind a prefix. -/
def perform (reporting : Reporting) (p : String) (s : Backing) :
    BucketCall → Storage.Reply String Bytes Answer
  | on key call => inBucket p (fun k s => call.op k s) key s
  | listKeys userPrefix => (.ok (.names (WireMirage.listKeys reporting p userPrefix s)), s)
  | deleteWithPrefix userPrefix =>
    (.ok (.count (WireMirage.deleteWithPrefix reporting p userPrefix s).1),
      (WireMirage.deleteWithPrefix reporting p userPrefix s).2)

end BucketCall

/-- A call of a handler is a call on the bucket it holds. -/
def HandlerCall.bucketCall : HandlerCall → BucketCall
  | get key => .on key .get
  | set key value => .on key (.set value)
  | delete key => .on key .delete
  | incr key delta => .on key (.incr delta)
  | listKeys userPrefix => .listKeys userPrefix
  | listPush key value => .on key (.listPush value)
  | listPop key => .on key .listPop
  | listRange key start stop => .on key (.listRange start stop)
  | listLength key => .on key .listLength
  | hashGet key field => .on key (.hashGet field)
  | hashSet key field value => .on key (.hashSet field value)
  | hashDelete key field => .on key (.hashDelete field)
  | hashKeys key => .on key .hashKeys
  | setAdd key member => .on key (.setAdd member)
  | setRemove key member => .on key (.setRemove member)
  | setContains key member => .on key (.setContains member)

section Calls
variable {reporting : Reporting} (p : String) (s : Backing)

theorem answer_on (key : String) (call : KeyCall) :
    ((BucketCall.on key call).perform reporting p s).1 =
      (call.outcome s.backend (s.lookup (p ++ key))).mapError (StoreError.on key) := by
  show (call.op (p ++ key) s).1.mapError (restoreUserKey p) = _
  rw [op_outcome]
  cases call.outcome s.backend (s.lookup (p ++ key)) with
  | ok a => rfl
  | error e =>
    have own : strip (p ++ key) p = key := by
      rw [strip, stripKeyPrefix_append]
      rfl
    cases e <;> simp only [Except.mapError, StoreError.on, restoreUserKey, own]

theorem lookup_on (key : String) (call : KeyCall) (k : String) :
    ((BucketCall.on key call).perform reporting p s).2.lookup k =
      if k = p ++ key then call.left s.backend (s.lookup (p ++ key)) else s.lookup k :=
  lookup_op call (p ++ key) s k

theorem lookup_perform (call : BucketCall) {k : String} (outside : ∀ key, k ≠ p ++ key) :
    (call.perform reporting p s).2.lookup k = s.lookup k := by
  cases call with
  | on key call => rw [lookup_on, if_neg (outside key)]
  | listKeys userPrefix => rfl
  | deleteWithPrefix userPrefix =>
    show (deleteWithPrefix reporting p userPrefix s).2.lookup k = s.lookup k
    simp only [deleteWithPrefix, lookup_deleteAll]
    rw [if_neg]
    intro listed
    obtain ⟨key, _, same⟩ := List.mem_map.mp listed
    exact outside key same.symm

theorem backend_deleteAll (keys : List String) :
    (keys.foldl (fun s key => (inBucket p Storage.delete key s).2) s).backend = s.backend := by
  induction keys generalizing s with
  | nil => rfl
  | cons key keys ih => exact ih _

theorem backend_perform (call : BucketCall) :
    (call.perform reporting p s).2.backend = s.backend := by
  cases call with
  | on key call => exact backend_op call (p ++ key) s
  | listKeys userPrefix => rfl
  | deleteWithPrefix userPrefix => exact backend_deleteAll p s _

end Calls

/-! Two buckets that hold the same -/

/-- Answers that may differ in the order of the names they list. -/
inductive SameReply {E : Type} : Except E Answer → Except E Answer → Prop where
  | refl (r : Except E Answer) : SameReply r r
  | names {l l' : List String} (perm : l.Perm l') : SameReply (.ok (.names l)) (.ok (.names l'))

/-- Two in-memory buckets with the same keys and the same values under them. -/
structure SameBucket (p : String) (s : Backing) (q : String) (t : Backing) : Prop where
  memory : s.backend = .inMemory
  memory' : t.backend = .inMemory
  cells : ∀ key, s.lookup (p ++ key) = t.lookup (q ++ key)

section SameBucket
variable {reporting : Reporting} {p q : String} {s t : Backing} (first : IsBucket p)
  (second : IsBucket q) (same : SameBucket p s q t)
include first second same

theorem listKeys_perm (userPrefix : Option String) :
    (listKeys reporting p userPrefix s).Perm (listKeys reporting q userPrefix t) := by
  have given : ∀ p s, listKeys reporting p userPrefix s =
      listKeys reporting p (some (userPrefix.getD "")) s := fun _ _ => rfl
  have lists : ListsExactly reporting p (userPrefix.getD "") s :=
    listsExactly_of_readsLiterally (literal_bucket first) (.inl same.memory)
  have lists' : ListsExactly reporting q (userPrefix.getD "") t :=
    listsExactly_of_readsLiterally (literal_bucket second) (.inl same.memory')
  rw [given, given]
  apply (List.perm_ext_iff_of_nodup lists.1 lists'.1).mpr
  intro key
  rw [lists.2, lists'.2, same.cells]

theorem perform_same (call : BucketCall) :
    SameReply (call.perform reporting p s).1 (call.perform reporting q t).1 ∧
      SameBucket p (call.perform reporting p s).2 q (call.perform reporting q t).2 := by
  have backends : s.backend = t.backend := same.memory.trans same.memory'.symm
  have memory : (call.perform reporting p s).2.backend = .inMemory :=
    (backend_perform p s call).trans same.memory
  have memory' : (call.perform reporting q t).2.backend = .inMemory :=
    (backend_perform q t call).trans same.memory'
  cases call with
  | on key call =>
    constructor
    · rw [answer_on, answer_on, backends, same.cells]
      exact .refl _
    · refine ⟨memory, memory', ?_⟩
      intro other
      rw [lookup_on, lookup_on, backends, same.cells, same.cells]
      by_cases here : other = key
      · rw [here, if_pos rfl, if_pos rfl]
      · rw [if_neg (fun joined => here (append_left_cancel joined)),
          if_neg (fun joined => here (append_left_cancel joined))]
  | listKeys userPrefix => exact ⟨.names (listKeys_perm first second same userPrefix), same⟩
  | deleteWithPrefix userPrefix =>
    have perm : (listKeys reporting p (some userPrefix) s).Perm
        (listKeys reporting q (some userPrefix) t) := listKeys_perm first second same _
    constructor
    · have counts : (deleteWithPrefix reporting p userPrefix s).1 =
          (deleteWithPrefix reporting q userPrefix t).1 := perm.length_eq
      show SameReply (.ok (.count _)) (.ok (.count _))
      rw [counts]
      exact .refl _
    · refine ⟨memory, memory', ?_⟩
      intro key
      show (deleteWithPrefix reporting p userPrefix s).2.lookup (p ++ key) =
        (deleteWithPrefix reporting q userPrefix t).2.lookup (q ++ key)
      have member : ∀ (p : String) (keys : List String),
          p ++ key ∈ keys.map (p ++ ·) ↔ key ∈ keys := by
        intro p keys
        rw [List.mem_map]
        constructor
        · rintro ⟨other, inside, joined⟩
          rw [← append_left_cancel joined]
          exact inside
        · intro inside
          exact ⟨key, inside, rfl⟩
      simp only [deleteWithPrefix, lookup_deleteAll, member, perm.mem_iff, same.cells]

end SameBucket

end WireMirage
