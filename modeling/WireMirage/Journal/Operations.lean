import WireMirage.Registry.Operations

/-!
The journal: what each record of a request or of a callback writes, and how
records are looked up by number and listed.
-/
namespace WireMirage

inductive JournalError where
  | storage (e : StoreError Key)
  | notFound
  | malformed (msg : String)
  deriving DecidableEq, Repr

instance : FromStoreError Key JournalError := ⟨.storage⟩

abbrev Jnl (A : Type) := Prog Store JournalError A

def handledTtlSeconds : Nat := 3600
def unmatchedTtlSeconds : Nat := 3600
def callbackTtlSeconds : Nat := 3600

def defaultLimit : Nat := 100
def maxLimit : Nat := 100

structure ListCursor where
  before : Option Nat := none
  limit : Nat := defaultLimit
  deriving DecidableEq, Repr

/-! Where the records of one kind and scope are kept -/

/-- The keys of a log are its own: ids and numbers lead to different keys, all of bytes. -/
structure Log (A : Type) where
  recordKey : String → Key
  indexKey : Nat → Key
  indexValue : String
  encode : A → Val
  decode : Val → Option A
  number : A → Nat
  reads : ∀ record, decode (encode record) = some record
  recordBytes : ∀ id, (recordKey id).family = some .bytes
  indexBytes : ∀ n, (indexKey n).family = some .bytes
  recordKey_inj : ∀ id id', recordKey id = recordKey id' → id = id'
  indexKey_inj : ∀ n n', indexKey n = indexKey n' → n = n'
  apart : ∀ id n, recordKey id ≠ indexKey n

def Val.asHandled : Val → Option JournalRecord
  | .handled r => some r
  | _ => none

def Val.asCallback : Val → Option CallbackRecord
  | .callback r => some r
  | _ => none

def Val.asUnmatched : Val → Option UnmatchedRecord
  | .unmatched r => some r
  | _ => none

def handledLog (groupId : String) : Log JournalRecord where
  recordKey := .journal groupId
  indexKey := .journalByNumber groupId
  indexValue := "journal:by-number value"
  encode := .handled
  decode := Val.asHandled
  number := JournalRecord.number
  reads := fun _ => rfl
  recordBytes := fun _ => rfl
  indexBytes := fun _ => rfl
  recordKey_inj := by simp
  indexKey_inj := by simp
  apart := by simp

def callbackLog (groupId : String) : Log CallbackRecord where
  recordKey := .callback groupId
  indexKey := .callbackByNumber groupId
  indexValue := "callback:by-number value"
  encode := .callback
  decode := Val.asCallback
  number := CallbackRecord.number
  reads := fun _ => rfl
  recordBytes := fun _ => rfl
  indexBytes := fun _ => rfl
  recordKey_inj := by simp
  indexKey_inj := by simp
  apart := by simp

def unmatchedLog : Log UnmatchedRecord where
  recordKey := .unmatched
  indexKey := .unmatchedByNumber
  indexValue := "unmatched:by-number value"
  encode := .unmatched
  decode := Val.asUnmatched
  number := UnmatchedRecord.number
  reads := fun _ => rfl
  recordBytes := fun _ => rfl
  indexBytes := fun _ => rfl
  recordKey_inj := by simp
  indexKey_inj := by simp
  apart := by simp

/-! Recording -/

def recordHandled (entry : NewJournalEntry) (id : String) (now : Time) : Jnl JournalRecord := do
  let n ← Bucket.hashIncr (.groupCounters entry.groupId) "next_journal_number" 1
  let record : JournalRecord :=
    { toNewJournalEntry := entry, id := id, number := asU32 n, createdAt := now }
  Bucket.setWithTtl (.journal record.groupId record.id) (.handled record) handledTtlSeconds
  Bucket.setWithTtl (.journalByNumber record.groupId record.number) (.text record.id)
    handledTtlSeconds
  return record

def recordUnmatched (entry : NewUnmatchedEntry) (id : String) (now : Time) :
    Jnl UnmatchedRecord := do
  let n ← Bucket.incr .unmatchedCounter 1
  let record : UnmatchedRecord :=
    { toNewUnmatchedEntry := entry, id := id, number := asU64 n, createdAt := now }
  Bucket.setWithTtl (.unmatched record.id) (.unmatched record) unmatchedTtlSeconds
  Bucket.set (.unmatchedByNumber record.number) (.text record.id)
  return record

def recordCallback (entry : NewCallbackEntry) (id : String) (now : Time) :
    Jnl CallbackRecord := do
  let n ← Bucket.hashIncr (.groupCounters entry.groupId) "next_callback_number" 1
  let record : CallbackRecord :=
    { toNewCallbackEntry := entry, id := id, number := asU32 n, createdAt := now }
  Bucket.setWithTtl (.callback record.groupId record.id) (.callback record) callbackTtlSeconds
  Bucket.set (.callbackByNumber record.groupId record.number) (.text record.id)
  return record

/-! Looking up and listing -/

namespace Log
variable {A : Type}

def readById (log : Log A) (id : String) : Jnl A := do
  match ← Bucket.get (log.recordKey id) with
  | none => Prog.fail .notFound
  | some v =>
    match log.decode v with
    | none => Prog.fail (.malformed "decode")
    | some record => return record

def getByNumber (log : Log A) (number : Nat) : Jnl A := do
  match ← Bucket.get (log.indexKey number) with
  | none => Prog.fail .notFound
  | some v =>
    match v.utf8 with
    | none => Prog.fail (.malformed log.indexValue)
    | some id => log.readById id

/-- The walk of a listing: gaps and records that do not read are passed over. -/
def collectDown (log : Log A) (visible : A → Bool) : Nat → Nat → Jnl (List A)
  | 0, _ => return []
  | _, 0 => return []
  | limit + 1, n + 1 => do
    match ← Prog.attempt (log.getByNumber (n + 1)) with
    | .ok record =>
      if visible record then do
        let rest ← collectDown log visible limit n
        return record :: rest
      else collectDown log visible (limit + 1) n
    | .error _ => collectDown log visible (limit + 1) n

/-- The number a listing starts from; an unreadable counter reads as zero. -/
def startingFrom (counter : Option Val) (width : Nat) (cursor : ListCursor) : Nat :=
  match cursor.before with
  | some b => b - 1
  | none => (counter.bind (Val.parseBelow width)).getD 0

def clampLimit (limit : Nat) : Nat := max 1 (min limit maxLimit)

end Log

def getHandled (groupId : String) (number : Nat) : Jnl JournalRecord :=
  (handledLog groupId).getByNumber number

def getCallback (groupId : String) (number : Nat) : Jnl CallbackRecord :=
  (callbackLog groupId).getByNumber number

def getUnmatched (number : Nat) : Jnl UnmatchedRecord := unmatchedLog.getByNumber number

def listForGroup (groupId : String) (cursor : ListCursor) : Jnl (List JournalRecord) := do
  let highest ← Bucket.hashGet (.groupCounters groupId) "next_journal_number"
  (handledLog groupId).collectDown (fun _ => true) (Log.clampLimit cursor.limit)
    (Log.startingFrom highest u32Size cursor)

def listCallbacksForGroup (groupId : String) (cursor : ListCursor) :
    Jnl (List CallbackRecord) := do
  let highest ← Bucket.hashGet (.groupCounters groupId) "next_callback_number"
  (callbackLog groupId).collectDown (fun _ => true) (Log.clampLimit cursor.limit)
    (Log.startingFrom highest u32Size cursor)

/-- The groups a listing of unmatched requests is confined to; none for all of them. -/
def visibleTo (visibleGroups : Option (List String)) (record : UnmatchedRecord) : Bool :=
  visibleGroups.all (fun groups => groups.contains record.groupId)

def listUnmatched (cursor : ListCursor) (visibleGroups : Option (List String)) :
    Jnl (List UnmatchedRecord) := do
  let highest ← Bucket.get .unmatchedCounter
  unmatchedLog.collectDown (visibleTo visibleGroups) (Log.clampLimit cursor.limit)
    (Log.startingFrom highest u64Size cursor)

end WireMirage
