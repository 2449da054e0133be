import Mathlib.Data.List.AList
import WireMirage.Library.Prog

/-!
The backing store behind a bucket, for keys `κ` and byte strings `β`. One
definition per operation covers both backends, as each method of `Bucket` does:
the in-memory map keeps a collection that has become empty and knows no expiry,
Valkey drops the key of an empty collection and expires keys.
-/
namespace WireMirage

inductive Backend where
  | inMemory
  | valkey
  deriving DecidableEq, Repr

inductive Kind where
  | bytes
  | list
  | hash
  | set
  deriving DecidableEq, Repr

def Kind.text : Kind → String
  | .bytes => "bytes"
  | .list => "list"
  | .hash => "hash"
  | .set => "set"

abbrev Fields (β : Type) := AList (fun _ : String => β)

/-- The members of a stored set, in the order an enumeration reports them. -/
structure Members where
  toList : List String
  nodup : toList.Nodup

namespace Members

def none : Members := ⟨[], List.nodup_nil⟩

def insert (m : Members) (x : String) : Members := ⟨m.toList.insert x, m.nodup.insert⟩

def erase (m : Members) (x : String) : Members := ⟨m.toList.erase x, m.nodup.erase x⟩

end Members

inductive MemValue (β : Type) where
  | bytes (b : β)
  | list (q : List β)
  | hash (h : Fields β)
  | set (members : Members)

def MemValue.kind {β : Type} : MemValue β → Kind
  | .bytes _ => .bytes
  | .list _ => .list
  | .hash _ => .hash
  | .set _ => .set

def MemValue.isEmpty {β : Type} : MemValue β → Bool
  | .bytes _ => false
  | .list q => q.isEmpty
  | .hash h => h.entries.isEmpty
  | .set members => members.toList.isEmpty

inductive StoreError (κ : Type) where
  | wrongType (key : κ) (actual expected : String)
  | notInteger (key : κ) (field : Option String)
  | incrOverflow (key : κ) (field : Option String)
  | backend (msg : String)
  deriving DecidableEq, Repr

/-- How a byte string reads as a signed integer: `parse` is the host's own
    parser, `canonical` the stricter one of the Valkey server. -/
class Decimal (β : Type) where
  parse : β → Option Int
  canonical : β → Option Int
  ofInt : Int → β

structure Entry (β : Type) where
  value : MemValue β
  expires : Option Nat

structure Storage (κ β : Type) where
  backend : Backend
  entries : AList (fun _ : κ => Entry β)
  clock : Nat

def i64Min : Int := -9223372036854775808
def i64Max : Int := 9223372036854775807

namespace Storage
variable {κ β : Type} [DecidableEq κ]

def empty (backend : Backend) : Storage κ β := ⟨backend, ∅, 0⟩

def entry (s : Storage κ β) (k : κ) : Option (Entry β) := s.entries.lookup k

def lookup (s : Storage κ β) (k : κ) : Option (MemValue β) := (s.entry k).map Entry.value

/-- The deadline armed on a key, when there is one. -/
def armed (s : Storage κ β) (k : κ) : Option Nat := (s.entry k).bind Entry.expires

/-- Change a value in place. A deadline armed on the key stays armed. -/
def write (s : Storage κ β) (k : κ) (v : MemValue β) : Storage κ β :=
  { s with entries := s.entries.insert k ⟨v, s.armed k⟩ }

/-- Store a value afresh: whatever deadline the key had is gone. -/
def replace (s : Storage κ β) (k : κ) (v : MemValue β) (expires : Option Nat) : Storage κ β :=
  { s with entries := s.entries.insert k ⟨v, expires⟩ }

def erase (s : Storage κ β) (k : κ) : Storage κ β := { s with entries := s.entries.erase k }

/-- Write back a collection that an operation has taken elements from. -/
def writeBack (s : Storage κ β) (k : κ) (v : MemValue β) : Storage κ β :=
  if s.backend = .valkey ∧ v.isEmpty then s.erase k else s.write k v

abbrev Reply (κ β A : Type) := Except (StoreError κ) A × Storage κ β

def wrongType (s : Storage κ β) (k : κ) (actual : Kind) (expected onValkey : String) :
    StoreError κ :=
  match s.backend with
  | .inMemory => .wrongType k actual.text expected
  | .valkey => .wrongType k "unknown" onValkey

/-! Basic key-value -/

def get (k : κ) (s : Storage κ β) : Reply κ β (Option β) :=
  match s.lookup k with
  | none => (.ok none, s)
  | some (.bytes b) => (.ok (some b), s)
  | some other => (.error (s.wrongType k other.kind "bytes" "unknown"), s)

def set (k : κ) (value : β) (s : Storage κ β) : Reply κ β Unit :=
  (.ok (), s.replace k (.bytes value) none)

def delete (k : κ) (s : Storage κ β) : Reply κ β Unit := (.ok (), s.erase k)

def setWithTtl (k : κ) (value : β) (ttlSeconds : Nat) (s : Storage κ β) : Reply κ β Unit :=
  match s.backend with
  | .inMemory => s.set k value
  | .valkey => (.ok (), s.replace k (.bytes value) (some (s.clock + max ttlSeconds 1)))

/-- `EXPIRE`: nothing on a missing key, and a zero time deletes the key at once. -/
def setTtl (k : κ) (ttlSeconds : Nat) (s : Storage κ β) : Reply κ β Unit :=
  match s.backend with
  | .inMemory => (.ok (), s)
  | .valkey =>
    match s.lookup k with
    | none => (.ok (), s)
    | some v =>
      if ttlSeconds = 0 then (.ok (), s.erase k)
      else (.ok (), s.replace k v (some (s.clock + ttlSeconds)))

def clearTtl (k : κ) (s : Storage κ β) : Reply κ β Unit :=
  match s.backend with
  | .inMemory => (.ok (), s)
  | .valkey =>
    match s.lookup k with
    | none => (.ok (), s)
    | some v => (.ok (), s.replace k v none)

def setIfAbsent (k : κ) (value : β) (s : Storage κ β) : Reply κ β Bool :=
  match s.backend with
  | .inMemory =>
    match s.get k with
    | (.error e, s) => (.error e, s)
    | (.ok (some _), s) => (.ok false, s)
    | (.ok none, s) => (.ok true, s.replace k (.bytes value) none)
  | .valkey =>
    if (s.lookup k).isSome then (.ok false, s)
    else (.ok true, s.replace k (.bytes value) none)

/-- The reading of a stored counter that the backend applies before adding. -/
def readInt [Decimal β] (s : Storage κ β) (b : β) : Option Int :=
  match s.backend with
  | .inMemory => Decimal.parse b
  | .valkey => Decimal.canonical b

def addInt [Decimal β] (s : Storage κ β) (k : κ) (field : Option String) (current : Option β)
    (delta : Int) : Except (StoreError κ) Int :=
  match current with
  | none => .ok delta
  | some b =>
    match s.readInt b with
    | none => .error (.notInteger k field)
    | some cur =>
      if i64Min ≤ cur + delta ∧ cur + delta ≤ i64Max then .ok (cur + delta)
      else .error (.incrOverflow k field)

/-- A sum is stored and answered, a failed addition leaves the store alone. -/
def storeSum (s : Storage κ β) (sum : Except (StoreError κ) Int) (update : Int → Storage κ β) :
    Reply κ β Int :=
  match sum with
  | .error e => (.error e, s)
  | .ok n => (.ok n, update n)

def incr [Decimal β] (k : κ) (delta : Int) (s : Storage κ β) : Reply κ β Int :=
  match s.lookup k with
  | none => (.ok delta, s.write k (.bytes (Decimal.ofInt delta)))
  | some (.bytes b) =>
    s.storeSum (s.addInt k none (some b) delta) (fun n => s.write k (.bytes (Decimal.ofInt n)))
  | some other => (.error (s.wrongType k other.kind "bytes" "bytes"), s)

def kind (k : κ) (s : Storage κ β) : Reply κ β (Option Kind) :=
  (.ok ((s.lookup k).map MemValue.kind), s)

/-- The keys that a scan for a pattern reports. -/
def scan (covers : κ → Bool) (s : Storage κ β) : Reply κ β (List κ) :=
  (.ok (s.entries.keys.filter covers), s)

/-! List operations -/

def listPush (k : κ) (value : β) (s : Storage κ β) : Reply κ β Unit :=
  match s.lookup k with
  | none => (.ok (), s.write k (.list [value]))
  | some (.list q) => (.ok (), s.write k (.list (q ++ [value])))
  | some other => (.error (s.wrongType k other.kind "list" "unknown"), s)

def listPop (k : κ) (s : Storage κ β) : Reply κ β (Option β) :=
  match s.lookup k with
  | none => (.ok none, s)
  | some (.list q) => (.ok q.head?, s.writeBack k (.list q.tail))
  | some other => (.error (s.wrongType k other.kind "list" "unknown"), s)

def normalizeIndex (len i : Int) : Int := if i < 0 then max (len + i) 0 else min i (len - 1)

def memoryRange (q : List β) (start stop : Int) : List β :=
  let len : Int := q.length
  if len = 0 then []
  else
    let s := normalizeIndex len start
    let e := normalizeIndex len stop
    if s > e then [] else (q.drop s.toNat).take (e - s + 1).toNat

/-- `LRANGE`. -/
def lrange (q : List β) (start stop : Int) : List β :=
  let len : Int := q.length
  let first := if start < 0 then max (start + len) 0 else start
  let last := if stop < 0 then stop + len else stop
  if first > last ∨ first ≥ len then []
  else (q.drop first.toNat).take (min last (len - 1) - first + 1).toNat

def listRange (k : κ) (start stop : Int) (s : Storage κ β) : Reply κ β (List β) :=
  match s.lookup k with
  | none => (.ok [], s)
  | some (.list q) =>
    match s.backend with
    | .inMemory => (.ok (memoryRange q start stop), s)
    | .valkey => (.ok (lrange q start stop), s)
  | some other => (.error (s.wrongType k other.kind "list" "unknown"), s)

def listLength (k : κ) (s : Storage κ β) : Reply κ β Nat :=
  match s.lookup k with
  | none => (.ok 0, s)
  | some (.list q) => (.ok q.length, s)
  | some other => (.error (s.wrongType k other.kind "list" "unknown"), s)

/-! Hash operations -/

def hashGet (k : κ) (field : String) (s : Storage κ β) : Reply κ β (Option β) :=
  match s.lookup k with
  | none => (.ok none, s)
  | some (.hash h) => (.ok (h.lookup field), s)
  | some other => (.error (s.wrongType k other.kind "hash" "unknown"), s)

def hashSet (k : κ) (field : String) (value : β) (s : Storage κ β) : Reply κ β Unit :=
  match s.lookup k with
  | none => (.ok (), s.write k (.hash (AList.insert field value ∅)))
  | some (.hash h) => (.ok (), s.write k (.hash (h.insert field value)))
  | some other => (.error (s.wrongType k other.kind "hash" "unknown"), s)

def hashDelete (k : κ) (field : String) (s : Storage κ β) : Reply κ β Unit :=
  match s.lookup k with
  | none => (.ok (), s)
  | some (.hash h) => (.ok (), s.writeBack k (.hash (h.erase field)))
  | some other => (.error (s.wrongType k other.kind "hash" "unknown"), s)

def hashKeys (k : κ) (s : Storage κ β) : Reply κ β (List String) :=
  match s.lookup k with
  | none => (.ok [], s)
  | some (.hash h) => (.ok h.keys, s)
  | some other => (.error (s.wrongType k other.kind "hash" "unknown"), s)

def hashIncr [Decimal β] (k : κ) (field : String) (delta : Int) (s : Storage κ β) :
    Reply κ β Int :=
  match s.lookup k with
  | none => (.ok delta, s.write k (.hash (AList.insert field (Decimal.ofInt delta) ∅)))
  | some (.hash h) =>
    s.storeSum (s.addInt k (some field) (h.lookup field) delta)
      (fun n => s.write k (.hash (h.insert field (Decimal.ofInt n))))
  | some other => (.error (s.wrongType k other.kind "hash" "hash"), s)

def hashGetAll (k : κ) (s : Storage κ β) : Reply κ β (Fields β) :=
  match s.lookup k with
  | none => (.ok ∅, s)
  | some (.hash h) => (.ok h, s)
  | some other => (.error (s.wrongType k other.kind "hash" "unknown"), s)

/-! Set operations -/

def setAdd (k : κ) (member : String) (s : Storage κ β) : Reply κ β Unit :=
  match s.lookup k with
  | none => (.ok (), s.write k (.set (Members.none.insert member)))
  | some (.set ms) => (.ok (), s.write k (.set (ms.insert member)))
  | some other => (.error (s.wrongType k other.kind "set" "unknown"), s)

def setRemove (k : κ) (member : String) (s : Storage κ β) : Reply κ β Unit :=
  match s.lookup k with
  | none => (.ok (), s)
  | some (.set ms) => (.ok (), s.writeBack k (.set (ms.erase member)))
  | some other => (.error (s.wrongType k other.kind "set" "unknown"), s)

def setContains (k : κ) (member : String) (s : Storage κ β) : Reply κ β Bool :=
  match s.lookup k with
  | none => (.ok false, s)
  | some (.set ms) => (.ok (ms.toList.contains member), s)
  | some other => (.error (s.wrongType k other.kind "set" "unknown"), s)

def setMembers (k : κ) (s : Storage κ β) : Reply κ β (List String) :=
  match s.lookup k with
  | none => (.ok [], s)
  | some (.set ms) => (.ok ms.toList, s)
  | some other => (.error (s.wrongType k other.kind "set" "unknown"), s)

/-! Expiry -/

def eraseAll (ks : List κ) (s : Storage κ β) : Storage κ β := ks.foldl erase s

/-- Time passes, and every key whose deadline is reached disappears. -/
def advance (seconds : Nat) (s : Storage κ β) : Storage κ β :=
  let later := s.clock + seconds
  let due := s.entries.keys.filter (fun k => (s.armed k).any (· ≤ later))
  { eraseAll due s with clock := later }

end Storage
end WireMirage
