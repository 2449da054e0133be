import WireMirage.Pattern
import WireMirage.Store.Views

/-!
The records the registry and the journal keep, the keys they keep them under and
the encodings of their fields. A stored value is kept as what its encoding says;
a decoder accepts the output of its own encoder and nothing else.
-/
namespace WireMirage

abbrev Bytes := List UInt8
abbrev Time := Nat

structure Route where
  id : String
  groupId : String
  groupName : String
  number : Nat
  methods : List String
  path : String
  language : String
  bindingsVersion : String
  compiledWasm : Bytes
  source : Option String
  createdAt : Time
  ownerId : String
  hitsTotal : Nat
  lastHitAt : Option Time
  deriving DecidableEq, Repr

structure Group where
  id : String
  name : String
  implicit : Bool
  createdAt : Time
  ownerId : String
  ttlSeconds : Nat
  slidingTtl : Bool
  calloutEnabled : Bool
  lastActivityAt : Option Time
  deriving DecidableEq, Repr

def defaultGroupTtlSeconds : Nat := 24 * 60 * 60
def maxGroupTtlSeconds : Nat := 30 * 24 * 60 * 60
def defaultGroupSlidingTtl : Bool := true

structure NewGroup where
  name : String
  ownerId : String
  ttlSeconds : Option Nat
  slidingTtl : Option Bool
  deriving DecidableEq, Repr

structure NewRoute where
  group : Option String
  methods : List String
  path : String
  language : String
  bindingsVersion : String
  compiledWasm : Bytes
  source : Option String
  ownerId : String
  deriving DecidableEq, Repr

structure PatchRoute where
  methods : Option (List String) := none
  path : Option String := none
  language : Option String := none
  bindingsVersion : Option String := none
  compiledWasm : Option Bytes := none
  source : Option (Option String) := none
  deriving DecidableEq, Repr

/-! The journal's records -/

structure RequestEnvelope where
  method : String
  path : String
  headers : List (String × String)
  body : Bytes
  bodyTruncated : Bool
  originalBodySize : Nat
  deriving DecidableEq, Repr

structure ResponseEnvelope where
  status : Nat
  headers : List (String × String)
  body : Bytes
  bodyTruncated : Bool
  originalBodySize : Nat
  deriving DecidableEq, Repr

structure HandlerLogEntry where
  level : String
  message : String
  timestamp : Time
  deriving DecidableEq, Repr

structure ResourceUsage where
  fuelConsumed : Nat
  memoryPeakBytes : Nat
  wallClockMs : Nat
  deriving DecidableEq, Repr

structure NewJournalEntry where
  traceId : Option String
  groupId : String
  groupName : String
  routeId : String
  routeNumber : Nat
  matchedPattern : String
  request : RequestEnvelope
  response : ResponseEnvelope
  pathParams : List (String × String)
  query : List (String × String)
  handlerLogs : List HandlerLogEntry
  durationMs : Nat
  resources : ResourceUsage
  error : Option String
  droppedResponseHeaders : List String
  deriving DecidableEq, Repr

structure JournalRecord extends NewJournalEntry where
  id : String
  number : Nat
  createdAt : Time
  deriving DecidableEq, Repr

inductive NearMissReason where
  | methodMismatch (expectedMethods : List String) (got : String)
  | prefixMatch (segmentIndex : Nat) (expected got : String)
  deriving DecidableEq, Repr

structure UnmatchedNearMiss where
  route : String
  routePath : String
  routeMethods : List String
  reason : NearMissReason
  deriving DecidableEq, Repr

structure NewUnmatchedEntry where
  traceId : Option String
  groupId : String
  groupName : String
  request : RequestEnvelope
  nearMisses : List UnmatchedNearMiss
  deriving DecidableEq, Repr

structure UnmatchedRecord extends NewUnmatchedEntry where
  id : String
  number : Nat
  createdAt : Time
  deriving DecidableEq, Repr

inductive CallbackOutcome where
  | delivered (status : Nat)
  | egressDenied (reason : String) (resolved : List String)
  | failed (error : String)
  deriving DecidableEq, Repr

structure NewCallbackEntry where
  traceId : Option String
  groupId : String
  groupName : String
  routeId : String
  routeNumber : Nat
  url : String
  method : String
  requestHeaders : List (String × String)
  requestBody : Bytes
  requestBodyTruncated : Bool
  requestBodySize : Nat
  delayMs : Nat
  outcome : CallbackOutcome
  durationMs : Nat
  deriving DecidableEq, Repr

structure CallbackRecord extends NewCallbackEntry where
  id : String
  number : Nat
  createdAt : Time
  deriving DecidableEq, Repr

/-! Stored values -/

inductive Val where
  | text (s : String)
  | int (n : Int)
  | time (t : Time)
  | methods (ms : List String)
  | blob (b : Bytes)
  | handled (r : JournalRecord)
  | unmatched (r : UnmatchedRecord)
  | callback (r : CallbackRecord)
  deriving DecidableEq

instance : Decimal Val where
  parse
    | .int n => some n
    | _ => none
  canonical
    | .int n => some n
    | _ => none
  ofInt := .int

def Val.flag (b : Bool) : Val := if b then .text "1" else .text "0"

def Val.utf8 : Val → Option String
  | .text s => some s
  | _ => none

/-- Reading a decimal number below a bound, as `parse` at an unsigned type does. -/
def Val.parseBelow (bound : Nat) : Val → Option Nat
  | .int n => if 0 ≤ n ∧ n < bound then some n.toNat else none
  | _ => none

def u32Size : Nat := 4294967296
def u64Size : Nat := 18446744073709551616

/-- The cast of a signed counter to `u32`. -/
def asU32 (n : Int) : Nat := (n % u32Size).toNat

/-- The cast of a signed counter to `u64`. -/
def asU64 (n : Int) : Nat := (n % u64Size).toNat

/-! Keys -/

inductive Key where
  | group (id : String)
  | groupByName (name : String)
  | groupOwner (owner : String)
  | groupAll
  | groupCounters (id : String)
  | route (id : String)
  | routeByNumber (groupId : String) (number : Nat)
  | routeInGroup (groupId : String)
  | routeAll
  | routeByOwner (owner : String)
  | kv (groupId routeId key : String)
  | gkv (groupId key : String)
  | journal (groupId id : String)
  | journalByNumber (groupId : String) (number : Nat)
  | callback (groupId id : String)
  | callbackByNumber (groupId : String) (number : Nat)
  | unmatched (id : String)
  | unmatchedByNumber (number : Nat)
  | unmatchedCounter
  | sweepLease
  deriving DecidableEq, Repr

@[simp] def Key.family : Key → Option Kind
  | .group _ => some .hash
  | .groupByName _ => some .bytes
  | .groupOwner _ => some .set
  | .groupAll => some .set
  | .groupCounters _ => some .hash
  | .route _ => some .hash
  | .routeByNumber _ _ => some .bytes
  | .routeInGroup _ => some .set
  | .routeAll => some .set
  | .routeByOwner _ => some .set
  | .kv _ _ _ => none
  | .gkv _ _ => none
  | .journal _ _ => some .bytes
  | .journalByNumber _ _ => some .bytes
  | .callback _ _ => some .bytes
  | .callbackByNumber _ _ => some .bytes
  | .unmatched _ => some .bytes
  | .unmatchedByNumber _ => some .bytes
  | .unmatchedCounter => some .bytes
  | .sweepLease => some .bytes

instance : KeyKinds Key where
  kindOf := Key.family

@[simp] theorem kind_of_key (k : Key) : KeyKinds.kindOf k = k.family := by
  cases k <;> rfl

/-- The prefixes a deletion by prefix is called with. -/
inductive KeyPrefix where
  | kvRoute (groupId routeId : String)
  | kvGroup (groupId : String)
  | gkv (groupId : String)
  | journal (groupId : String)
  | journalByNumber (groupId : String)
  deriving DecidableEq, Repr

def KeyPrefix.covers : KeyPrefix → Key → Bool
  | .kvRoute g r, .kv g' r' _ => g = g' ∧ r = r'
  | .kvGroup g, .kv g' _ _ => g = g'
  | .gkv g, .gkv g' _ => g = g'
  | .journal g, .journal g' _ => g = g'
  | .journalByNumber g, .journalByNumber g' _ => g = g'
  | _, _ => false

abbrev Store := Storage Key Val

/-! Errors -/

inductive RegistryError where
  | storage (e : StoreError Key)
  | notFound
  | conflict (msg : String)
  | malformed (msg : String)
  | invalidPath (e : PatternError)
  | invalidMethod (method : String)
  | invalidName (name : String)
  | invalidTtl (msg : String)
  /-- The panic of an overflowing counter, which is no error of the source. -/
  | panicked
  deriving DecidableEq, Repr

abbrev Reg (A : Type) := Prog Store RegistryError A

/-! Decoding -/

theorem ok_bind_iff {E A B : Type} {x : Except E A} {f : A → Except E B} {b : B} :
    (x >>= f) = .ok b ↔ ∃ a, x = .ok a ∧ f a = .ok b := by
  cases x with
  | error e => simp [bind, Except.bind]
  | ok a => simp [bind, Except.bind]

def utf8 (fields : Fields Val) (name : String) : Except RegistryError String :=
  match fields.lookup name with
  | none => .error (.malformed ("field " ++ name ++ " missing"))
  | some v =>
    match v.utf8 with
    | none => .error (.malformed ("field " ++ name ++ " not utf-8"))
    | some s => .ok s

def utf8Opt (fields : Fields Val) (name : String) : Option String :=
  (fields.lookup name).bind Val.utf8

def parseTs : Val → Except RegistryError Time
  | .time t => .ok t
  | _ => .error (.malformed "created_at")

def requiredTs (fields : Fields Val) (name : String) : Except RegistryError Time :=
  match fields.lookup name with
  | none => .error (.malformed ("field " ++ name ++ " missing"))
  | some v => parseTs v

def optionalTs (fields : Fields Val) (name : String) : Except RegistryError (Option Time) :=
  match fields.lookup name with
  | none => .ok none
  | some v => (parseTs v).map some

/-- A required number, read as text and parsed at the width of its type. -/
def requiredNumber (fields : Fields Val) (name : String) (bound : Nat) :
    Except RegistryError Nat :=
  match fields.lookup name with
  | none => .error (.malformed ("field " ++ name ++ " missing"))
  | some v =>
    match v.parseBelow bound with
    | none => .error (.malformed name)
    | some n => .ok n

def decodeMethods (fields : Fields Val) : Except RegistryError (List String) :=
  match fields.lookup "methods" with
  | none => .error (.malformed "methods missing")
  | some (.methods ms) => .ok ms
  | some _ => .error (.malformed "methods decode")

def decodeWasm (fields : Fields Val) : Except RegistryError Bytes :=
  match fields.lookup "compiled_wasm" with
  | none => .error (.malformed "compiled_wasm missing")
  | some (.blob b) => .ok b
  | some _ => .error (.malformed "compiled_wasm")

def decodeHits (fields : Fields Val) : Except RegistryError Nat :=
  match fields.lookup "hits_total" with
  | none => .ok 0
  | some v =>
    match v.parseBelow u64Size with
    | none => .error (.malformed "hits_total")
    | some n => .ok n

def decodeGroup (fields : Fields Val) : Except RegistryError Group := do
  let id ← utf8 fields "id"
  let name ← utf8 fields "name"
  let implicit ← utf8 fields "implicit"
  let createdAt ← requiredTs fields "created_at"
  let ownerId ← utf8 fields "owner_id"
  let ttlSeconds ← requiredNumber fields "ttl_seconds" u64Size
  let slidingTtl ← utf8 fields "sliding_ttl"
  let lastActivityAt ← optionalTs fields "last_activity_at"
  return {
    id, name, implicit := implicit = "1", createdAt, ownerId, ttlSeconds
    slidingTtl := slidingTtl = "1"
    calloutEnabled := utf8Opt fields "callout_enabled" = some "1"
    lastActivityAt }

def decodeRoute (fields : Fields Val) : Except RegistryError Route := do
  let id ← utf8 fields "id"
  let groupId ← utf8 fields "group_id"
  let groupName ← utf8 fields "group_name"
  let number ← requiredNumber fields "number" u32Size
  let methods ← decodeMethods fields
  let path ← utf8 fields "path"
  let language ← utf8 fields "language"
  let bindingsVersion ← utf8 fields "bindings_version"
  let compiledWasm ← decodeWasm fields
  let createdAt ← requiredTs fields "created_at"
  let ownerId ← utf8 fields "owner_id"
  let hitsTotal ← decodeHits fields
  let lastHitAt ← optionalTs fields "last_hit_at"
  return {
    id, groupId, groupName, number, methods, path, language, bindingsVersion, compiledWasm
    source := utf8Opt fields "source"
    createdAt, ownerId, hitsTotal, lastHitAt }

end WireMirage
