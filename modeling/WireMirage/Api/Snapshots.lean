import WireMirage.Auth.Records
import WireMirage.Registry.Operations
import WireMirage.Wire

/-!
The state endpoints of routes and groups. A snapshot of a namespace is imported again
exactly where every value, and the snapshot as a whole, is within the limits of the
import; a handler is held to neither.
-/
namespace WireMirage
open Prog

structure RouteStateEntry where
  key : String
  kind : String
  value : Option Bytes
  length : Option Nat

inductive StateError where
  | registry (e : RegistryError)
  | store (e : StoreError String)
  | notFound
  | forbidden (msg : String)
  | validation (msg : String)
  /-- The body is over the limit of the router. -/
  | tooLarge
  /-- The body is not what the endpoint reads. -/
  | rejected

/-! What storage holds -/

def ulidFields (fields : Fields Val) : Bool :=
  ["id", "group_id"].all (fun name => (utf8Opt fields name).all isUlid)

/-- The ids in records are ULIDs. -/
def holdsUlids (s : Store) : Bool :=
  s.entries.entries.all (fun e =>
    match e.2.value with
    | .hash fields => ulidFields fields
    | _ => true)

/-- The records of the registry, and the namespaces of handlers beside them. -/
structure StateHost where
  records : Store
  state : Backing
  ulids : holdsUlids records = true

/-! The registry -/

def stateEntry (p : String) (s : Backing) (key : String) :
    Except (StoreError String) RouteStateEntry := do
  let kind ← (inBucket p Storage.kind key s).1
  match kind.getD .bytes with
  | .bytes =>
    let value ← (inBucket p Storage.get key s).1
    return ⟨key, "bytes", value, none⟩
  | .list =>
    let length ← (inBucket p Storage.listLength key s).1
    return ⟨key, "list", none, some length⟩
  | .hash =>
    let keys ← (inBucket p Storage.hashKeys key s).1
    return ⟨key, "hash", none, some keys.length⟩
  | .set =>
    let members ← (inBucket p Storage.setMembers key s).1
    return ⟨key, "set", none, some members.length⟩

def listState (reporting : Reporting) (p : String) (s : Backing) :
    Except (StoreError String) (List RouteStateEntry) := do
  let entries ← (listKeys reporting p none s).mapM (stateEntry p s)
  return entries.mergeSort (fun a b => a.key ≤ b.key)

def setState (p : String) (entries : Fields Bytes) (s : Backing) : Backing :=
  entries.pairs.foldl (fun s e => (inBucket p (Storage.set · e.2) e.1 s).2) s

namespace StateHost
section Registry
variable [UlidText] (h : StateHost)

def getRouteBySlug (groupRef : String) (number : Nat) : Except StateError Route :=
  (run (WireMirage.getRouteBySlug groupRef number) h.records).1.mapError .registry

def listRouteState (reporting : Reporting) (groupRef : String) (number : Nat) :
    Except StateError (List RouteStateEntry) := do
  let route ← h.getRouteBySlug groupRef number
  (listState reporting (routeBucket route.groupId route.id) h.state).mapError .store

def setRouteState (groupRef : String) (number : Nat) (entries : Fields Bytes) :
    Except StateError StateHost := do
  let route ← h.getRouteBySlug groupRef number
  return { h with state := setState (routeBucket route.groupId route.id) entries h.state }

def clearRouteState (reporting : Reporting) (groupRef : String) (number : Nat) :
    Except StateError StateHost := do
  let route ← h.getRouteBySlug groupRef number
  return { h with
    state := (deleteWithPrefix reporting adminBucket
      (routeBucket route.groupId route.id) h.state).2 }

def listGroupState (reporting : Reporting) (groupId : String) :
    Except StateError (List RouteStateEntry) :=
  (listState reporting (groupBucket groupId) h.state).mapError .store

def setGroupState (groupId : String) (entries : Fields Bytes) : StateHost :=
  { h with state := setState (groupBucket groupId) entries h.state }

def clearGroupState (reporting : Reporting) (groupId : String) : StateHost :=
  let routes := (deleteWithPrefix reporting adminBucket ("kv:" ++ groupId ++ ":") h.state).2
  { h with state := (deleteWithPrefix reporting adminBucket (groupBucket groupId) routes).2 }

end Registry
end StateHost

/-! Bodies -/

def maxApiBodyBytes : Nat := 16 * 1024 * 1024

/-- A request body, by its size and the value it is the text of. -/
structure StateBody where
  size : Nat
  value : Json

def entriesOf : Json → Option (Fields WireBytes)
  | .obj members =>
    (members.mapM (fun m => (m.1, ·) <$> WireBytes.ofJson m.2)).map Fields.ofPairs
  | _ => none

/-- A struct is read from an object, or from an array of its fields in order. -/
def setStateBody : Json → Option (Fields WireBytes)
  | .obj members => (Json.field "entries" members).bind entriesOf
  | .arr [entries] => entriesOf entries
  | _ => none

def StateBody.entries (body : StateBody) : Except StateError (Fields WireBytes) :=
  if body.size > maxApiBodyBytes then .error .tooLarge
  else
    match setStateBody body.value with
    | none => .error .rejected
    | some entries => .ok entries

inductive StateResponse where
  | listing (entries : List RouteStateEntry)
  | snapshot (entries : Fields WireBytes)

def snapshotEntry (e : RouteStateEntry) : Option (String × WireBytes) :=
  e.value.map (fun v => (e.key, .fromBytes v))

def renderState (entries : List RouteStateEntry) (format : Option String) : StateResponse :=
  if format = some "snapshot" then
    .snapshot (Fields.ofPairs ((entries.filter (·.kind = "bytes")).filterMap snapshotEntry))
  else .listing entries

def snapshotJson (entries : Fields WireBytes) : Json :=
  .obj [("entries", .obj (entries.pairs.map (fun e => (e.1, e.2.toJson))))]

/-- The body that imports a snapshot: the text of the response to it. -/
def snapshotBody (entries : Fields WireBytes) : StateBody :=
  ⟨(snapshotJson entries).size, snapshotJson entries⟩

/-! Endpoints -/

namespace StateApi

def decodeStateEntries [Messages] (entries : Fields WireBytes) :
    Except StateError (Fields Bytes) :=
  (decodeEntries entries).mapError .validation

section Endpoints
variable [UlidText] [Messages] (h : StateHost) (auth : AuthContext)

def ensureGroupOwnerOrAdmin (groupRef : String) : Except StateError Group :=
  match (run (readGroupByRef groupRef) h.records).1 with
  | .error _ => .error .notFound
  | .ok group =>
    if ¬ auth.isAdmin ∧ group.ownerId ≠ auth.userId then
      .error (.forbidden "must be the group's owner or an admin")
    else .ok group

/-- A route, for its owner and admins. -/
def ownedRoute (groupRef : String) (number : Nat) (msg : String) : Except StateError Route := do
  let route ← h.getRouteBySlug groupRef number
  if route.ownerId ≠ auth.userId ∧ ¬ auth.isAdmin then .error (.forbidden msg) else .ok route

def getRouteState (reporting : Reporting) (groupRef : String) (number : Nat)
    (format : Option String) : Except StateError StateResponse := do
  let _ ← ownedRoute h auth groupRef number
    "only the route's owner or an admin may read its state"
  let entries ← h.listRouteState reporting groupRef number
  return renderState entries format

def setRouteState (groupRef : String) (number : Nat) (body : StateBody) :
    Except StateError StateHost := do
  let entries ← body.entries
  let _ ← ownedRoute h auth groupRef number
    "only the route's owner or an admin may write its state"
  let entries ← decodeStateEntries entries
  h.setRouteState groupRef number entries

def deleteRouteState (reporting : Reporting) (groupRef : String) (number : Nat) :
    Except StateError StateHost := do
  let _ ← ownedRoute h auth groupRef number
    "only the route's owner or an admin may clear its state"
  h.clearRouteState reporting groupRef number

def getGroupState (reporting : Reporting) (groupRef : String) (format : Option String) :
    Except StateError StateResponse := do
  let group ← ensureGroupOwnerOrAdmin h auth groupRef
  let entries ← h.listGroupState reporting group.id
  return renderState entries format

def setGroupState (groupRef : String) (body : StateBody) : Except StateError StateHost := do
  let entries ← body.entries
  let group ← ensureGroupOwnerOrAdmin h auth groupRef
  let entries ← decodeStateEntries entries
  return h.setGroupState group.id entries

def deleteGroupState (reporting : Reporting) (groupRef : String) : Except StateError StateHost := do
  let group ← ensureGroupOwnerOrAdmin h auth groupRef
  return h.clearGroupState reporting group.id

end Endpoints
end StateApi
end WireMirage
