import WireMirage.Naming
import WireMirage.Store.Bucket
import WireMirage.Registry.Encoding

/-!
The operations of the registry, each as the sequence of store commands it issues.
What the code draws by chance or reads off the clock is an argument.
-/
namespace WireMirage

/-- What the registry relies on the ulid library for: the texts it reads as a ULID. -/
class UlidText where
  fromString : String → Bool

instance : FromStoreError Key RegistryError := ⟨.storage⟩

namespace Bucket
variable {Err : Type} [FromStoreError Key Err]

def scan (p : KeyPrefix) : Prog Store Err (List Key) := command (Storage.scan p.covers)

def deleteWithPrefix (p : KeyPrefix) : Prog Store Err Nat := do
  let keys ← scan p
  Prog.forEach keys (fun k => delete k)
  return keys.length

end Bucket

/-! Group operations -/

def contains (fields : Fields Val) (name : String) : Bool := (fields.lookup name).isSome

def resolveByName (reference : String) : Reg (Option String) := do
  match ← Bucket.get (.groupByName reference) with
  | none => return none
  | some v =>
    match v.utf8 with
    | none => Prog.fail (.malformed "group:by-name value")
    | some id => return some id

/-- Resolve a group reference: as a ULID with a record first, then as a name. -/
def resolveGroup [UlidText] (reference : String) : Reg (Option String) :=
  if UlidText.fromString reference ∧ reference ≠ "" then do
    let fields ← Bucket.hashGetAll (.group reference)
    if contains fields "id" then return some reference else resolveByName reference
  else resolveByName reference

def readGroup (groupId : String) : Reg Group := do
  let fields ← Bucket.hashGetAll (.group groupId)
  if fields.entries.isEmpty then Prog.fail .notFound
  else Prog.ofExcept (decodeGroup fields)

def resolved [UlidText] (reference : String) : Reg String := do
  match ← resolveGroup reference with
  | none => Prog.fail .notFound
  | some id => return id

def readGroupByRef [UlidText] (reference : String) : Reg Group := do
  let id ← resolved reference
  readGroup id

def normalizeTtl (ttlSeconds : Nat) : Except RegistryError Nat :=
  if ttlSeconds > maxGroupTtlSeconds then
    .error (.invalidTtl ("ttl_seconds " ++ toString ttlSeconds ++ " exceeds max " ++
      toString maxGroupTtlSeconds))
  else .ok ttlSeconds

/-- Every arming of a group's expiry: a configured 0 clears it instead. -/
def armGroupTtl (k : Key) (ttlSeconds : Nat) : Reg Unit :=
  if ttlSeconds = 0 then Bucket.clearTtl k else Bucket.setTtl k ttlSeconds

def armGroupTtls (groupId name : String) (ttlSeconds : Nat) : Reg Unit := do
  armGroupTtl (.group groupId) ttlSeconds
  armGroupTtl (.groupByName name) ttlSeconds

def writeGroup (group : Group) : Reg Unit := do
  let key := Key.group group.id
  Bucket.hashSet key "id" (.text group.id)
  Bucket.hashSet key "name" (.text group.name)
  Bucket.hashSet key "implicit" (.flag group.implicit)
  Bucket.hashSet key "created_at" (.time group.createdAt)
  Bucket.hashSet key "owner_id" (.text group.ownerId)
  Bucket.hashSet key "ttl_seconds" (.int group.ttlSeconds)
  Bucket.hashSet key "sliding_ttl" (.flag group.slidingTtl)
  Bucket.hashSet key "callout_enabled" (.flag group.calloutEnabled)
  Bucket.set (.groupByName group.name) (.text group.id)
  Bucket.setAdd (.groupOwner group.ownerId) group.id
  Bucket.setAdd .groupAll group.id

/-- The first drawn name that no group carries. -/
def firstFreeName : List Draw → Reg (Option String)
  | [] => return none
  | draw :: rest => do
    match ← Bucket.get (.groupByName (generate draw)) with
    | none => return some (generate draw)
    | some _ => firstFreeName rest

/-- Walk the disambiguating number up; `fuel` is what its type leaves above `n`. -/
def firstFreeNumber (base : String) : Nat → Nat → Reg String
  | 0, _ => Prog.fail .panicked
  | fuel + 1, n => do
    let candidate := base ++ "-" ++ toString n
    match ← Bucket.get (.groupByName candidate) with
    | none => return candidate
    | some _ => firstFreeNumber base fuel (n + 1)

def generateGroupName (draw : Nat → Draw) : Reg String := do
  match ← firstFreeName ((List.range 8).map draw) with
  | some name => return name
  | none => firstFreeNumber (generate (draw 8)) (u32Size - 2) 2

def debugTexts (l : List String) : String :=
  "[" ++ ", ".intercalate (l.map debugText) ++ "]"

def newGroupName (name : String) (draw : Nat → Draw) : Reg String :=
  if isBlank name then generateGroupName draw
  else if ¬ isValidLabel name then Prog.fail (.invalidName name)
  else do
    match ← Bucket.get (.groupByName name) with
    | some _ => Prog.fail (.conflict ("group " ++ debugText name ++ " already exists"))
    | none => return name

def explicitGroup (params : NewGroup) (name : String) (ttlSeconds : Nat) (id : String)
    (now : Time) : Group where
  id := id
  name := name
  implicit := false
  createdAt := now
  ownerId := params.ownerId
  ttlSeconds := ttlSeconds
  slidingTtl := params.slidingTtl.getD defaultGroupSlidingTtl
  calloutEnabled := false
  lastActivityAt := none

def implicitGroup (ownerId name id : String) (now : Time) : Group where
  id := id
  name := name
  implicit := true
  createdAt := now
  ownerId := ownerId
  ttlSeconds := defaultGroupTtlSeconds
  slidingTtl := defaultGroupSlidingTtl
  calloutEnabled := false
  lastActivityAt := none

/-- The writes of a new group: its record and indexes, then their expiry. -/
def storeGroup (group : Group) : Reg Group := do
  writeGroup group
  armGroupTtls group.id group.name group.ttlSeconds
  return group

def createGroup (params : NewGroup) (id : String) (now : Time) (draw : Nat → Draw) :
    Reg Group := do
  let name ← newGroupName params.name draw
  let ttlSeconds ← Prog.ofExcept (normalizeTtl (params.ttlSeconds.getD defaultGroupTtlSeconds))
  storeGroup (explicitGroup params name ttlSeconds id now)

def createImplicitGroup (ownerId : String) (id : String) (now : Time) (draw : Nat → Draw) :
    Reg Group := do
  let name ← generateGroupName draw
  storeGroup (implicitGroup ownerId name id now)

def patchTtl (groupId : String) (group : Group) : Option Nat → Reg Group
  | none => return group
  | some ttl => do
    let ttl ← Prog.ofExcept (normalizeTtl ttl)
    Bucket.hashSet (.group groupId) "ttl_seconds" (.int ttl)
    armGroupTtls groupId group.name ttl
    return { group with ttlSeconds := ttl }

def patchSliding (groupId : String) (group : Group) : Option Bool → Reg Group
  | none => return group
  | some flag => do
    Bucket.hashSet (.group groupId) "sliding_ttl" (.flag flag)
    return { group with slidingTtl := flag }

def patchCallout (groupId : String) (group : Group) : Option Bool → Reg Group
  | none => return group
  | some flag => do
    Bucket.hashSet (.group groupId) "callout_enabled" (.flag flag)
    return { group with calloutEnabled := flag }

def patchGroup (groupId : String) (ttlSeconds : Option Nat)
    (slidingTtl calloutEnabled : Option Bool) :
    Reg Group := do
  let group ← readGroup groupId
  let group ← patchTtl groupId group ttlSeconds
  let group ← patchSliding groupId group slidingTtl
  patchCallout groupId group calloutEnabled

def refreshGroupIfSliding (groupId : String) : Reg Bool := do
  match ← Prog.attempt (readGroup groupId) with
  | .error .notFound => return false
  | .error e => Prog.fail e
  | .ok group =>
    if ¬ group.slidingTtl then return false
    else if group.ttlSeconds = 0 then return false
    else do
      armGroupTtls groupId group.name group.ttlSeconds
      return true

/-- The three writes of a matched dispatch. -/
def recordRouteHit (groupId routeId : String) (when_ : Time) : Reg Unit := do
  Bucket.hashSet (.route routeId) "last_hit_at" (.time when_)
  let _ ← Bucket.hashIncr (.route routeId) "hits_total" 1
  Bucket.hashSet (.group groupId) "last_activity_at" (.time when_)

def refreshGroup (groupId : String) : Reg Group := do
  let group ← readGroup groupId
  if group.ttlSeconds = 0 then
    Prog.fail (.invalidTtl "cannot refresh a group that never expires (ttl_seconds: 0)")
  else do
    armGroupTtls groupId group.name group.ttlSeconds
    return group

def clearGroupState (groupId : String) : Reg Unit := do
  let _ ← Bucket.deleteWithPrefix (.kvGroup groupId)
  let _ ← Bucket.deleteWithPrefix (.gkv groupId)
  return ()

def setGroupState (groupId : String) (state : List (String × Bytes)) : Reg Unit :=
  Prog.forEach state (fun e => Bucket.set (.gkv groupId e.1) (.blob e.2))

def clearGroupJournal (groupId : String) : Reg Unit := do
  let _ ← Bucket.deleteWithPrefix (.journal groupId)
  let _ ← Bucket.deleteWithPrefix (.journalByNumber groupId)
  Bucket.delete (.groupCounters groupId)

/-! Route operations -/

def readRoute (routeId : String) : Reg Route := do
  let fields ← Bucket.hashGetAll (.route routeId)
  if fields.entries.isEmpty then Prog.fail .notFound
  else Prog.ofExcept (decodeRoute fields)

def listRoutesFrom (k : Key) : Reg (List Route) := do
  let ids ← Bucket.setMembers k
  Prog.collect ids readRoute

def listRoutes : Reg (List Route) := listRoutesFrom .routeAll
def listRoutesByOwner (ownerId : String) : Reg (List Route) :=
  listRoutesFrom (.routeByOwner ownerId)
def routesInGroup (groupId : String) : Reg (List Route) := listRoutesFrom (.routeInGroup groupId)

def validateMethods (methods : List String) : Except RegistryError Methods :=
  if methods = [] then .error (.invalidMethod "(empty)")
  else match methods.find? (fun m => ¬ validMethod m) with
    | some m => .error (.invalidMethod m)
    | none => .ok methods

def parsePath (raw : String) : Except RegistryError Pattern :=
  (Pattern.parse raw).mapError .invalidPath

def conflictMessage (existing : Route) : String :=
  "conflicts with " ++ existing.groupName ++ "/" ++ toString existing.number ++ " (" ++
    debugTexts existing.methods ++ " " ++ existing.path ++ ")"

/-- The first of the given routes that stands in the way, the excluded one apart. -/
def scanConflict (newMethods : Methods) (newPattern : Pattern) (excludeId : Option String) :
    List Route → Except RegistryError Unit
  | [] => .ok ()
  | existing :: rest =>
    if excludeId = some existing.id then scanConflict newMethods newPattern excludeId rest
    else match parsePath existing.path with
      | .error e => .error e
      | .ok existingPattern =>
        if routesConflict newMethods newPattern existing.methods existingPattern then
          .error (.conflict (conflictMessage existing))
        else scanConflict newMethods newPattern excludeId rest

def scanPatternConflict (groupId : String) (newMethods : Methods) (newPattern : Pattern)
    (excludeId : Option String) : Reg Unit := do
  let routes ← routesInGroup groupId
  Prog.ofExcept (scanConflict newMethods newPattern excludeId routes)

def precheckCreateConflict [UlidText] (groupRef : Option String) (methods : List String)
    (path : String) : Reg Unit := do
  let newPattern ← Prog.ofExcept (parsePath path)
  let newMethods ← Prog.ofExcept (validateMethods methods)
  match groupRef with
  | none => return ()
  | some reference =>
    match ← resolveGroup reference with
    | none => return ()
    | some groupId => scanPatternConflict groupId newMethods newPattern none

def writeRoute (route : Route) : Reg Unit := do
  let key := Key.route route.id
  Bucket.hashSet key "id" (.text route.id)
  Bucket.hashSet key "group_id" (.text route.groupId)
  Bucket.hashSet key "group_name" (.text route.groupName)
  Bucket.hashSet key "number" (.int route.number)
  Bucket.hashSet key "methods" (.methods route.methods)
  Bucket.hashSet key "path" (.text route.path)
  Bucket.hashSet key "language" (.text route.language)
  Bucket.hashSet key "bindings_version" (.text route.bindingsVersion)
  Bucket.hashSet key "compiled_wasm" (.blob route.compiledWasm)
  match route.source with
  | some src => Bucket.hashSet key "source" (.text src)
  | none => Bucket.hashDelete key "source"
  Bucket.hashSet key "created_at" (.time route.createdAt)
  Bucket.hashSet key "owner_id" (.text route.ownerId)

/-- The record of a route at its creation. -/
def newRoute (params : NewRoute) (group : Group) (path : String) (n : Nat) (id : String)
    (now : Time) : Route where
  id := id
  groupId := group.id
  groupName := group.name
  number := n
  methods := params.methods
  path := path
  language := params.language
  bindingsVersion := params.bindingsVersion
  compiledWasm := params.compiledWasm
  source := params.source
  createdAt := now
  ownerId := params.ownerId
  hitsTotal := 0
  lastHitAt := none

/-- The group a new route goes into: the one named, or an implicit one of its own. -/
def targetGroup [UlidText] (params : NewRoute) (implicitId : String) (now : Time)
    (draw : Nat → Draw) : Reg Group :=
  match params.group with
  | some reference => do
    let groupId ← resolved reference
    readGroup groupId
  | none => createImplicitGroup params.ownerId implicitId now draw

/-- The writes of a new route: the record first, then its indexes. -/
def storeRoute (route : Route) : Reg Unit := do
  writeRoute route
  Bucket.set (.routeByNumber route.groupId route.number) (.text route.id)
  Bucket.setAdd (.routeInGroup route.groupId) route.id
  Bucket.setAdd .routeAll route.id
  Bucket.setAdd (.routeByOwner route.ownerId) route.id

/-- The ids a route creation draws: one for an implicit group, one for the route. -/
structure NewIds where
  group : String
  route : String
  deriving DecidableEq, Repr

def createRoute [UlidText] (params : NewRoute) (ids : NewIds) (now : Time) (draw : Nat → Draw) :
    Reg Route := do
  let newPattern ← Prog.ofExcept (parsePath params.path)
  let newMethods ← Prog.ofExcept (validateMethods params.methods)
  let group ← targetGroup params ids.group now draw
  scanPatternConflict group.id newMethods newPattern none
  let count ← Bucket.hashIncr (.groupCounters group.id) "next_route_number" 1
  let route := newRoute params group newPattern.raw (asU32 count) ids.route now
  storeRoute route
  return route

/-- The id a slug leads to, through the by-number index. -/
def routeIdBySlug [UlidText] (groupRef : String) (number : Nat) : Reg String := do
  let groupId ← resolved groupRef
  match ← Bucket.get (.routeByNumber groupId number) with
  | none => Prog.fail .notFound
  | some v =>
    match v.utf8 with
    | none => Prog.fail (.malformed "route ulid")
    | some id => return id

def getRouteBySlug [UlidText] (groupRef : String) (number : Nat) : Reg Route := do
  let routeId ← routeIdBySlug groupRef number
  readRoute routeId

def stripRouteIndexes (route : Route) : Reg Unit := do
  Bucket.delete (.routeByNumber route.groupId route.number)
  Bucket.setRemove (.routeInGroup route.groupId) route.id
  Bucket.setRemove .routeAll route.id
  Bucket.setRemove (.routeByOwner route.ownerId) route.id

/-- The fields that the deletion of a single route clears. -/
def deletedRouteFields : List String :=
  ["id", "group_id", "group_name", "number", "methods", "path", "language", "bindings_version",
    "compiled_wasm", "source", "created_at", "owner_id", "hits_total", "last_hit_at"]

/-- The fields that the deletion of a group clears on its routes. -/
def cascadedRouteFields : List String :=
  ["id", "group_id", "group_name", "number", "methods", "path", "language", "bindings_version",
    "compiled_wasm", "created_at", "owner_id", "hits_total", "last_hit_at"]

/-- The fields that the deletion of a group clears on its own record. -/
def cascadedGroupFields : List String :=
  ["id", "name", "implicit", "created_at", "owner_id", "ttl_seconds", "sliding_ttl",
    "last_activity_at"]

def clearFields (k : Key) (fields : List String) : Reg Unit :=
  Prog.forEach fields (fun field => Bucket.hashDelete k field)

/-- The indexes go first, so that nothing leads to a record that is half gone. -/
def removeRoute (routeId : String) (route : Route) : Reg Unit := do
  stripRouteIndexes route
  let _ ← Bucket.deleteWithPrefix (.kvRoute route.groupId route.id)
  clearFields (.route routeId) deletedRouteFields

def deleteRoute [UlidText] (groupRef : String) (number : Nat) : Reg Unit := do
  let routeId ← routeIdBySlug groupRef number
  let route ← readRoute routeId
  removeRoute routeId route

def clearRouteState [UlidText] (groupRef : String) (number : Nat) : Reg Nat := do
  let route ← getRouteBySlug groupRef number
  Bucket.deleteWithPrefix (.kvRoute route.groupId route.id)

def setRouteState [UlidText] (groupRef : String) (number : Nat) (state : List (String × Bytes)) :
    Reg Unit := do
  let route ← getRouteBySlug groupRef number
  Prog.forEach state (fun e => Bucket.set (.kv route.groupId route.id e.1) (.blob e.2))

/-- A field is rewritten when the patch holds a value for it. -/
def patchField {A : Type} (k : Key) (field : String) (encode : A → Val) : Option A → Reg Unit
  | none => return ()
  | some a => Bucket.hashSet k field (encode a)

def patchSource (k : Key) : Option (Option String) → Reg Unit
  | none => return ()
  | some (some src) => Bucket.hashSet k "source" (.text src)
  | some none => Bucket.hashDelete k "source"

/-- The record after a patch; the path arrives normalised. -/
def PatchRoute.apply (patch : PatchRoute) (newPath : String) (route : Route) : Route :=
  { route with
    methods := patch.methods.getD route.methods
    path := newPath
    language := patch.language.getD route.language
    bindingsVersion := patch.bindingsVersion.getD route.bindingsVersion
    compiledWasm := patch.compiledWasm.getD route.compiledWasm
    source := patch.source.getD route.source }

def patchedMethods (patch : PatchRoute) (route : Route) : Except RegistryError (List String) :=
  match patch.methods with
  | some methods => (validateMethods methods).map (fun _ => methods)
  | none => .ok route.methods

def patchedPath (patch : PatchRoute) (route : Route) : Except RegistryError String :=
  match patch.path with
  | some path => (parsePath path).map Pattern.raw
  | none => .ok route.path

def checkPatchConflict (patch : PatchRoute) (route : Route) (newMethods : List String)
    (newPath : String) : Reg Unit :=
  if patch.methods.isSome ∨ patch.path.isSome then do
    let newPattern ← Prog.ofExcept (parsePath newPath)
    scanPatternConflict route.groupId newMethods newPattern (some route.id)
  else return ()

def updateRoute [UlidText] (groupRef : String) (number : Nat) (patch : PatchRoute) :
    Reg Route := do
  let routeId ← routeIdBySlug groupRef number
  let route ← readRoute routeId
  let newMethods ← Prog.ofExcept (patchedMethods patch route)
  let newPath ← Prog.ofExcept (patchedPath patch route)
  checkPatchConflict patch route newMethods newPath
  let key := Key.route routeId
  patchField key "methods" .methods patch.methods
  patchField key "path" .text (patch.path.map (fun _ => newPath))
  patchField key "language" .text patch.language
  patchField key "bindings_version" .text patch.bindingsVersion
  patchField key "compiled_wasm" .blob patch.compiledWasm
  patchSource key patch.source
  return patch.apply newPath route

/-! Operations on a group and everything in it -/

/-- The record, the by-name index and its expiry, at a group's new name. -/
def moveName (groupId : String) (group : Group) (newName : String) : Reg Unit := do
  Bucket.hashSet (.group groupId) "name" (.text newName)
  Bucket.delete (.groupByName group.name)
  Bucket.set (.groupByName newName) (.text groupId)
  armGroupTtl (.groupByName newName) group.ttlSeconds

/-- The name of the group as its routes carry it. -/
def renameRoutes (groupId newName : String) : Reg Unit := do
  let routes ← routesInGroup groupId
  Prog.forEach routes
    (fun route => Bucket.hashSet (.route route.id) "group_name" (.text newName))

def renameGroup [UlidText] (groupRef newName : String) : Reg Group := do
  let groupId ← resolved groupRef
  let group ← readGroup groupId
  if group.name = newName then return group
  else if ¬ isValidLabel newName then Prog.fail (.invalidName newName)
  else do
    match ← Bucket.get (.groupByName newName) with
    | some _ => Prog.fail (.conflict ("group " ++ debugText newName ++ " already exists"))
    | none =>
      moveName groupId group newName
      renameRoutes groupId newName
      return { group with name := newName }

/-- A route whose record does not read keeps its indexes. -/
def stripIfRead (routeId : String) : Reg Unit := do
  match ← Prog.attempt (readRoute routeId) with
  | .ok route => stripRouteIndexes route
  | .error _ => return ()

def cascadeRoute (groupId routeId : String) : Reg Unit := do
  stripIfRead routeId
  let _ ← Bucket.deleteWithPrefix (.kvRoute groupId routeId)
  clearFields (.route routeId) cascadedRouteFields
  Bucket.setRemove .routeAll routeId

def cascadeRecord (groupId : String) : Option Group → Reg Unit
  | none => return ()
  | some group => do
    Bucket.delete (.groupByName group.name)
    Bucket.setRemove (.groupOwner group.ownerId) groupId
    clearFields (.group groupId) cascadedGroupFields

/-- The group's record when it has one; a record that does not decode is an error. -/
def readGroupIfAny (groupId : String) : Reg (Option Group) := do
  match ← Prog.attempt (readGroup groupId) with
  | .ok group => return some group
  | .error .notFound => return none
  | .error e => Prog.fail e

def cascadeDeleteGroup (groupId : String) : Reg Nat := do
  let group ← readGroupIfAny groupId
  let routeIds ← Bucket.setMembers (.routeInGroup groupId)
  Prog.forEach routeIds (cascadeRoute groupId)
  Bucket.delete (.routeInGroup groupId)
  let _ ← Bucket.deleteWithPrefix (.gkv groupId)
  let _ ← Bucket.deleteWithPrefix (.journal groupId)
  let _ ← Bucket.deleteWithPrefix (.journalByNumber groupId)
  Bucket.delete (.groupCounters groupId)
  cascadeRecord groupId group
  Bucket.setRemove .groupAll groupId
  return routeIds.length

/-! Sample arguments, for runs on concrete inputs -/

namespace Sample

def crockford : List Char := "0123456789ABCDEFGHJKMNPQRSTVWXYZ".toList

/-- The texts of ULIDs: 26 letters and digits of Crockford's alphabet, in either case. -/
instance ulids : UlidText :=
  ⟨fun s => s.length = 26 ∧ s.toList.all (fun c => crockford.contains c.toUpper)⟩

def idA : String := "01J9ZK6C3N0000000000000A01"
def idB : String := "01J9ZK6C3N0000000000000B02"
def idC : String := "01J9ZK6C3N0000000000000C03"
def idD : String := "01J9ZK6C3N0000000000000D04"
def idE : String := "01J9ZK6C3N0000000000000E05"
def idF : String := "01J9ZK6C3N0000000000000F06"

def draw : Nat → Draw := fun _ => (⟨0, by decide +kernel⟩, ⟨0, by decide +kernel⟩)

def group (name owner : String) : NewGroup := ⟨name, owner, none, none⟩

def route (groupName path source owner : String) : NewRoute :=
  ⟨some groupName, ["GET"], path, "javascript", "0.1.0", [], some source, owner⟩

end Sample
end WireMirage
