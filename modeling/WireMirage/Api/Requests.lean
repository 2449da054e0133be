import WireMirage.Api.Operations
import WireMirage.Calls
import WireMirage.Wire

/-!
The requests that change groups and routes: who may make them is decided on the record that
is read, and the registry does the rest.
-/
namespace WireMirage
open Prog StepMachine

inductive RequestError where
  | api (e : ApiError)
  | forbidden (msg : String)
  | validation (msg : String)
  deriving DecidableEq, Repr

abbrev Requests (A : Type) := Prog Store RequestError A

structure CreateGroupBody where
  name : Option String
  ttlSeconds : Option Nat
  slidingTtl : Option Bool
  deriving DecidableEq, Repr

structure PatchGroupBody where
  name : Option String
  ttlSeconds : Option Nat
  slidingTtl : Option Bool
  calloutEnabled : Option Bool
  deriving DecidableEq, Repr

structure PatchRouteBody where
  methods : Option (List String)
  path : Option String
  language : Option String
  source : Option String
  deriving DecidableEq, Repr

namespace Requests

def viaApi {A : Type} (p : Api A) : Requests A := Prog.mapError .api p

def viaRegistry {A : Type} (p : Reg A) : Requests A := viaApi (WireMirage.viaRegistry p)

section
variable [UlidText] (transpile : String → Except String String) (auth : AuthContext)

/-- A group by its name or id, for its owner and admins. -/
def ensureGroupOwnerOrAdmin (groupRef : String) : Requests Group := do
  match ← Prog.attempt (viaRegistry (readGroupByRef groupRef)) with
  | .error _ => Prog.fail (.api .notFound)
  | .ok group =>
    if ¬ auth.isAdmin ∧ group.ownerId ≠ auth.userId then
      Prog.fail (.forbidden "must be the group's owner or an admin")
    else return group

/-- A route by its slug, for its owner and admins. -/
def ensureRouteOwnerOrAdmin (group : String) (number : Nat) (doing : String) : Requests Route := do
  let route ← viaRegistry (getRouteBySlug group number)
  if route.ownerId ≠ auth.userId ∧ ¬ auth.isAdmin then
    Prog.fail (.forbidden ("only the route's owner or an admin may " ++ doing))
  else return route

def createGroup (body : CreateGroupBody) (id : String) (now : Time) (draw : Nat → Draw) :
    Requests Group :=
  viaRegistry (WireMirage.createGroup
    ⟨body.name.getD "", auth.userId, body.ttlSeconds, body.slidingTtl⟩ id now draw)

/-- The artifact a new source is stored with; without one the artifact is kept. -/
def patchArtifact (body : PatchRouteBody) : Except RequestError PatchRoute :=
  match body.source with
  | none => .ok { methods := body.methods, path := body.path }
  | some source =>
    match body.language with
    | none => .error (.validation "`language` is required when changing the route's source")
    | some lang =>
      if lang = "wasm" then .error (.api .wasmUnsupported)
      else if lang = "javascript" ∨ lang = "typescript" then
        match transpile source with
        | .error msg => .error (.api (.compileFailed msg))
        | .ok _ => .ok
          { methods := body.methods
            path := body.path
            language := some lang
            bindingsVersion := some supportedBindingsVersion
            compiledWasm := some []
            source := some (some source) }
      else .error (.api (.unsupportedLanguage lang))

def patchRouteCore (group : String) (number : Nat) (body : PatchRouteBody) : Requests Route := do
  let _ ← ensureRouteOwnerOrAdmin auth group number "update it"
  if body.methods.isNone ∧ body.path.isNone ∧ body.language.isNone ∧ body.source.isNone then
    Prog.fail (.validation ("PATCH body must include at least one mutable field " ++
      "(`methods`, `path`, `source`)"))
  else do
    let patch ← Prog.ofExcept (patchArtifact transpile body)
    viaRegistry (updateRoute group number patch)

def deleteRoute (group : String) (number : Nat) : Requests Unit := do
  let _ ← ensureRouteOwnerOrAdmin auth group number "delete it"
  viaRegistry (WireMirage.deleteRoute group number)

def decodeStateEntries [Messages] (entries : Fields WireBytes) :
    Except RequestError (Fields Bytes) :=
  (decodeEntries entries).mapError .validation

def setRouteState [Messages] (group : String) (number : Nat) (entries : Fields WireBytes) :
    Requests Unit := do
  let _ ← ensureRouteOwnerOrAdmin auth group number "write its state"
  let entries ← Prog.ofExcept (decodeStateEntries entries)
  viaRegistry (WireMirage.setRouteState group number entries.pairs)

def deleteRouteState (group : String) (number : Nat) : Requests Unit := do
  let _ ← ensureRouteOwnerOrAdmin auth group number "clear its state"
  let _ ← viaRegistry (clearRouteState group number)
  return ()

/-- The rename comes first. -/
def renamePatched (group : Group) : Option String → Requests Unit
  | none => return ()
  | some newName => do
    let _ ← viaRegistry (renameGroup group.id newName)
    return ()

def patchGroup (groupRef : String) (body : PatchGroupBody) : Requests Group := do
  let group ← ensureGroupOwnerOrAdmin auth groupRef
  if body.name.isNone ∧ body.ttlSeconds.isNone ∧ body.slidingTtl.isNone ∧
      body.calloutEnabled.isNone then
    Prog.fail (.validation ("PATCH body must include at least `name`, `ttl_seconds`, " ++
      "`sliding_ttl`, or `callout_enabled`"))
  else do
    renamePatched group body.name
    if body.ttlSeconds.isSome ∨ body.slidingTtl.isSome ∨ body.calloutEnabled.isSome then
      viaRegistry (WireMirage.patchGroup group.id body.ttlSeconds body.slidingTtl
        body.calloutEnabled)
    else viaRegistry (readGroupByRef group.id)

def deleteGroup (groupRef : String) : Requests Unit := do
  let group ← ensureGroupOwnerOrAdmin auth groupRef
  let _ ← viaRegistry (cascadeDeleteGroup group.id)
  return ()

def refreshGroup (groupRef : String) : Requests Group := do
  let group ← ensureGroupOwnerOrAdmin auth groupRef
  viaRegistry (WireMirage.refreshGroup group.id)

def setGroupState [Messages] (groupRef : String) (entries : Fields WireBytes) :
    Requests Unit := do
  let group ← ensureGroupOwnerOrAdmin auth groupRef
  let entries ← Prog.ofExcept (decodeStateEntries entries)
  viaRegistry (WireMirage.setGroupState group.id entries.pairs)

def deleteGroupState (groupRef : String) : Requests Unit := do
  let group ← ensureGroupOwnerOrAdmin auth groupRef
  viaRegistry (clearGroupState group.id)

def deleteGroupJournal (groupRef : String) : Requests Unit := do
  let group ← ensureGroupOwnerOrAdmin auth groupRef
  viaRegistry (clearGroupJournal group.id)

end
end Requests

inductive TenantRequest where
  | createGroup (body : CreateGroupBody) (id : String) (now : Time) (draw : Nat → Draw)
  | createRoute (body : CreateRouteBody) (drawn : RouteDraws)
  | patchRoute (group : String) (number : Nat) (body : PatchRouteBody)
  | deleteRoute (group : String) (number : Nat)
  | setRouteState (group : String) (number : Nat) (entries : Fields WireBytes)
  | deleteRouteState (group : String) (number : Nat)
  | patchGroup (groupRef : String) (body : PatchGroupBody)
  | deleteGroup (groupRef : String)
  | refreshGroup (groupRef : String)
  | setGroupState (groupRef : String) (entries : Fields WireBytes)
  | deleteGroupState (groupRef : String)
  | deleteGroupJournal (groupRef : String)
  | importGroup (spec : GroupSpec) (drawn : ImportDraws)

namespace TenantRequest

/-- The ids that the creation of the routes of an import draws. -/
def importedIds (routes : Nat → RouteDraws) : Nat → Nat → List String
  | _, 0 => []
  | idx, n + 1 => (routes idx).ids.group :: (routes idx).ids.route :: importedIds routes (idx + 1) n

def draws : TenantRequest → List String
  | createGroup _ id _ _ => [id]
  | createRoute _ drawn => [drawn.ids.group, drawn.ids.route]
  | importGroup spec drawn => drawn.groupId :: importedIds drawn.routes 0 spec.routes.length
  | _ => []

/-- What a request does, its answer apart. -/
def serve [UlidText] [Messages] (transpile : String → Except String String) (auth : AuthContext) :
    TenantRequest → Requests Unit
  | createGroup body id now draw => do
    let _ ← Requests.createGroup auth body id now draw
    return ()
  | createRoute body drawn => do
    let _ ← Requests.viaApi (createRouteCore transpile auth body drawn)
    return ()
  | patchRoute group number body => do
    let _ ← Requests.patchRouteCore transpile auth group number body
    return ()
  | deleteRoute group number => Requests.deleteRoute auth group number
  | setRouteState group number entries => Requests.setRouteState auth group number entries
  | deleteRouteState group number => Requests.deleteRouteState auth group number
  | patchGroup groupRef body => do
    let _ ← Requests.patchGroup auth groupRef body
    return ()
  | deleteGroup groupRef => Requests.deleteGroup auth groupRef
  | refreshGroup groupRef => do
    let _ ← Requests.refreshGroup auth groupRef
    return ()
  | setGroupState groupRef entries => Requests.setGroupState auth groupRef entries
  | deleteGroupState groupRef => Requests.deleteGroupState auth groupRef
  | deleteGroupJournal groupRef => Requests.deleteGroupJournal auth groupRef
  | importGroup spec drawn => do
    let _ ← Requests.viaApi (importGroupCore transpile auth spec drawn)
    return ()

end TenantRequest

/-- Requests of any users one after another, against a storage that starts out empty. -/
def tenants [UlidText] [Messages] (transpile : String → Except String String) :
    Machine CallState (AuthContext × TenantRequest) where
  start s := ∃ b, s = ⟨Storage.empty b, []⟩
  step s a :=
    if a.2.draws.Nodup ∧ ∀ id ∈ a.2.draws, Drawable s.minted id then
      some ⟨(run (a.2.serve transpile a.1) s.store).2, a.2.draws ++ s.minted⟩
    else none

end WireMirage
