import WireMirage.Library.Choice
import WireMirage.Registry.Operations

/-!
The in-memory route table of one replica: the loaded route records and what is
derived from them, the matcher over them, and every change made to them.
-/
namespace WireMirage

structure MatchedRoute where
  route : Route
  matchedPattern : String
  pathParams : List (String × String)
  deriving DecidableEq, Repr

/-- A route-cache invalidation: the group to read again, the artifacts to drop. -/
structure RouteInvalidation where
  groupId : String
  routeIds : List String
  deriving DecidableEq, Repr

/-- How artifacts are derived, by the compiler and the transpiler the host embeds. -/
structure Toolchain (Component : Type) where
  fromBinary : Bytes → Option Component
  transpile : String → Except String String

structure RouteTable (Component : Type) where
  routes : List Route
  components : AList (fun _ : String => Component)
  engineJs : AList (fun _ : String => String)
  revalidatedAt : AList (fun _ : String => Nat)
  revalidateInterval : Nat

namespace RouteTable
variable {Component : Type}

def warm (routes : List Route) (revalidateInterval : Nat) : RouteTable Component :=
  ⟨routes, ∅, ∅, ∅, revalidateInterval⟩

/-! Matching -/

/-- The match of one route, with the pattern it was found by. -/
def matchRoute (method path : String) (route : Route) : Option (Pattern × MatchedRoute) :=
  match Pattern.parse route.path with
  | .error _ => none
  | .ok pattern =>
    if ¬ methodsMatch route.methods method then none
    else (pattern.matchPath path).map (fun captures => (pattern, ⟨route, pattern.raw, captures⟩))

/-- What a route contributes to a match: a specific one settles it, a backstop
    stands by with the length of its prefix. -/
def offer (group : Option String) (method path : String) (route : Route) :
    Option (Offer MatchedRoute) :=
  if group.any (fun g => route.groupName ≠ g) then none
  else (matchRoute method path route).map (fun found =>
    if found.1.hasTail then .reserve found.1.segments.length found.2 else .decisive found.2)

def findMatchFiltered (routes : List Route) (group : Option String) (method path : String) :
    Option MatchedRoute :=
  Offer.choose (routes.filterMap (offer group method path)) none

def findMatch (t : RouteTable Component) (method path : String) : Option MatchedRoute :=
  findMatchFiltered t.routes none method path

def findMatchInGroup (t : RouteTable Component) (group method path : String) :
    Option MatchedRoute :=
  findMatchFiltered t.routes (some group) method path

/-! Reading again from storage -/

/-- Replace rather than merge: also drops routes deleted elsewhere. -/
def replaceGroup (groupId : String) (fresh : List Route) (t : RouteTable Component) :
    RouteTable Component :=
  { t with routes := t.routes.filter (fun r => r.groupId != groupId) ++ fresh }

/-- The write that follows the read of a group; a failed read leaves the table as it is. -/
def reloadGroup (groupId : String) (read : Except RegistryError (List Route))
    (t : RouteTable Component) : Bool × RouteTable Component :=
  match read with
  | .error _ => (false, t)
  | .ok fresh => (true, t.replaceGroup groupId fresh)

/-- Claim the group's slot for a reload, unless it was claimed within the interval. -/
def claimRevalidation (groupId : String) (now : Nat) (t : RouteTable Component) :
    Option (RouteTable Component) :=
  if (t.revalidatedAt.lookup groupId).any (fun last => now - last < t.revalidateInterval) then none
  else some { t with revalidatedAt := t.revalidatedAt.insert groupId now }

def revalidateGroup (groupId : String) (now : Nat) (read : Except RegistryError (List Route))
    (t : RouteTable Component) : Bool × RouteTable Component :=
  match t.claimRevalidation groupId now with
  | none => (false, t)
  | some claimed => claimed.reloadGroup groupId read

def revalidateAndRematch (groupId groupName method path : String) (now : Nat)
    (read : Except RegistryError (List Route)) (t : RouteTable Component) :
    Option MatchedRoute × RouteTable Component :=
  match t.revalidateGroup groupId now read with
  | (false, t) => (none, t)
  | (true, t) => (findMatchFiltered t.routes (some groupName) method path, t)

def reloadAll (read : Except RegistryError (List Route)) (t : RouteTable Component) :
    RouteTable Component :=
  match read with
  | .error _ => t
  | .ok fresh => { t with routes := fresh, components := ∅, engineJs := ∅, revalidatedAt := ∅ }

/-! Derived artifacts -/

def evict (routeId : String) (t : RouteTable Component) : RouteTable Component :=
  { t with components := t.components.erase routeId, engineJs := t.engineJs.erase routeId }

def evictAll (routeIds : List String) (t : RouteTable Component) : RouteTable Component :=
  routeIds.foldl (fun t id => t.evict id) t

/-- The marking that a group was read just now. -/
def noteReload (groupId : String) (now : Nat) (reloaded : Bool) (t : RouteTable Component) :
    RouteTable Component :=
  if reloaded then { t with revalidatedAt := t.revalidatedAt.insert groupId now } else t

def applyInvalidation (event : RouteInvalidation) (now : Nat)
    (read : Except RegistryError (List Route)) (t : RouteTable Component) :
    RouteTable Component :=
  let (reloaded, t) := (t.evictAll event.routeIds).reloadGroup event.groupId read
  t.noteReload event.groupId now reloaded

def insertComponent (routeId : String) (component : Component) (t : RouteTable Component) :
    RouteTable Component :=
  { t with components := t.components.insert routeId component }

def insertEngineJs (routeId js : String) (t : RouteTable Component) : RouteTable Component :=
  { t with engineJs := t.engineJs.insert routeId js }

/-- The compiled component of a route: the cached one, or one built from the record. -/
def componentFor (tools : Toolchain Component) (route : Route) (t : RouteTable Component) :
    Option Component × RouteTable Component :=
  match t.components.lookup route.id with
  | some component => (some component, t)
  | none =>
    match tools.fromBinary route.compiledWasm with
    | none => (none, t)
    | some component => (some component, t.insertComponent route.id component)

def engineSourceFor (tools : Toolchain Component) (route : Route) (t : RouteTable Component) :
    Except String String × RouteTable Component :=
  match route.source with
  | none => (.error ("source-language route " ++ route.id ++ " has no source stored"), t)
  | some source =>
    match t.engineJs.lookup route.id with
    | some js => (.ok js, t)
    | none =>
      match tools.transpile source with
      | .error e => (.error ("transpile route " ++ route.id ++ ": " ++ e), t)
      | .ok js => (.ok js, t.insertEngineJs route.id js)

/-! What follows a committed change -/

def refreshAfterCreate (route : Route) (t : RouteTable Component) : RouteTable Component :=
  { t with routes := t.routes ++ [route] }

def refreshAfterDelete (routeId : String) (t : RouteTable Component) : RouteTable Component :=
  evict routeId { t with routes := t.routes.filter (fun r => r.id != routeId) }

/-- The first row of the route's id gives way to the route; without one it is added. -/
def replaceRow (route : Route) : List Route → List Route
  | [] => [route]
  | r :: rest => if r.id = route.id then route :: rest else r :: replaceRow route rest

def replaceRoute (route : Route) (t : RouteTable Component) : RouteTable Component :=
  { t with routes := replaceRow route t.routes }

def refreshAfterUpdate (route : Route) (t : RouteTable Component) : RouteTable Component :=
  (t.replaceRoute route).evict route.id

def idsOfGroup (groupId : String) (t : RouteTable Component) : List String :=
  (t.routes.filter (fun r => r.groupId == groupId)).map Route.id

def refreshAfterGroupCascade (groupId : String) (t : RouteTable Component) :
    RouteTable Component :=
  let toDrop := t.idsOfGroup groupId
  let t := evictAll toDrop { t with routes := t.routes.filter (fun r => r.groupId != groupId) }
  { t with revalidatedAt := t.revalidatedAt.erase groupId }

def refreshAfterGroupRename (groupId newName : String) (t : RouteTable Component) :
    RouteTable Component :=
  { t with
    routes := t.routes.map
      (fun r => if r.groupId = groupId then { r with groupName := newName } else r) }

end RouteTable

/-- The refresh of the table that a committed change calls for. -/
inductive Refresh where
  | none
  | create (route : Route)
  | update (route : Route)
  | delete (groupId routeId : String)
  | cascade (groupId : String)
  | rename (groupId newName : String)
  deriving DecidableEq, Repr

namespace Refresh
variable {Component : Type}

def apply (t : RouteTable Component) : Refresh → RouteTable Component
  | .none => t
  | .create route => t.refreshAfterCreate route
  | .update route => t.refreshAfterUpdate route
  | .delete _ routeId => t.refreshAfterDelete routeId
  | .cascade groupId => t.refreshAfterGroupCascade groupId
  | .rename groupId newName => t.refreshAfterGroupRename groupId newName

/-- The invalidation that a refresh publishes to the other replicas. -/
def published (t : RouteTable Component) : Refresh → Option RouteInvalidation
  | .none => Option.none
  | .create route => some ⟨route.groupId, []⟩
  | .update route => some ⟨route.groupId, [route.id]⟩
  | .delete groupId routeId => some ⟨groupId, [routeId]⟩
  | .cascade groupId => some ⟨groupId, t.idsOfGroup groupId⟩
  | .rename groupId _ => some ⟨groupId, []⟩

/-- What a refresh makes of the rows of a table. -/
def rows (routes : List Route) : Refresh → List Route
  | .none => routes
  | .create route => routes ++ [route]
  | .update route => RouteTable.replaceRow route routes
  | .delete _ routeId => routes.filter (fun r => r.id != routeId)
  | .cascade groupId => routes.filter (fun r => r.groupId != groupId)
  | .rename groupId newName => routes.map
      (fun r => if r.groupId = groupId then { r with groupName := newName } else r)

end Refresh

section Rows
variable {Component : Type}

@[simp] theorem routes_evict (routeId : String) (t : RouteTable Component) :
    (t.evict routeId).routes = t.routes := rfl

@[simp] theorem routes_evictAll (routeIds : List String) (t : RouteTable Component) :
    (t.evictAll routeIds).routes = t.routes := by
  unfold RouteTable.evictAll
  induction routeIds generalizing t with
  | nil => rfl
  | cons id rest ih => exact ih (t.evict id)

@[simp] theorem routes_apply (t : RouteTable Component) (refresh : Refresh) :
    (refresh.apply t).routes = refresh.rows t.routes := by
  cases refresh with
  | cascade groupId => exact routes_evictAll _ _
  | _ => rfl

end Rows

end WireMirage
