import WireMirage.Library.Notices
import WireMirage.Table.Matching

/-!
Replicas of the host over one store. Each keeps a table of its own, hears of the changes made
at the others by invalidations that may come in any order or be lost, and reads a group again
when a request finds no route. An operation on a table holds no lock from one step to the next.
-/
namespace WireMirage
open Prog StepMachine RouteTable Notices

/-- A posted invalidation, with the replica that posted it. -/
structure Notice where
  origin : Nat
  event : RouteInvalidation
  deriving DecidableEq, Repr

/-- The subscription of a replica: nothing is taken up before the table is read again. -/
structure Subscription where
  resynced : Bool
  inbox : Inbox Notice

/-- An operation on a table that has not ended, by what it has committed, read or built. -/
inductive Underway (Component : Type) where
  | refreshing (refresh : Refresh)
  | announcing (event : RouteInvalidation)
  | resyncing (read : Except RegistryError (List Route))
  | evicted (notice : Notice)
  | applying (event : RouteInvalidation) (read : Except RegistryError (List Route))
  | resolving (label method path : String)
  | reading (group : Group) (method path : String)
  | revalidating (group : Group) (method path : String) (read : Except RegistryError (List Route))
  | rematching (group : Group) (method path : String)
  | compiled (route : Route) (component : Component)
  | transpiled (route : Route) (js : String)

structure Replica (Component : Type) where
  table : RouteTable Component
  subscription : Option Subscription
  underway : List (Underway Component)

structure Cluster (Component : Type) where
  store : Store
  minted : List String
  replicas : Nat → Option (Replica Component)

/-- What a request to a group's subdomain comes to. -/
inductive Resolution where
  | matched (found : MatchedRoute)
  | unknownGroup
  | unmatched (group : Group)
  deriving DecidableEq, Repr

inductive ClusterAction where
  | start (i : Nat) (revalidateInterval : Nat)
  | stop (i : Nat)
  | call (i : Nat) (m : Mutation)
  | subscribe (i : Nat)
  | resync (i : Nat)
  | receive (i k : Nat)
  | lose (i k : Nat)
  | disconnect (i : Nat)
  | request (i : Nat) (label method path : String)
  | compile (i : Nat) (route : Route)
  | transpile (i : Nat) (route : Route)
  | proceed (i k now : Nat)

section
variable {Component : Type}

/-! The steps of an operation -/

namespace Underway

/-- The component of a route is built where none is cached. -/
def compile (tools : Toolchain Component) (route : Route) (t : RouteTable Component) :
    Option (Underway Component) :=
  match t.components.lookup route.id with
  | some _ => none
  | none => (tools.fromBinary route.compiledWasm).map (.compiled route)

/-- The source of a route is transpiled where nothing is cached. -/
def transpile (tools : Toolchain Component) (route : Route) (t : RouteTable Component) :
    Option (Underway Component) :=
  match route.source, t.engineJs.lookup route.id with
  | some source, none => (tools.transpile source).toOption.map (.transpiled route)
  | _, _ => none

/-- The table once what an operation has committed, read or built is written to it. -/
def write (t : RouteTable Component) : Underway Component → RouteTable Component
  | .refreshing refresh => refresh.apply t
  | .resyncing read => t.reloadAll read
  | .applying event read => (t.reloadGroup event.groupId read).2
  | .revalidating group _ _ read => (t.reloadGroup group.id read).2
  | .compiled route component => t.insertComponent route.id component
  | .transpiled route js => t.insertEngineJs route.id js
  | _ => t

/-- One step of an operation: what is left of it then, and the table. -/
def advance [UlidText] (store : Store) (now : Nat) (t : RouteTable Component) :
    Underway Component → Option (Underway Component) × RouteTable Component
  | .refreshing refresh => ((refresh.published t).map .announcing, refresh.apply t)
  | .evicted notice =>
    (some (.applying notice.event (run (routesInGroup notice.event.groupId) store).1), t)
  | .applying event read =>
    let written := t.reloadGroup event.groupId read
    (none, written.2.noteReload event.groupId now written.1)
  | .resolving label method path =>
    match (run (readGroupByRef label) store).1 with
    | .error _ => (none, t)
    | .ok group =>
      match t.claimRevalidation group.id now with
      | none => (none, t)
      | some claimed => (some (.reading group method path), claimed)
  | .reading group method path =>
    (some (.revalidating group method path (run (routesInGroup group.id) store).1), t)
  | .revalidating group method path read =>
    let written := t.reloadGroup group.id read
    (if written.1 then some (.rematching group method path) else none, written.2)
  | u => (none, u.write t)

/-- What a request is answered with where its lookup ends with a step. -/
def answer [UlidText] (store : Store) (now : Nat) (t : RouteTable Component) :
    Underway Component → Option Resolution
  | .resolving label _ _ =>
    match (run (readGroupByRef label) store).1 with
    | .error _ => some .unknownGroup
    | .ok group => if (t.claimRevalidation group.id now).isSome then none
      else some (.unmatched group)
  | .revalidating group _ _ read =>
    if (t.reloadGroup group.id read).1 then none else some (.unmatched group)
  | .rematching group method path =>
    match findMatchFiltered t.routes (some group.name) method path with
    | some found => some (.matched found)
    | none => some (.unmatched group)
  | _ => none

/-- The subscription of a replica after the step; a table that is read again is resynced. -/
def heard (subscription : Option Subscription) : Underway Component → Option Subscription
  | .resyncing _ => subscription.map (fun sub => { sub with resynced := true })
  | _ => subscription

def posts (i : Nat) : Underway Component → Option Notice
  | .announcing event => some ⟨i, event⟩
  | _ => none

end Underway

section Whole
variable [UlidText] (tools : Toolchain Component) (t : RouteTable Component)

/-- With nothing in between, the steps of an operation are what the table does in one. -/
theorem stages_whole (store : Store) (now : Nat) :
    (∀ notice : Notice, t.applyInvalidation notice.event now
        (run (routesInGroup notice.event.groupId) store).1 =
      ((Underway.applying notice.event (run (routesInGroup notice.event.groupId) store).1).advance
        store now (t.evictAll notice.event.routeIds)).2) ∧
    (∀ (group : Group) (method path : String) (read : Except RegistryError (List Route)),
      (t.revalidateAndRematch group.id group.name method path now read).2 =
        (t.claimRevalidation group.id now).elim t (fun claimed =>
          ((Underway.revalidating group method path read).advance store now claimed).2)) ∧
    (∀ route, (t.componentFor tools route).2 =
      (Underway.compile tools route t).elim t (fun u => (u.advance store now t).2)) ∧
    ∀ route, (t.engineSourceFor tools route).2 =
      (Underway.transpile tools route t).elim t (fun u => (u.advance store now t).2) := by
  refine ⟨fun _ => rfl, ?_, ?_, ?_⟩
  · intro group method path read
    unfold revalidateAndRematch revalidateGroup
    cases t.claimRevalidation group.id now with
    | none => rfl
    | some claimed => cases read <;> rfl
  · intro route
    unfold componentFor Underway.compile
    cases t.components.lookup route.id with
    | some x => rfl
    | none => cases tools.fromBinary route.compiledWasm <;> rfl
  · intro route
    unfold engineSourceFor Underway.transpile
    cases route.source with
    | none => rfl
    | some source =>
      cases t.engineJs.lookup route.id with
      | some js => rfl
      | none =>
        cases built : tools.transpile source with
        | error e => simp [built, Except.toOption]
        | ok js => simp [built, Except.toOption]; rfl

end Whole

/-! The steps of a cluster -/

namespace Subscription

def post (n : Notice) (subscription : Subscription) : Subscription :=
  { subscription with inbox := subscription.inbox.post n }

end Subscription

namespace Replica

/-- A replica after what another one, or it itself, has published. -/
def told (n : Notice) (r : Replica Component) : Replica Component :=
  { r with subscription := r.subscription.map (Subscription.post n) }

def begin (u : Underway Component) (r : Replica Component) : Replica Component :=
  { r with underway := r.underway ++ [u] }

end Replica

namespace Cluster

def set (s : Cluster Component) (i : Nat) (r : Option (Replica Component)) : Cluster Component :=
  { s with replicas := fun j => if j = i then r else s.replicas j }

def post (s : Cluster Component) (n : Notice) : Cluster Component :=
  { s with replicas := fun j => (s.replicas j).map (Replica.told n) }

variable [UlidText] (tools : Toolchain Component)

/-- A step of one of the operations that are under way at a replica. -/
def proceed (s : Cluster Component) (i k now : Nat) (r : Replica Component)
    (u : Underway Component) : Cluster Component :=
  let stepped := u.advance s.store now r.table
  let left := stepped.1.elim (r.underway.eraseIdx k) (fun v => r.underway.set k v)
  let moved := s.set i (some ⟨stepped.2, u.heard r.subscription, left⟩)
  (u.posts i).elim moved moved.post

def step (s : Cluster Component) : ClusterAction → Option (Cluster Component)
  | .start i interval =>
    match s.replicas i, (run listRoutes s.store).1 with
    | none, .ok routes => some (s.set i (some ⟨warm routes interval, none, []⟩))
    | _, _ => none
  | .stop i => some (s.set i none)
  | .call i m =>
    if m.draws.Nodup ∧ ∀ id ∈ m.draws, Drawable s.minted id then
      match s.replicas i, run m.commit s.store with
      | some r, (.ok refresh, store) =>
        some { s.set i (some (r.begin (.refreshing refresh))) with
          store := store
          minted := m.draws ++ s.minted }
      | _, _ => none
    else none
  | .subscribe i =>
    match s.replicas i with
    | some ⟨t, none, underway⟩ => some (s.set i (some ⟨t, some ⟨false, .empty⟩, underway⟩))
    | _ => none
  | .resync i =>
    match s.replicas i with
    | some ⟨t, some ⟨false, inbox⟩, underway⟩ =>
      some (s.set i (some ⟨t, some ⟨false, inbox.settle⟩,
        underway ++ [.resyncing (run listRoutes s.store).1]⟩))
    | _ => none
  | .receive i k =>
    match s.replicas i with
    | some ⟨t, some ⟨true, inbox⟩, underway⟩ =>
      (inbox.take k).map (fun taken =>
        s.set i (some ⟨t.evictAll taken.1.event.routeIds, some ⟨true, taken.2⟩,
          underway ++ [.evicted taken.1]⟩))
    | _ => none
  | .lose i k =>
    match s.replicas i with
    | some ⟨t, some ⟨resynced, inbox⟩, underway⟩ =>
      (inbox.miss k).map (fun missed => s.set i (some ⟨t, some ⟨resynced, missed⟩, underway⟩))
    | _ => none
  | .disconnect i => some (s.set i ((s.replicas i).map (fun r => { r with subscription := none })))
  | .request i label method path =>
    (s.replicas i).map (fun r =>
      match r.table.findMatchInGroup label method path with
      | some _ => s
      | none => s.set i (some (r.begin (.resolving label method path))))
  -- The route of a compilation or a transpilation is the row that a request has just matched.
  | .compile i route =>
    (s.replicas i).bind (fun r =>
      if route ∈ r.table.routes then
        (Underway.compile tools route r.table).map (fun u => s.set i (some (r.begin u)))
      else none)
  | .transpile i route =>
    (s.replicas i).bind (fun r =>
      if route ∈ r.table.routes then
        (Underway.transpile tools route r.table).map (fun u => s.set i (some (r.begin u)))
      else none)
  | .proceed i k now =>
    (s.replicas i).bind (fun r => r.underway[k]?.map (s.proceed i k now r))

end Cluster

/-- Replicas over one store of the distributed backend; a commit, and each read of the store,
    is one step. -/
def cluster [UlidText] (tools : Toolchain Component) :
    Machine (Cluster Component) ClusterAction where
  start s := s = ⟨Storage.empty .valkey, [], fun _ => none⟩
  step := Cluster.step tools

/-- The replica at which an action begins or breaks off an operation on the table. -/
def ClusterAction.touches : ClusterAction → Option Nat
  | .stop i => some i
  | .call i _ => some i
  | .subscribe i => some i
  | .resync i => some i
  | .receive i _ => some i
  | .request i _ _ _ => some i
  | .compile i _ => some i
  | .transpile i _ => some i
  | _ => none

/-- One operation at a time on every table: the steps of those of one replica do not mix. -/
def Cluster.orderly (s : Cluster Component) (a : ClusterAction) : Bool :=
  a.touches.all (fun i => (s.replicas i).all (fun r => r.underway.isEmpty))

/-! What a committed change spoils -/

/-- What an artifact is built from. -/
def SameContent (q r : Route) : Prop :=
  q.id = r.id ∧ q.source = r.source ∧ q.compiledWasm = r.compiledWasm

theorem sameContent_renamed (gid newName : String) (r : Route) :
    SameContent r (Catalog.renamedRoute gid newName r) := by
  unfold Catalog.renamedRoute
  split <;> exact ⟨rfl, rfl, rfl⟩

namespace Refresh

/-- The group that the rows of a refresh belong to. -/
def group : Refresh → Option String
  | .none => Option.none
  | .create route => some route.groupId
  | .update route => some route.groupId
  | .delete groupId _ => some groupId
  | .cascade groupId => some groupId
  | .rename groupId _ => some groupId

end Refresh

theorem published_group {t : RouteTable Component} {refresh : Refresh} {event : RouteInvalidation}
    (posted : refresh.published t = some event) : refresh.group = some event.groupId := by
  cases refresh with
  | none => cases posted
  | create route => cases posted; rfl
  | update route => cases posted; rfl
  | delete gid rid => cases posted; rfl
  | cascade gid => cases posted; rfl
  | rename gid newName => cases posted; rfl

theorem published_of_group {refresh : Refresh} {gid : String} (touched : refresh.group = some gid)
    (t : RouteTable Component) :
    ∃ event, refresh.published t = some event ∧ event.groupId = gid := by
  cases refresh with
  | none => cases touched
  | create route => cases touched; exact ⟨_, rfl, rfl⟩
  | update route => cases touched; exact ⟨_, rfl, rfl⟩
  | delete gid rid => cases touched; exact ⟨_, rfl, rfl⟩
  | cascade gid => cases touched; exact ⟨_, rfl, rfl⟩
  | rename gid newName => cases touched; exact ⟨_, rfl, rfl⟩

section Committed
variable {c d : Catalog} {refresh : Refresh}

theorem committed_minted (committed : Committed c refresh d) :
    ∀ id ∈ c.minted, id ∈ d.minted := by
  intro id old
  cases committed with
  | group new => exact List.mem_cons_of_mem _ old
  | route place new =>
    apply List.mem_cons_of_mem
    rcases place with rfl | ⟨g, _, rfl⟩
    · exact old
    · exact List.mem_cons_of_mem _ old
  | update => exact old
  | delete live => exact old
  | rename live => exact old
  | keep live => exact old
  | cascade live => exact old

/-- The catalog that a new route is put in has the routes of the one before. -/
theorem place_routes {r : Route} {e : Catalog}
    (place : e = c ∨ ∃ g : Group, g.id ∉ c.minted ∧ e = (c.mint g.id).setGroup g) :
    e.routes = c.routes ∧ (r.id ∉ e.minted → r.id ∉ c.minted) := by
  rcases place with rfl | ⟨g, _, rfl⟩
  · exact ⟨rfl, id⟩
  · exact ⟨rfl, fun new old => new (List.mem_cons_of_mem _ old)⟩

/-- Routes of other groups stay as they are. -/
theorem committed_elsewhere (sound : c.Sound) (committed : Committed c refresh d) {r : Route}
    (other : refresh.group ≠ some r.groupId) :
    d.routes r.id = some r ↔ c.routes r.id = some r := by
  cases committed with
  | group new => rfl
  | @route q e place new =>
    obtain ⟨routes, unseen⟩ := place_routes (r := q) place
    show (if r.id = q.id then some q else e.routes r.id) = some r ↔ _
    rw [routes]
    split
    · rename_i same
      have absent := sound.absent_route (unseen new)
      rw [same, absent]
      refine iff_of_false ?_ (by simp)
      rintro ⟨⟩
      exact other rfl
    · rfl
  | @update old q before id home =>
    show (if r.id = q.id then some q else c.routes r.id) = some r ↔ _
    split
    · rename_i same
      rw [same, id, before, Option.some.injEq, Option.some.injEq]
      refine iff_of_false ?_ ?_
      · rintro rfl
        exact other rfl
      · rintro rfl
        exact other (congrArg some home)
    · rfl
  | @delete q live =>
    show (if r.id = q.id then none else c.routes r.id) = some r ↔ _
    split
    · rename_i same
      rw [same, live, Option.some.injEq]
      refine iff_of_false (by simp) ?_
      rintro rfl
      exact other rfl
    · rfl
  | @rename g newName live =>
    have away : r.groupId ≠ g.id := fun here => other (congrArg some here.symm)
    rw [Catalog.renameGroup_routes]
    constructor
    · rintro ⟨q, before, rfl⟩
      have there : q.groupId ≠ g.id := by
        rw [← (Catalog.renamedRoute_same g.id newName q).2.1]
        exact away
      unfold Catalog.renamedRoute at before ⊢
      rw [if_neg there] at before ⊢
      exact before
    · intro before
      exact ⟨r, before, if_neg away⟩
  | keep live => rfl
  | @cascade g live =>
    rw [Catalog.dropGroup_routes]
    exact and_iff_left (fun here => other (congrArg some here.symm))

/-- A route that was there and is there keeps its group, and its content unless it is the one
    that was updated. -/
theorem committed_content (committed : Committed c refresh d) {id : String}
    {r : Route} (old : id ∈ c.minted) (live : d.routes id = some r) :
    ∃ q, c.routes id = some q ∧ q.groupId = r.groupId ∧
      (SameContent q r ∨ refresh = .update r) := by
  cases committed with
  | group new => exact ⟨r, live, rfl, .inl ⟨rfl, rfl, rfl⟩⟩
  | @route q e place new =>
    obtain ⟨routes, unseen⟩ := place_routes (r := q) place
    change (if id = q.id then some q else e.routes id) = some r at live
    rw [routes] at live
    split at live
    · rename_i same
      exact absurd (same ▸ old) (unseen new)
    · exact ⟨r, live, rfl, .inl ⟨rfl, rfl, rfl⟩⟩
  | @update before q found same home =>
    change (if id = q.id then some q else c.routes id) = some r at live
    split at live
    · rename_i here
      cases live
      rw [same] at here
      exact ⟨before, here ▸ found, home.symm, .inr rfl⟩
    · exact ⟨r, live, rfl, .inl ⟨rfl, rfl, rfl⟩⟩
  | @delete q found =>
    change (if id = q.id then none else c.routes id) = some r at live
    split at live
    · cases live
    · exact ⟨r, live, rfl, .inl ⟨rfl, rfl, rfl⟩⟩
  | @rename g newName found =>
    obtain ⟨q, before, rfl⟩ := Catalog.renameGroup_routes.mp live
    exact ⟨q, before, (Catalog.renamedRoute_same g.id newName q).2.1.symm,
      .inl (sameContent_renamed g.id newName q)⟩
  | keep found => exact ⟨r, live, rfl, .inl ⟨rfl, rfl, rfl⟩⟩
  | cascade found =>
    exact ⟨r, (Catalog.dropGroup_routes.mp live).1, rfl, .inl ⟨rfl, rfl, rfl⟩⟩

end Committed

/-! A table against a catalog, item by item -/

inductive Item where
  | group (id : String)
  | route (id : String)

namespace Notice

/-- A change made at another replica spoils the group, and the routes it names. -/
def Concerns (i : Nat) (n : Notice) : Item → Prop
  | .group gid => n.origin ≠ i ∧ n.event.groupId = gid
  | .route rid => n.origin ≠ i ∧ rid ∈ n.event.routeIds

end Notice

/-- What a table has built for a route is what it would build from this record. -/
structure BuiltFrom (tools : Toolchain Component) (t : RouteTable Component) (r : Route) :
    Prop where
  component : ∀ x, t.components.lookup r.id = some x → tools.fromBinary r.compiledWasm = some x
  engineJs : ∀ js, t.engineJs.lookup r.id = some js →
    ∃ source, r.source = some source ∧ tools.transpile source = .ok js

/-- The rows of a group are its routes; the row and the artifacts of a route are of its record. -/
def Good (tools : Toolchain Component) (c : Catalog) (t : RouteTable Component) : Item → Prop
  | .group gid => ∀ r : Route, r.groupId = gid → (r ∈ t.routes ↔ c.routes r.id = some r)
  | .route rid => ∀ r, c.routes rid = some r →
      (∀ q ∈ t.routes, q.id = rid → SameContent q r) ∧ BuiltFrom tools t r

/-- What holds of a table however far behind it is. -/
structure Placed (c : Catalog) (t : RouteTable Component) : Prop where
  distinct : (t.routes.map Route.id).Nodup
  known : ∀ q ∈ t.routes, q.id ∈ c.minted
  home : ∀ q ∈ t.routes, ∀ r, c.routes q.id = some r → q.groupId = r.groupId
  components : ∀ rid x, t.components.lookup rid = some x → rid ∈ c.minted
  engineJs : ∀ rid js, t.engineJs.lookup rid = some js → rid ∈ c.minted

section Artifacts
variable (t : RouteTable Component) (ids : List String) (rid : String)

theorem components_evictAll : (t.evictAll ids).components.lookup rid =
    if rid ∈ ids then none else t.components.lookup rid := by
  unfold evictAll
  induction ids generalizing t with
  | nil => rfl
  | cons id rest ih =>
    rw [List.foldl_cons, ih]
    by_cases here : rid = id
    · subst here
      simp [evict, AList.lookup_erase]
    · simp [evict, here, AList.lookup_erase_ne here]

theorem engineJs_evictAll : (t.evictAll ids).engineJs.lookup rid =
    if rid ∈ ids then none else t.engineJs.lookup rid := by
  unfold evictAll
  induction ids generalizing t with
  | nil => rfl
  | cons id rest ih =>
    rw [List.foldl_cons, ih]
    by_cases here : rid = id
    · subst here
      simp [evict, AList.lookup_erase]
    · simp [evict, here, AList.lookup_erase_ne here]

/-- The artifacts that a refresh drops. -/
def Refresh.drops (t : RouteTable Component) : Refresh → List String
  | .update route => [route.id]
  | .delete _ routeId => [routeId]
  | .cascade groupId => t.idsOfGroup groupId
  | _ => []

theorem components_apply (refresh : Refresh) : (refresh.apply t).components.lookup rid =
    if rid ∈ refresh.drops t then none else t.components.lookup rid := by
  cases refresh with
  | update route => exact components_evictAll (t.replaceRoute route) [route.id] rid
  | delete gid id =>
    exact components_evictAll { t with routes := t.routes.filter (fun r => r.id != id) } [id] rid
  | cascade gid => exact components_evictAll { t with routes := _ } _ rid
  | _ => rfl

theorem engineJs_apply (refresh : Refresh) : (refresh.apply t).engineJs.lookup rid =
    if rid ∈ refresh.drops t then none else t.engineJs.lookup rid := by
  cases refresh with
  | update route => exact engineJs_evictAll (t.replaceRoute route) [route.id] rid
  | delete gid id =>
    exact engineJs_evictAll { t with routes := t.routes.filter (fun r => r.id != id) } [id] rid
  | cascade gid => exact engineJs_evictAll { t with routes := _ } _ rid
  | _ => rfl

end Artifacts

/-- What was built from a record was built from any other with the same content. -/
theorem builtFrom_same {tools : Toolchain Component} {t : RouteTable Component} {q r : Route}
    (same : SameContent q r) (built : BuiltFrom tools t q) : BuiltFrom tools t r := by
  obtain ⟨id, source, wasm⟩ := same
  constructor
  · intro x held
    rw [← wasm]
    exact built.component x (id ▸ held)
  · intro js held
    rw [← source]
    exact built.engineJs js (id ▸ held)

theorem builtFrom_fewer {tools : Toolchain Component} {t t' : RouteTable Component} {r : Route}
    (built : BuiltFrom tools t r)
    (components : ∀ x, t'.components.lookup r.id = some x → t.components.lookup r.id = some x)
    (engineJs : ∀ x, t'.engineJs.lookup r.id = some x → t.engineJs.lookup r.id = some x) :
    BuiltFrom tools t' r :=
  ⟨fun x held => built.component x (components x held),
    fun js held => built.engineJs js (engineJs js held)⟩

theorem sameContent_trans {p q r : Route} (one : SameContent p q) (two : SameContent q r) :
    SameContent p r :=
  ⟨one.1.trans two.1, one.2.1.trans two.2.1, one.2.2.trans two.2.2⟩

/-! Changes made elsewhere -/

section Elsewhere
variable {tools : Toolchain Component} {c d : Catalog} {refresh : Refresh}
  {t : RouteTable Component}

theorem placed_committed (committed : Committed c refresh d)
    (placed : Placed c t) : Placed d t where
  distinct := placed.distinct
  known q row := committed_minted committed _ (placed.known q row)
  home q row r live := by
    obtain ⟨old, before, home, _⟩ :=
      committed_content committed (placed.known q row) live
    exact (placed.home q row old before).trans home
  components rid x held := committed_minted committed _ (placed.components rid x held)
  engineJs rid js held := committed_minted committed _ (placed.engineJs rid js held)

/-- A change spoils no item that its invalidation does not concern. -/
theorem good_committed (sound : c.Sound) (after : d.Sound) (committed : Committed c refresh d)
    (placed : Placed c t) (item : Item) (good : Good tools c t item) : Good tools d t item ∨
      (∃ gid, item = .group gid ∧ refresh.group = some gid) ∨
      ∃ r, item = .route r.id ∧ refresh = .update r := by
  cases item with
  | group gid =>
    by_cases touched : refresh.group = some gid
    · exact .inr (.inl ⟨gid, rfl, touched⟩)
    · refine .inl ?_
      intro r home
      rw [good r home, committed_elsewhere sound committed (home ▸ touched)]
  | route rid =>
    by_cases updated : ∃ r, rid = r.id ∧ refresh = .update r
    · obtain ⟨r, rfl, same⟩ := updated
      exact .inr (.inr ⟨r, rfl, same⟩)
    · refine .inl ?_
      intro r live
      by_cases old : rid ∈ c.minted
      · obtain ⟨q, before, _, same | update⟩ := committed_content committed old live
        · obtain ⟨rows, built⟩ := good q before
          exact ⟨fun x row here => sameContent_trans (rows x row here) same,
            builtFrom_same same built⟩
        · exact absurd ⟨r, (after.routeId live).symm, update⟩ updated
      · -- nothing is kept of a route that was not there
        have id := after.routeId live
        refine ⟨?_, ?_, ?_⟩
        · rintro q row rfl
          exact absurd (placed.known q row) old
        · intro x held
          exact absurd (placed.components rid x (id ▸ held)) old
        · intro js held
          exact absurd (placed.engineJs rid js (id ▸ held)) old

end Elsewhere

/-! Changes made here -/

section Here
variable {tools : Toolchain Component} {c d : Catalog} {refresh : Refresh}
  {t : RouteTable Component}

theorem mem_rows_update {r x : Route} (distinct : (t.routes.map Route.id).Nodup) :
    x ∈ (Refresh.update r).rows t.routes ↔ x = r ∨ x ∈ t.routes ∧ x.id ≠ r.id :=
  mem_replaceRow distinct x

/-- Where a row of a refreshed table comes from. -/
theorem rows_apply (distinct : (t.routes.map Route.id).Nodup) {x : Route}
    (row : x ∈ refresh.rows t.routes) : refresh = .create x ∨ refresh = .update x ∨
      ∃ q ∈ t.routes, q.id = x.id ∧ q.groupId = x.groupId ∧ SameContent q x ∧
        (∀ r, refresh = .update r → x.id ≠ r.id) := by
  cases refresh with
  | none => exact .inr (.inr ⟨x, row, rfl, rfl, ⟨rfl, rfl, rfl⟩, fun _ same => by cases same⟩)
  | create r =>
    rcases List.mem_append.mp row with old | new
    · exact .inr (.inr ⟨x, old, rfl, rfl, ⟨rfl, rfl, rfl⟩, fun _ same => by cases same⟩)
    · rw [List.mem_singleton] at new
      exact .inl (congrArg Refresh.create new.symm)
  | update r =>
    rcases (mem_rows_update distinct).mp row with rfl | ⟨old, other⟩
    · exact .inr (.inl rfl)
    · refine .inr (.inr ⟨x, old, rfl, rfl, ⟨rfl, rfl, rfl⟩, ?_⟩)
      rintro _ ⟨⟩
      exact other
  | delete gid rid =>
    exact .inr (.inr ⟨x, (List.mem_filter.mp row).1, rfl, rfl, ⟨rfl, rfl, rfl⟩,
      fun _ same => by cases same⟩)
  | cascade gid =>
    exact .inr (.inr ⟨x, (List.mem_filter.mp row).1, rfl, rfl, ⟨rfl, rfl, rfl⟩,
      fun _ same => by cases same⟩)
  | rename gid newName =>
    obtain ⟨q, old, rfl⟩ := List.mem_map.mp row
    obtain ⟨id, home, _, _⟩ := Catalog.renamedRoute_same gid newName q
    exact .inr (.inr ⟨q, old, id.symm, home.symm, sameContent_renamed gid newName q,
      fun _ same => by cases same⟩)

theorem distinct_apply (distinct : (t.routes.map Route.id).Nodup)
    (new : ∀ r, refresh = .create r → ∀ q ∈ t.routes, q.id ≠ r.id) :
    ((refresh.apply t).routes.map Route.id).Nodup := by
  rw [routes_apply]
  cases refresh with
  | none => exact distinct
  | create r =>
    show ((t.routes ++ [r]).map Route.id).Nodup
    rw [List.map_append, List.nodup_append]
    refine ⟨distinct, by simp, ?_⟩
    rintro rid member other here rfl
    obtain ⟨q, row, same⟩ := List.mem_map.mp member
    exact new r rfl q row (same.trans (by simpa using here))
  | update r =>
    show ((replaceRow r t.routes).map Route.id).Nodup
    rw [ids_replaceRow]
    split
    · exact distinct
    · rename_i absent
      rw [List.nodup_append]
      refine ⟨distinct, by simp, ?_⟩
      rintro rid member other here rfl
      have same : rid = r.id := by simpa using here
      exact absent (same ▸ member)
  | delete gid rid => exact distinct.sublist (List.filter_sublist.map Route.id)
  | cascade gid => exact distinct.sublist (List.filter_sublist.map Route.id)
  | rename gid newName =>
    show ((t.routes.map (Catalog.renamedRoute gid newName)).map Route.id).Nodup
    have ids : Route.id ∘ Catalog.renamedRoute gid newName = Route.id := by
      funext r
      exact (Catalog.renamedRoute_same gid newName r).1
    rw [List.map_map, ids]
    exact distinct

/-- The record that a refresh brings is the one that was committed. -/
theorem committed_live (sound : c.Sound) (committed : Committed c refresh d) {r : Route}
    (brought : refresh = .create r ∨ refresh = .update r) :
    d.routes r.id = some r ∧ r.id ∈ d.minted ∧ (refresh = .create r → r.id ∉ c.minted) := by
  rcases brought with rfl | rfl
  · cases committed with
    | @route _ e place new =>
      exact ⟨if_pos rfl, List.mem_cons_self, fun _ => (place_routes place).2 new⟩
  · cases committed with
    | @update old _ before id =>
      exact ⟨if_pos rfl, id ▸ sound.mintedRoute before, fun other => by cases other⟩

theorem placed_apply (sound : c.Sound) (committed : Committed c refresh d) (placed : Placed c t) :
    Placed d (refresh.apply t) where
  distinct := by
    refine distinct_apply placed.distinct ?_
    rintro r same q row id
    exact (committed_live sound committed (.inl same)).2.2 same (id ▸ placed.known q row)
  known := by
    intro x row
    rw [routes_apply] at row
    rcases rows_apply placed.distinct row with new | updated | ⟨q, old, id, _⟩
    · exact (committed_live sound committed (.inl new)).2.1
    · exact (committed_live sound committed (.inr updated)).2.1
    · exact committed_minted committed _ (id ▸ placed.known q old)
  home := by
    intro x row r live
    rw [routes_apply] at row
    rcases rows_apply placed.distinct row with new | updated | ⟨q, old, id, group, _⟩
    · rw [(committed_live sound committed (.inl new)).1, Option.some.injEq] at live
      rw [live]
    · rw [(committed_live sound committed (.inr updated)).1, Option.some.injEq] at live
      rw [live]
    · rw [← id] at live
      obtain ⟨was, before, home, _⟩ :=
        committed_content committed (placed.known q old) live
      rw [← group, placed.home q old was before, home]
  components := by
    intro rid x held
    rw [components_apply] at held
    split at held
    · cases held
    · exact committed_minted committed _ (placed.components rid x held)
  engineJs := by
    intro rid js held
    rw [engineJs_apply] at held
    split at held
    · cases held
    · exact committed_minted committed _ (placed.engineJs rid js held)

theorem mem_refreshed (sound : c.Sound) (committed : Committed c refresh d) (placed : Placed c t)
    {gid : String} (good : Good tools c t (.group gid)) {r : Route} (home : r.groupId = gid) :
    r ∈ refresh.rows t.routes ↔ d.routes r.id = some r := by
  have before := good r home
  cases committed with
  | group new => exact before
  | @route q e place new =>
    obtain ⟨routes, unseen⟩ := place_routes (r := q) place
    show r ∈ t.routes ++ [q] ↔ (if r.id = q.id then some q else e.routes r.id) = some r
    rw [routes, List.mem_append, List.mem_singleton]
    by_cases here : r.id = q.id
    · have absent : r ∉ t.routes := fun row => unseen new (here ▸ placed.known r row)
      rw [if_pos here, or_iff_right absent, Option.some.injEq, eq_comm]
    · have other : r ≠ q := fun same => here (same ▸ rfl)
      rw [if_neg here, or_iff_left other, before]
  | @update old q found id group =>
    show r ∈ (Refresh.update q).rows t.routes ↔
      (if r.id = q.id then some q else c.routes r.id) = some r
    rw [mem_rows_update placed.distinct]
    by_cases here : r.id = q.id
    · rw [if_pos here, or_iff_left (fun other => other.2 here), Option.some.injEq, eq_comm]
    · have other : r ≠ q := fun same => here (same ▸ rfl)
      rw [if_neg here, or_iff_right other, and_iff_left here, before]
  | @delete q live =>
    show r ∈ t.routes.filter (fun x => x.id != q.id) ↔
      (if r.id = q.id then none else c.routes r.id) = some r
    rw [List.mem_filter, before]
    by_cases here : r.id = q.id <;> simp [here]
  | @rename g newName live =>
    show r ∈ t.routes.map (Catalog.renamedRoute g.id newName) ↔ _
    rw [List.mem_map, Catalog.renameGroup_routes]
    have same : ∀ q, Catalog.renamedRoute g.id newName q = r → q.groupId = gid ∧ q.id = r.id := by
      rintro q rfl
      obtain ⟨id, group, _, _⟩ := Catalog.renamedRoute_same g.id newName q
      exact ⟨group.symm.trans home, id.symm⟩
    constructor
    · rintro ⟨q, row, renamed⟩
      obtain ⟨group, id⟩ := same q renamed
      exact ⟨q, id ▸ (good q group).mp row, renamed⟩
    · rintro ⟨q, found, renamed⟩
      obtain ⟨group, id⟩ := same q renamed
      exact ⟨q, (good q group).mpr (id ▸ found), renamed⟩
  | @keep g live =>
    show r ∈ t.routes.map (Catalog.renamedRoute g.id g.name) ↔ c.routes r.id = some r
    -- a name that a group already has is the one its routes carry
    have carried : ∀ q, q.groupId = gid → c.routes q.id = some q →
        Catalog.renamedRoute g.id g.name q = q := by
      intro q _ found
      unfold Catalog.renamedRoute
      split
      · rename_i inside
        obtain ⟨h, record, name⟩ := sound.parent found
        rw [inside, live, Option.some.injEq] at record
        rw [record, name]
      · rfl
    rw [List.mem_map]
    constructor
    · rintro ⟨q, row, rfl⟩
      have group : q.groupId = gid := (Catalog.renamedRoute_same g.id g.name q).2.1.symm.trans home
      have found := (good q group).mp row
      rw [carried q group found]
      exact found
    · intro found
      exact ⟨r, before.mpr found, carried r home found⟩
  | @cascade g live =>
    show r ∈ t.routes.filter (fun x => x.groupId != g.id) ↔ _
    rw [List.mem_filter, before, Catalog.dropGroup_routes]
    simp

/-- A replica that makes a change has it in its own table at once, and spoils nothing there. -/
theorem good_apply (sound : c.Sound) (after : d.Sound) (committed : Committed c refresh d)
    (placed : Placed c t) (item : Item) (good : Good tools c t item) :
    Good tools d (refresh.apply t) item := by
  cases item with
  | group gid =>
    intro r home
    rw [routes_apply]
    exact mem_refreshed sound committed placed good home
  | route rid =>
    intro r live
    have id := after.routeId live
    have placed' := placed_apply sound committed placed
    constructor
    · intro x row here
      rw [routes_apply] at row
      rcases rows_apply placed.distinct row with new | updated | ⟨q, old, same, _, content, other⟩
      · rw [← here, (committed_live sound committed (.inl new)).1, Option.some.injEq] at live
        exact live ▸ ⟨rfl, rfl, rfl⟩
      · rw [← here, (committed_live sound committed (.inr updated)).1, Option.some.injEq] at live
        exact live ▸ ⟨rfl, rfl, rfl⟩
      · rw [← here, ← same] at live good
        obtain ⟨was, before, _, content' | update⟩ :=
          committed_content committed (placed.known q old) live
        · have rows := (good was before).1 q old rfl
          have back : SameContent x q := ⟨content.1.symm, content.2.1.symm, content.2.2.symm⟩
          exact sameContent_trans back (sameContent_trans rows content')
        · exact absurd (same.symm.trans (after.routeId live).symm) (other r update)
    · by_cases old : rid ∈ c.minted
      · obtain ⟨was, before, _, content | rfl⟩ := committed_content committed old live
        · refine builtFrom_fewer (builtFrom_same content (good was before).2) ?_ ?_
          · intro x held
            rw [components_apply] at held
            split at held
            · cases held
            · exact held
          · intro js held
            rw [engineJs_apply] at held
            split at held
            · cases held
            · exact held
        · -- what was built of the old record is dropped
          have dropped : r.id ∈ (Refresh.update r).drops t := List.mem_cons_self
          refine ⟨?_, ?_⟩
          · intro x held
            rw [components_apply, if_pos dropped] at held
            cases held
          · intro js held
            rw [engineJs_apply, if_pos dropped] at held
            cases held
      · refine ⟨?_, ?_⟩
        · intro x held
          rw [components_apply] at held
          split at held
          · cases held
          · exact absurd (placed.components rid x (id ▸ held)) old
        · intro js held
          rw [engineJs_apply] at held
          split at held
          · cases held
          · exact absurd (placed.engineJs rid js (id ▸ held)) old

end Here

/-! Reading again -/

section Reading
variable {tools : Toolchain Component} {c : Catalog} {store : Store} (hold : Consistent store c)
  {t : RouteTable Component}
include hold

/-- The routes that are read for a set of ids are those of the catalog. -/
theorem distinct_read (ids : List String) (nodup : ids.Nodup) :
    ((ids.filterMap c.routes).map Route.id).Nodup := by
  have same : (ids.filterMap c.routes).map Route.id =
      ids.filter (fun rid => (c.routes rid).isSome) := by
    induction ids with
    | nil => rfl
    | cons rid rest ih =>
      have later := ih (List.nodup_cons.mp nodup).2
      cases found : c.routes rid with
      | none => simp [found, later]
      | some r => simp [found, later, hold.sound.routeId found]
  rw [same]
  exact nodup.filter _

theorem read_group (gid : String) : ∃ rows, (run (routesInGroup gid) store).1 = .ok rows ∧
    (rows.map Route.id).Nodup ∧ ∀ r, r ∈ rows ↔ c.routes r.id = some r ∧ r.groupId = gid := by
  refine ⟨(store.setAt (.routeInGroup gid)).filterMap c.routes, ?_, ?_, ?_⟩
  · unfold routesInGroup
    rw [run_listRoutesFrom hold.represents.kinded _ rfl, group_routes_answer hold.represents gid]
  · exact distinct_read hold _ (Storage.setAt_nodup store _)
  · intro r
    rw [mem_group_routes hold.represents]
    constructor
    · rintro ⟨rid, live, home⟩
      exact ⟨hold.sound.routeId live ▸ live, home⟩
    · rintro ⟨live, home⟩
      exact ⟨r.id, live, home⟩

theorem read_all : ∃ rows, (run listRoutes store).1 = .ok rows ∧ (rows.map Route.id).Nodup ∧
    ∀ r, r ∈ rows ↔ c.routes r.id = some r := by
  refine ⟨(store.setAt .routeAll).filterMap c.routes, ?_, ?_, ?_⟩
  · unfold listRoutes
    rw [run_listRoutesFrom hold.represents.kinded _ rfl]
    exact routes_answer hold.represents (fun rid listed =>
      (hold.represents.routes.all rid).mp listed)
  · exact distinct_read hold _ (Storage.setAt_nodup store _)
  · intro r
    rw [List.mem_filterMap]
    constructor
    · rintro ⟨rid, _, live⟩
      exact hold.sound.routeId live ▸ live
    · intro live
      exact ⟨r.id, (hold.represents.routes.all r.id).mpr ⟨r, live⟩, live⟩

omit hold in
theorem sameContent_refl (r : Route) : SameContent r r := ⟨rfl, rfl, rfl⟩

omit hold in
/-- A table without artifacts whose rows are the routes. -/
theorem good_fresh {rows : List Route} (read : ∀ r, r ∈ rows ↔ c.routes r.id = some r)
    (routes : t.routes = rows) (components : t.components = ∅) (engineJs : t.engineJs = ∅)
    (item : Item) : Good tools c t item := by
  cases item with
  | group gid =>
    intro r _
    rw [routes]
    exact read r
  | route rid =>
    intro r live
    refine ⟨?_, ?_, ?_⟩
    · rintro q row rfl
      rw [routes, read, live, Option.some.injEq] at row
      exact row ▸ sameContent_refl r
    · intro x held
      rw [components] at held
      cases held
    · intro js held
      rw [engineJs] at held
      cases held

theorem placed_fresh {rows : List Route} (distinct : (rows.map Route.id).Nodup)
    (read : ∀ r, r ∈ rows ↔ c.routes r.id = some r) (routes : t.routes = rows)
    (components : t.components = ∅) (engineJs : t.engineJs = ∅) : Placed c t where
  distinct := routes ▸ distinct
  known q row := hold.sound.mintedRoute ((read q).mp (routes ▸ row))
  home q row r live := by
    rw [(read q).mp (routes ▸ row), Option.some.injEq] at live
    rw [live]
  components rid x held := by
    rw [components] at held
    cases held
  engineJs rid js held := by
    rw [engineJs] at held
    cases held

section Group
variable {gid : String} {rows : List Route} (distinct : (rows.map Route.id).Nodup)
  (read : ∀ r, r ∈ rows ↔ c.routes r.id = some r ∧ r.groupId = gid)
include distinct read

theorem placed_replaceGroup (placed : Placed c t) : Placed c (t.replaceGroup gid rows) where
  distinct := by
    show ((t.routes.filter (fun r => r.groupId != gid) ++ rows).map Route.id).Nodup
    rw [List.map_append, List.nodup_append]
    refine ⟨placed.distinct.sublist (List.filter_sublist.map Route.id), distinct, ?_⟩
    rintro rid member other here rfl
    obtain ⟨q, row, same⟩ := List.mem_map.mp member
    obtain ⟨r, fresh, id⟩ := List.mem_map.mp here
    obtain ⟨old, away⟩ := List.mem_filter.mp row
    obtain ⟨live, inside⟩ := (read r).mp fresh
    rw [id, ← same] at live
    have home := placed.home q old r live
    rw [inside] at home
    simp [home] at away
  known := by
    intro q row
    rcases List.mem_append.mp row with old | fresh
    · exact placed.known q (List.mem_filter.mp old).1
    · exact hold.sound.mintedRoute ((read q).mp fresh).1
  home := by
    intro q row r live
    rcases List.mem_append.mp row with old | fresh
    · exact placed.home q (List.mem_filter.mp old).1 r live
    · rw [((read q).mp fresh).1, Option.some.injEq] at live
      rw [live]
  components := placed.components
  engineJs := placed.engineJs

omit hold distinct in
theorem mem_replaceGroup {r : Route} : r ∈ (t.replaceGroup gid rows).routes ↔
    if r.groupId = gid then c.routes r.id = some r else r ∈ t.routes := by
  show r ∈ t.routes.filter (fun q => q.groupId != gid) ++ rows ↔ _
  rw [List.mem_append, List.mem_filter, read]
  by_cases inside : r.groupId = gid <;> simp [inside]

omit hold distinct in
/-- Reading a group again spoils nothing, and makes the group good. -/
theorem good_replaceGroup (item : Item) :
    (Good tools c t item → Good tools c (t.replaceGroup gid rows) item) ∧
      (item = .group gid → Good tools c (t.replaceGroup gid rows) item) := by
  have mended : Good tools c (t.replaceGroup gid rows) (.group gid) := by
    intro r home
    rw [mem_replaceGroup read, if_pos home]
  refine ⟨?_, ?_⟩
  · intro good
    cases item with
    | group other =>
      intro r home
      rw [mem_replaceGroup read]
      split
      · exact Iff.rfl
      · exact good r home
    | route rid =>
      intro r live
      obtain ⟨before, built⟩ := good r live
      refine ⟨?_, built.component, built.engineJs⟩
      rintro q row rfl
      rw [mem_replaceGroup read] at row
      split at row
      · rw [live, Option.some.injEq] at row
        exact row ▸ sameContent_refl r
      · exact before q row rfl
  · rintro rfl
    exact mended

end Group
end Reading

end
end WireMirage
