import Mathlib.Data.List.Sort
import WireMirage.Api.Durations
import WireMirage.Api.Tenancy

/-!
The export of a group: a spec of it with the routes in the order of their numbers, each with
the source it was created from.
-/
namespace WireMirage
open Prog StepMachine

namespace Requests

/-- The spec of a route, always in the plural form; without a source there is none. -/
def routeSpec (group : Group) (r : Route) : Except RequestError RouteSpec :=
  match r.source with
  | none => .error (.validation ("route " ++ group.name ++ "/" ++ toString r.number ++
      " was uploaded as pre-compiled " ++ r.language ++ " (no source); spec export needs source"))
  | some source => .ok ⟨none, r.methods, r.path, some r.language, some source, none⟩

def routeSpecs (group : Group) : List Route → Except RequestError (List RouteSpec)
  | [] => .ok []
  | r :: rest => do
    let first ← routeSpec group r
    let others ← routeSpecs group rest
    return first :: others

def groupRoutes (group : Group) (routes : List Route) : List Route :=
  (routes.filter (fun r => r.groupId = group.id)).insertionSort (fun a b => a.number ≤ b.number)

/-- The callout setting is only named when it is on. -/
def groupSpec (group : Group) (routes : List RouteSpec) : GroupSpec where
  name := group.name
  ttl := some (formatDuration group.ttlSeconds)
  sliding := some group.slidingTtl
  callout := if group.calloutEnabled then some true else none
  routes := routes

def exportGroupCore [UlidText] (auth : AuthContext) (groupRef : String) : Requests GroupSpec := do
  let group ← ensureGroupOwnerOrAdmin auth groupRef
  let routes ← viaRegistry listRoutes
  let specs ← Prog.ofExcept (routeSpecs group (groupRoutes group routes))
  return groupSpec group specs

end Requests

/-! Routes and their specs -/

/-- A route is stored as the import of its spec asks for. -/
structure Shows (n : NormalizedRoute) (r : Route) : Prop where
  methods : r.methods = n.methods
  path : r.path = n.path
  language : r.language = n.language
  source : r.source = some n.source

/-- The spec that an export writes for a route. -/
def NormalizedRoute.spec (n : NormalizedRoute) : RouteSpec :=
  ⟨none, n.methods, n.path, some n.language, some n.source, none⟩

theorem routeSpec_shows {group : Group} {n : NormalizedRoute} {r : Route} (shows_ : Shows n r) :
    Requests.routeSpec group r = .ok n.spec := by
  unfold Requests.routeSpec
  rw [shows_.source, shows_.methods, shows_.path, shows_.language]
  rfl

theorem routeSpecs_shows {group : Group} {ns : List NormalizedRoute} {rs : List Route}
    (all : List.Forall₂ Shows ns rs) :
    Requests.routeSpecs group rs = .ok (ns.map NormalizedRoute.spec) := by
  induction all with
  | nil => rfl
  | cons first _ ih =>
    unfold Requests.routeSpecs
    rw [routeSpec_shows first, ih]
    rfl

/-- What is exported shows the routes it was read from. -/
theorem shows_of_routeSpecs {group : Group} {rs : List Route} {specs : List RouteSpec}
    (exported : Requests.routeSpecs group rs = .ok specs) :
    ∃ ns, specs = ns.map NormalizedRoute.spec ∧ List.Forall₂ Shows ns rs := by
  induction rs generalizing specs with
  | nil =>
    cases exported
    exact ⟨[], rfl, .nil⟩
  | cons r rest ih =>
    obtain ⟨first, one, exported⟩ := ok_bind_iff.mp exported
    obtain ⟨others, more, exported⟩ := ok_bind_iff.mp exported
    cases exported
    obtain ⟨ns, rfl, shown⟩ := ih more
    cases origin : r.source with
    | none => simp [Requests.routeSpec, origin] at one
    | some source =>
      simp only [Requests.routeSpec, origin, Except.ok.injEq] at one
      subst one
      exact ⟨⟨r.methods, r.path, r.language, source⟩ :: ns, rfl,
        .cons ⟨rfl, rfl, rfl, origin⟩ shown⟩

theorem normalize_specs {ns : List NormalizedRoute} (idx : Nat)
    (listed : ∀ n ∈ ns, n.methods ≠ [] ∧ isBlank n.path = false) :
    normalizeRoutes idx (ns.map NormalizedRoute.spec) = .ok ns := by
  induction ns generalizing idx with
  | nil => rfl
  | cons n rest ih =>
    obtain ⟨some_, placed⟩ := listed n List.mem_cons_self
    have later := ih (idx + 1) (fun m member => listed m (List.mem_cons_of_mem n member))
    have here : normalizeRoute idx n.spec = .ok n := by
      obtain ⟨methods, path, language, source⟩ := n
      cases methods with
      | nil => exact absurd rfl some_
      | cons m ms =>
        show (if isBlank path then Except.error _ else Except.ok _) = _
        rw [if_neg (by simp [show isBlank path = false from placed])]
        rfl
    show (normalizeRoute idx n.spec >>= fun first => _) = _
    rw [here]
    show (normalizeRoutes (idx + 1) (rest.map NormalizedRoute.spec) >>= fun others => _) = _
    rw [later]
    rfl

/-! The export of a stored group -/

section Exporting
variable {auth : AuthContext} {s : Store} {c : Catalog} (hold : Consistent s c)
include hold

/-- The routes of a group, each once, in the order of their numbers. -/
structure RoutesInOrder (c : Catalog) (gid : String) (rs : List Route) : Prop where
  member : ∀ r, r ∈ rs ↔ ∃ rid, c.routes rid = some r ∧ r.groupId = gid
  nodup : rs.Nodup
  sorted : rs.Pairwise (fun a b => a.number ≤ b.number)

theorem groupRoutes_inOrder (g : Group) :
    RoutesInOrder c g.id (Requests.groupRoutes g ((s.setAt .routeAll).filterMap c.routes)) where
  member := by
    intro r
    unfold Requests.groupRoutes
    simp only [List.mem_insertionSort, List.mem_filter, List.mem_filterMap, decide_eq_true_eq]
    constructor
    · rintro ⟨⟨rid, _, live⟩, home⟩
      exact ⟨rid, live, home⟩
    · rintro ⟨rid, live, home⟩
      exact ⟨⟨rid, (hold.represents.routes.all rid).mpr ⟨r, live⟩, live⟩, home⟩
  nodup := by
    unfold Requests.groupRoutes
    rw [(List.perm_insertionSort _ _).nodup_iff]
    refine List.Nodup.filter _ (List.Nodup.filterMap ?_ (s.setAt_nodup .routeAll))
    intro a b r first second
    exact (hold.sound.routeId first).symm.trans (hold.sound.routeId second)
  sorted := by
    have total : Std.Total (fun a b : Route => a.number ≤ b.number) := ⟨fun _ _ => Nat.le_total _ _⟩
    have trans : IsTrans Route (fun a b => a.number ≤ b.number) := ⟨fun _ _ _ => Nat.le_trans⟩
    exact List.pairwise_insertionSort _ _

variable [UlidText]

theorem run_export_gated {reference : String} {g : Group}
    (gate : run (Requests.ensureGroupOwnerOrAdmin auth reference) s = (.ok g, s)) :
    ∃ rs, RoutesInOrder c g.id rs ∧ run (Requests.exportGroupCore auth reference) s =
      ((Requests.routeSpecs g rs).map (Requests.groupSpec g), s) := by
  have listed : run (Requests.viaRegistry listRoutes) s =
      (.ok ((s.setAt .routeAll).filterMap c.routes), s) := by
    unfold Requests.viaRegistry Requests.viaApi viaRegistry listRoutes
    rw [run_mapError, run_mapError, run_listRoutesFrom hold.represents.kinded .routeAll rfl,
      routes_answer hold.represents fun rid member => (hold.represents.routes.all rid).mp member]
    rfl
  refine ⟨_, groupRoutes_inOrder hold g, ?_⟩
  unfold Requests.exportGroupCore
  rw [run_bind, gate, andThen_ok, run_bind, listed, andThen_ok, run_bind, run_ofExcept]
  cases Requests.routeSpecs g
    (Requests.groupRoutes g ((s.setAt .routeAll).filterMap c.routes)) <;> rfl

theorem run_exportGroupCore {reference : String} {g : Group}
    (found : resolvedAnswer s reference = .ok g.id) (live : c.groups g.id = some g)
    (mine : g.ownerId = auth.userId) :
    ∃ rs, RoutesInOrder c g.id rs ∧ run (Requests.exportGroupCore auth reference) s =
      ((Requests.routeSpecs g rs).map (Requests.groupSpec g), s) := by
  apply run_export_gated hold
  unfold Requests.ensureGroupOwnerOrAdmin Requests.viaRegistry Requests.viaApi viaRegistry
  rw [run_bind, run_attempt, run_mapError, run_mapError,
    run_readGroupByRef hold.represents.kinded, found]
  dsimp only [Except.bind]
  rw [groupAnswer_of_live hold.represents live]
  dsimp only [Except.mapError, andThen_ok]
  rw [if_neg (fun stranger => stranger.2 mine)]
  rfl

/-- An export that succeeds shows a group of the catalog with all of its routes. -/
theorem exported_shows {reference : String} {spec : GroupSpec} {u : Store}
    (exported : run (Requests.exportGroupCore auth reference) s = (.ok spec, u)) :
    ∃ g ns rs, c.groups g.id = some g ∧ RoutesInOrder c g.id rs ∧ List.Forall₂ Shows ns rs ∧
      spec = Requests.groupSpec g (ns.map NormalizedRoute.spec) := by
  have gates : (∃ e, run (Requests.ensureGroupOwnerOrAdmin auth reference) s = (.error e, s)) ∨
      ∃ g : Group, _ ∧ _ ∧ Mine auth c g.id := ensureGroup_cases hold reference
  rcases gates with ⟨e, ran⟩ | ⟨g, gate, live, _⟩
  · unfold Requests.exportGroupCore at exported
    rw [run_bind, ran, andThen_error] at exported
    cases exported
  · obtain ⟨rs, inOrder, ran⟩ := run_export_gated hold gate
    rw [ran, Prod.mk.injEq] at exported
    cases read : Requests.routeSpecs g rs with
    | error e => simp [read, Except.map] at exported
    | ok specs =>
      simp only [read, Except.map, Except.ok.injEq] at exported
      obtain ⟨ns, rfl, shown⟩ := shows_of_routeSpecs read
      exact ⟨g, ns, rs, live, inOrder, shown, exported.1.symm⟩

end Exporting

end WireMirage
