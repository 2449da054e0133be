import WireMirage.Api.Export
import WireMirage.Api.Vetting
import WireMirage.Registry.Numbering

/-!
What one host exports another one imports: nothing in a spec that was written from stored
records is refused, and the group it becomes is exported as the same spec.
-/
namespace WireMirage
open Prog StepMachine

/-! Texts that are not blank -/

theorem label_not_space {c : Char} (label : labelChar c = true) : whiteSpace c = false := by
  simp only [labelChar, Bool.or_eq_true, beq_iff_eq] at label
  rcases label with (lower | digit) | rfl
  · have bounds : 97 ≤ c.toNat ∧ c.toNat ≤ 122 := by
      have within : (decide (c.val ≥ 'a'.val) && decide (c.val ≤ 'z'.val)) = true := lower
      simp only [Bool.and_eq_true, decide_eq_true_eq, UInt32.le_iff_toNat_le] at within
      exact within
    unfold whiteSpace
    simp only [Bool.or_eq_false_iff, decide_eq_false_iff_not, beq_eq_false_iff_ne]
    omega
  · exact digit_not_space digit
  · rfl

theorem label_not_blank {name : String} (valid : isValidLabel name = true) :
    isBlank name = false := by
  unfold isValidLabel at valid
  dsimp only at valid
  split at valid
  · cases valid
  · rename_i size
    split at valid
    · cases valid
    · rw [List.all_eq_true] at valid
      unfold isBlank
      cases chars : name.toList with
      | nil =>
        rw [String.toList_eq_nil_iff] at chars
        rw [chars] at size
        exact absurd (.inl rfl) size
      | cons c rest =>
        have label := valid c (by rw [chars]; exact List.mem_cons_self)
        rw [List.all_cons, label_not_space label]
        rfl

theorem path_not_blank {raw : String} {p : Pattern} (parsed : Pattern.parse raw = .ok p) :
    isBlank raw = false := by
  obtain ⟨slash, _⟩ := parse_cases parsed
  unfold isBlank
  cases chars : raw.toList with
  | nil => rw [chars] at slash; cases slash
  | cons c rest =>
    rw [chars] at slash
    obtain rfl : c = '/' := by simpa using slash
    rfl

/-! Routes that an import accepts -/

structure Acceptable (transpile : String → Except String String) (n : NormalizedRoute) : Prop where
  methods : validateMethods n.methods = .ok n.methods
  path : ∃ p : Pattern, Pattern.parse n.path = .ok p ∧ p.raw = n.path
  language : Scripted n.language
  source : Transpiles transpile n.source

theorem acceptable_of_shows {transpile : String → Except String String} {n : NormalizedRoute}
    {r : Route} (accepted : RouteAccepted Scripted (Transpiles transpile) r)
    (shows_ : Shows n r) : Acceptable transpile n where
  methods := shows_.methods ▸ accepted.methods
  path := shows_.path ▸ accepted.path
  language := shows_.language ▸ accepted.language
  source := accepted.source _ shows_.source

theorem checked_acceptable {transpile : String → Except String String} {n : NormalizedRoute}
    (acceptable : Acceptable transpile n) (group : Group) :
    checkedSource transpile (importBody group n) = .ok n.source := by
  obtain ⟨js, compiled⟩ := acceptable.source
  have scripted : n.language = "javascript" ∨ n.language = "typescript" := acceptable.language
  have other : n.language ≠ "wasm" := by
    rcases scripted with same | same <;> rw [same] <;> decide
  unfold checkedSource importBody
  dsimp only
  rw [if_neg other, if_pos scripted, compiled]

/-- A route that may join others: no request is ambiguous between them. -/
def Joins (n : NormalizedRoute) (rs : List Route) : Prop :=
  ∀ r ∈ rs, ∀ p q, Pattern.parse n.path = .ok p → Pattern.parse r.path = .ok q →
    routesConflict n.methods p r.methods q = false

theorem scanConflict_passes {methods : Methods} {pattern : Pattern} {routes : List Route}
    (clear : ∀ r ∈ routes, ∃ q, Pattern.parse r.path = .ok q ∧
      routesConflict methods pattern r.methods q = false) :
    scanConflict methods pattern none routes = .ok () := by
  induction routes with
  | nil => rfl
  | cons r rest ih =>
    obtain ⟨q, parsed, apart⟩ := clear r List.mem_cons_self
    have later := ih (fun x member => clear x (List.mem_cons_of_mem r member))
    unfold scanConflict parsePath
    rw [if_neg (by simp), parsed]
    simp only [Except.mapError, apart, Bool.false_eq_true, if_false]
    exact later

theorem run_createRoute_into [UlidText] {s : Store} (kinded : s.WellKinded) {params : NewRoute}
    {reference : String} {g : Group} {pattern : Pattern} {count : Int}
    (named : params.group = some reference) (found : resolvedAnswer s reference = .ok g.id)
    (record : GroupAt s g.id g) (placed : parsePath params.path = .ok pattern)
    (listed : validateMethods params.methods = .ok params.methods)
    (scanned : scanAnswer s g.id params.methods pattern none = .ok ())
    (counted : countAnswer s g.id = .ok count) (ids : NewIds) (now : Time) (draw : Nat → Draw) :
    run (createRoute params ids now draw) s =
      (.ok (newRoute params g pattern.raw (asU32 count) ids.route now),
        routeStored (routeCounted s g.id count)
          (newRoute params g pattern.raw (asU32 count) ids.route now)) := by
  have target : run (targetGroup params ids.group now draw) s = (.ok g, s) := by
    have resolves : run (resolved reference) s = (.ok g.id, s) :=
      (run_resolved kinded reference).trans (by rw [← found]; rfl)
    unfold targetGroup
    rw [named]
    dsimp only
    rw [run_bind, resolves, andThen_ok, run_readGroup kinded, groupAnswer_ok_iff.mpr record]
  have stored := (leads_storeRoute (newRoute params g pattern.raw (asU32 count) ids.route
    now)).run_eq (Storage.wellKinded_putHash kinded (k := .groupCounters g.id) (by simp)
      ((s.hashAt (.groupCounters g.id)).insert "next_route_number" (.int count)))
  unfold createRoute
  rw [run_bind, run_ofExcept, placed, andThen_ok, run_bind, run_ofExcept, listed, andThen_ok,
    run_bind, target, andThen_ok, run_bind, run_scanPatternConflict kinded, scanned, andThen_ok,
    run_bind, run_nextRouteNumber kinded, counted]
  dsimp only [andThen_ok]
  rw [run_bind]
  unfold routeCounted
  rw [stored]
  rfl

/-! A group that is filled route by route -/

/-- The group holds these routes, numbered from one on, and its name leads to it. -/
structure Filled (g : Group) (rs : List Route) (t : Store) (d : Catalog) : Prop where
  consistent : Consistent t d
  live : d.groups g.id = some g
  named : ∀ h, d.groups g.name = some h → g.name = g.id
  member : ∀ r, r ∈ rs ↔ ∃ rid, d.routes rid = some r ∧ r.groupId = g.id
  numbers : rs.map Route.number = List.range' 1 rs.length
  counter : routeCounter t g.id = if rs = [] then none else some (.int rs.length)

section Filling
variable {g : Group} {rs : List Route} {t : Store} {d : Catalog} (filled : Filled g rs t d)
include filled

theorem Filled.resolve [UlidText] : resolveAnswer t g.name = .ok (some g.id) := by
  have rep := filled.consistent.represents
  unfold resolveAnswer
  split
  · rename_i held
    cases record : d.groups g.name with
    | some h => rw [filled.named h record]
    | none =>
      have rest := rep.groups.rest g.name record
      simp [contains, rest] at held
  · have index := (rep.groups.byName g.name (.text g.id)).mpr ⟨g.id, g, filled.live, rfl, rfl⟩
    unfold nameAnswer
    rw [index]
    rfl

theorem Filled.resolved [UlidText] : resolvedAnswer t g.name = .ok g.id := by
  unfold resolvedAnswer
  rw [filled.resolve]
  rfl

theorem Filled.scan {n : NormalizedRoute} (joins : Joins n rs) {p : Pattern}
    (parsed : Pattern.parse n.path = .ok p) :
    scanAnswer t g.id n.methods p none = .ok () := by
  have rep := filled.consistent.represents
  unfold scanAnswer
  rw [group_routes_answer rep]
  apply scanConflict_passes
  intro r member
  obtain ⟨rid, live, home⟩ := (mem_group_routes rep).mp member
  obtain ⟨q, parsedQ⟩ := filled.consistent.sound.path live
  exact ⟨q, parsedQ, joins r ((filled.member r).mpr ⟨rid, live, home⟩) p q parsed parsedQ⟩

theorem Filled.count (room : rs.length + 1 < u32Size) :
    countAnswer t g.id = .ok (rs.length + 1 : Nat) := by
  have counter := filled.counter
  unfold routeCounter at counter
  unfold countAnswer
  rw [counter]
  by_cases empty : rs = []
  · rw [if_pos empty, empty]
    rfl
  · rw [if_neg empty]
    have read : t.readInt (Val.int rs.length) = some (rs.length : Int) := by
      unfold Storage.readInt
      cases t.backend <;> rfl
    simp only [Storage.addInt, read]
    rw [if_pos]
    · rfl
    · unfold u32Size at room
      unfold i64Min i64Max
      omega

theorem Filled.append {r : Route} (new : r.id ∉ d.minted) (home : r.groupId = g.id)
    (number : r.number = rs.length + 1)
    (step : Consistent (routeStored (routeCounted t g.id (rs.length + 1 : Nat)) r)
      ((d.mint r.id).setRoute r)) :
    Filled g (rs ++ [r]) (routeStored (routeCounted t g.id (rs.length + 1 : Nat)) r)
      ((d.mint r.id).setRoute r) where
  consistent := step
  live := filled.live
  named := filled.named
  member := by
    intro q
    have there : ∀ rid, ((d.mint r.id).setRoute r).routes rid =
        if rid = r.id then some r else d.routes rid := fun _ => rfl
    rw [List.mem_append, List.mem_singleton, filled.member]
    constructor
    · rintro (⟨rid, live, same⟩ | rfl)
      · refine ⟨rid, ?_, same⟩
        rw [there, if_neg, live]
        rintro rfl
        exact new (filled.consistent.sound.mintedRoute live)
      · exact ⟨q.id, by rw [there, if_pos rfl], home⟩
    · rintro ⟨rid, live, same⟩
      rw [there] at live
      split at live
      · cases live
        exact .inr rfl
      · exact .inl ⟨rid, live, same⟩
  numbers := by
    rw [List.map_append, filled.numbers, List.length_append, List.length_singleton,
      List.range'_1_concat, List.map_singleton, number, Nat.add_comm]
  counter := by
    have counted : routeCounter (routeStored (routeCounted t g.id (rs.length + 1 : Nat)) r) g.id =
        some (.int (rs.length + 1 : Nat)) := by
      simp [routeCounter, routeStored, routeCounted]
    rw [counted]
    simp

/-- A route that joins the group is created in it, under the next number. -/
theorem Filled.create [UlidText] {n : NormalizedRoute} (joins : Joins n rs)
    {p : Pattern} (parsed : Pattern.parse n.path = .ok p) (plain : p.raw = n.path)
    (valid : validateMethods n.methods = .ok n.methods) (room : rs.length + 1 < u32Size)
    (params : NewRoute) (group : params.group = some g.name) (methods : params.methods = n.methods)
    (path : params.path = n.path) (language : params.language = n.language)
    (source : params.source = some n.source)
    (ids : NewIds) (now : Time) (draw : Nat → Draw) (new : ids.route ∉ d.minted) :
    ∃ r u, run (createRoute params ids now draw) t = (.ok r, u) ∧ Shows n r ∧
      Filled g (rs ++ [r]) u ((d.mint ids.route).setRoute r) := by
  have rep := filled.consistent.represents
  have placed : parsePath params.path = .ok p := by
    unfold parsePath
    rw [path, parsed]
    rfl
  have listed : validateMethods params.methods = .ok params.methods := methods ▸ valid
  have scanned : scanAnswer t g.id params.methods p none = .ok () :=
    methods ▸ filled.scan joins parsed
  have ran := run_createRoute_into rep.kinded group filled.resolved
    ((rep.groups.record g.id g).mpr filled.live) placed listed scanned (filled.count room) ids now
    draw
  have number : asU32 (rs.length + 1 : Nat) = rs.length + 1 := by
    unfold asU32
    unfold u32Size at *
    omega
  have step := consistent_routeStored filled.consistent now new filled.live
    (parse_path_ok placed) (validate_methods_ok listed).2.2 scanned (n := (rs.length + 1 : Nat))
  exact ⟨_, _, ran, ⟨methods, plain, language, source⟩, filled.append new rfl number step⟩

variable [UlidText] {transpile : String → Except String String} {auth : AuthContext}

/-- What the creation through the API checks before the registry does, passes. -/
theorem Filled.createCore (owner : g.ownerId = auth.userId) {group : Group}
    (same : group.name = g.name) {n : NormalizedRoute} (acceptable : Acceptable transpile n)
    (joins : Joins n rs) (room : rs.length + 1 < u32Size) (drawn : RouteDraws)
    (new : drawn.ids.route ∉ d.minted) :
    ∃ r u, run (createRouteCore transpile auth (importBody group n) drawn) t = (.ok r, u) ∧
      Shows n r ∧ Filled g (rs ++ [r]) u ((d.mint drawn.ids.route).setRoute r) := by
  have rep := filled.consistent.represents
  obtain ⟨p, parsed, plain⟩ := acceptable.path
  have gate : run (tenancyGate auth (some g.name)) t = (.ok (), t) := by
    unfold tenancyGate viaRegistry
    rw [run_bind, run_attempt, run_mapError, run_readGroupByRef rep.kinded, filled.resolved]
    dsimp only [Except.bind]
    rw [groupAnswer_of_live rep filled.live]
    dsimp only [Except.mapError, andThen_ok]
    rw [if_pos (.inl owner)]
    rfl
  have precheck : run (viaRegistry (precheckCreateConflict (some g.name) n.methods n.path)) t =
      (.ok (), t) := by
    have placed : parsePath n.path = .ok p := by
      unfold parsePath
      rw [parsed]
      rfl
    unfold viaRegistry precheckCreateConflict
    rw [run_mapError, run_bind, run_ofExcept, placed, andThen_ok, run_bind, run_ofExcept,
      acceptable.methods, andThen_ok]
    dsimp only
    rw [run_bind, run_resolveGroup rep.kinded, filled.resolve, andThen_ok]
    dsimp only
    rw [run_scanPatternConflict rep.kinded, filled.scan joins parsed]
    rfl
  obtain ⟨r, u, ran, shows_, after⟩ := filled.create joins parsed plain acceptable.methods room
    (registered auth (importBody group n) n.source) (congrArg some same) rfl rfl rfl rfl
    drawn.ids drawn.now drawn.draw new
  refine ⟨r, u, ?_, shows_, after⟩
  unfold createRouteCore
  rw [run_bind, show (importBody group n).group = some g.name from congrArg some same, gate,
    andThen_ok, run_bind, show (importBody group n).methods = n.methods from rfl,
    show (importBody group n).path = n.path from rfl, precheck, andThen_ok, run_bind, run_ofExcept,
    checked_acceptable acceptable, andThen_ok]
  unfold viaRegistry
  rw [run_mapError, ran]
  rfl

/-- No request is ambiguous between two routes that are asked for. -/
def Unambiguous (n m : NormalizedRoute) : Prop :=
  ∀ p q, Pattern.parse n.path = .ok p → Pattern.parse m.path = .ok q →
    routesConflict n.methods p m.methods q = false

omit filled [UlidText] in
theorem joins_append {n m : NormalizedRoute} {r : Route} (joins : Joins m rs)
    (apart : Unambiguous n m) (shows_ : Shows n r) : Joins m (rs ++ [r]) := by
  intro q member p p' parsed parsed'
  rcases List.mem_append.mp member with old | new
  · exact joins q old p p' parsed parsed'
  · obtain rfl := List.mem_singleton.mp new
    rw [shows_.path] at parsed'
    rw [shows_.methods, routes_conflict_comm]
    exact apart p' p parsed' parsed

/-- Along the routes of an import: every one is created, in its place. -/
theorem Filled.importRoutes (owner : g.ownerId = auth.userId) (group : Group)
    (same : group.name = g.name) (draws : Nat → RouteDraws)
    (ns : List NormalizedRoute) (idx : Nat) (acceptable : ∀ n ∈ ns, Acceptable transpile n)
    (apart : ns.Pairwise Unambiguous) (joins : ∀ n ∈ ns, Joins n rs)
    (room : rs.length + ns.length < u32Size)
    (distinct : (TenantRequest.importedIds draws idx ns.length).Nodup)
    (new : ∀ id ∈ TenantRequest.importedIds draws idx ns.length, id ∉ d.minted) :
    ∃ created u e, run (WireMirage.importRoutes transpile auth group draws idx ns) t = (.ok (), u) ∧
      List.Forall₂ Shows ns created ∧ Filled g (rs ++ created) u e := by
  induction ns generalizing rs t d idx with
  | nil => exact ⟨[], t, d, rfl, .nil, by rw [List.append_nil]; exact filled⟩
  | cons n rest ih =>
    simp only [List.length_cons, TenantRequest.importedIds, List.nodup_cons, List.mem_cons,
      not_or] at distinct new room
    obtain ⟨later, apart⟩ := List.pairwise_cons.mp apart
    obtain ⟨r, u, ran, shows_, after⟩ := filled.createCore owner same
      (acceptable n List.mem_cons_self) (joins n List.mem_cons_self) (by omega) (draws idx)
      (new _ (.inr (.inl rfl)))
    obtain ⟨created, v, e, more, shown, whole⟩ := ih after (idx + 1)
      (fun m member => acceptable m (List.mem_cons_of_mem n member)) apart
      (fun m member => joins_append (joins m (List.mem_cons_of_mem n member)) (later m member)
        shows_)
      (by rw [List.length_append, List.length_singleton]; omega) distinct.2.2 (by
        intro id member old
        rcases List.mem_cons.mp old with rfl | old
        · exact distinct.2.1 member
        · exact new id (.inr (.inr member)) old)
    refine ⟨r :: created, v, e, ?_, .cons shows_ shown, by simpa using whole⟩
    unfold WireMirage.importRoutes
    rw [run_bind, run_attempt, ran, andThen_ok]
    exact more

end Filling

/-! A group as an import creates it -/

section Creating
variable {t : Store} {c : Catalog} (hold : Consistent t c)
include hold

theorem run_createGroup_named {name : String} (owner : String) {ttl : Nat}
    (sliding : Option Bool) (valid : isValidLabel name = true)
    (free : t.bytesAt (.groupByName name) = none) (bound : ttl ≤ maxGroupTtlSeconds) (id : String)
    (now : Time) (draw : Nat → Draw) :
    let g := explicitGroup ⟨name, owner, some ttl, sliding⟩ name ttl id now
    run (createGroup ⟨name, owner, some ttl, sliding⟩ id now draw) t =
      (.ok g, groupCreated t g) := by
  intro g
  have kinded := hold.represents.kinded
  have chosen : run (newGroupName name draw) t = (.ok name, t) := by
    unfold newGroupName
    rw [if_neg (by simp [label_not_blank valid]), if_neg (not_not.mpr valid), run_bind,
      run_get kinded (k := .groupByName name) rfl, free]
    rfl
  have kept : normalizeTtl ttl = .ok ttl := by
    unfold normalizeTtl
    rw [if_neg (by omega)]
  unfold createGroup
  rw [run_bind, chosen, andThen_ok, run_bind, run_ofExcept]
  show andThen (normalizeTtl ttl, t) _ = _
  rw [kept, andThen_ok]
  exact (leads_storeGroup g).run_eq kinded

theorem filled_created {g : Group} (new : g.id ∉ c.minted) (unlike : g.name ∉ c.minted)
    (fresh : FreshGroup t g.id g.ownerId g) :
    Filled g [] (groupCreated t g) ((c.mint g.id).setGroup g) where
  consistent := consistent_groupCreated hold new fresh
  live := by simp [Catalog.setGroup]
  named := by
    intro h found
    have there : (if g.name = g.id then some g else c.groups g.name) = some h := found
    split at there
    · assumption
    · exact absurd (hold.sound.mintedGroup there) unlike
  member := by
    intro r
    refine ⟨fun inside => absurd inside List.not_mem_nil, ?_⟩
    rintro ⟨rid, live, home⟩
    obtain ⟨h, record, _⟩ := hold.sound.parent (r := r) live
    rw [home, hold.sound.absent_group new] at record
    cases record
  numbers := rfl
  counter := by
    have vacant : (groupCreated t g).hashAt (.groupCounters g.id) = ∅ := by
      simpa [groupCreated, groupArmed, ttlArmed, groupWritten] using
        (hold.represents.groups.fresh g.id new).2
    unfold routeCounter
    rw [vacant]
    rfl

end Creating

/-- The callout setting of a group that has no routes yet. -/
theorem Filled.patch {g : Group} {t : Store} {d : Catalog} (filled : Filled g [] t d)
    (flag : Bool) :
    ∃ u e, run (patchImported g (some flag)) t = (.ok (), u) ∧
      Filled { g with calloutEnabled := flag } [] u e ∧ e.minted = d.minted := by
  have kinded := filled.consistent.represents.kinded
  have record := (filled.consistent.represents.groups.record g.id g).mpr filled.live
  have ran : run (patchGroup g.id none none (some flag)) t =
      (.ok { g with calloutEnabled := flag },
        fieldPatched (.group g.id) "callout_enabled" .flag t (some flag)) := by
    unfold patchGroup
    rw [run_bind, run_readGroup kinded, groupAnswer_ok_iff.mpr record, andThen_ok]
    show run (patchCallout g.id g (some flag)) t = _
    unfold patchCallout
    rw [run_bind, run_hashSet kinded (k := .group g.id) rfl]
    rfl
  obtain ⟨e, after, alike⟩ := patchGroup_step filled.consistent g.id none none (some flag)
  rw [ran] at after
  refine ⟨_, e, ?_, ⟨after, ?_, ?_, ?_, rfl, ?_⟩, alike.minted⟩
  · unfold patchImported viaRegistry
    rw [run_bind, run_mapError, ran]
    rfl
  · apply (after.represents.groups.record g.id _).mp
    unfold GroupAt
    simp only [fieldPatched, Storage.hashAt_putHash, if_true]
    exact group_fields_callout record flag
  · intro h found
    obtain ⟨h', before, _⟩ := alike.group found
    exact filled.named h' before
  · intro r
    refine ⟨fun inside => absurd inside List.not_mem_nil, ?_⟩
    rintro ⟨rid, found, home⟩
    obtain ⟨q, before, same⟩ := alike.route found
    have inside : q ∈ [] :=
      (filled.member q).mpr ⟨rid, before, (same_route same).groupId.trans home⟩
    exact absurd inside List.not_mem_nil
  · have counter := filled.counter
    rw [if_pos rfl] at counter ⊢
    simpa [routeCounter, fieldPatched] using counter

/-! Export, import and export again -/

/-- Numbers from one on leave one order for the routes of a group. -/
theorem Filled.inOrder {g : Group} {rs rs' : List Route} {t : Store} {d : Catalog}
    (filled : Filled g rs t d) (inOrder : RoutesInOrder d g.id rs') : rs' = rs := by
  have distinct : (rs.map Route.number).Nodup := filled.numbers ▸ List.nodup_range'
  have members : ∀ r, r ∈ rs' ↔ r ∈ rs := fun r => (inOrder.member r).trans (filled.member r).symm
  have ordered : rs.Pairwise (fun a b => a.number ≤ b.number) := by
    have rising := List.pairwise_lt_range' (s := 1) (n := rs.length)
    rw [← filled.numbers, List.pairwise_map] at rising
    exact rising.imp Nat.le_of_lt
  have perm : rs'.Perm rs := (List.perm_ext_iff_of_nodup inOrder.nodup distinct.of_map).mpr members
  apply perm.eq_of_pairwise _ inOrder.sorted ordered
  intro a b first second le ge
  exact List.inj_on_of_nodup_map distinct ((members a).mp first) second (by omega)

section Migrating
variable [UlidText] [Messages] {transpile : String → Except String String}

omit [UlidText] [Messages] in
/-- What stored routes show is accepted, and no two of it are ambiguous when they are not. -/
theorem acceptable_shown {ns : List NormalizedRoute} {rs : List Route}
    (shown : List.Forall₂ Shows ns rs)
    (accepted : ∀ r ∈ rs, RouteAccepted Scripted (Transpiles transpile) r)
    (apart : rs.Pairwise Apart) :
    (∀ n ∈ ns, Acceptable transpile n ∧ ∃ r ∈ rs, Shows n r) ∧ ns.Pairwise Unambiguous := by
  induction shown with
  | nil => exact ⟨by simp, .nil⟩
  | @cons n r ns rs first _ ih =>
    obtain ⟨here, later⟩ := List.pairwise_cons.mp apart
    obtain ⟨all, unambiguous⟩ :=
      ih (fun q member => accepted q (List.mem_cons_of_mem r member)) later
    refine ⟨?_, List.pairwise_cons.mpr ⟨?_, unambiguous⟩⟩
    · intro m member
      rcases List.mem_cons.mp member with rfl | member
      · exact ⟨acceptable_of_shows (accepted r List.mem_cons_self) first, r, List.mem_cons_self,
          first⟩
      · obtain ⟨accepts, q, inside, shows_⟩ := all m member
        exact ⟨accepts, q, List.mem_cons_of_mem r inside, shows_⟩
    · intro m member p p' parsed parsed'
      obtain ⟨_, q, inside, shows_⟩ := all m member
      rw [← first.methods, ← shows_.methods]
      exact here q inside p p' (first.path ▸ parsed) (shows_.path ▸ parsed')

omit [UlidText] [Messages] in
theorem exported_acceptable {s : Store} {c : Catalog} (hold : Consistent s c)
    (vetted : Lawful (Vetted transpile) s) {gid : String} {ns : List NormalizedRoute}
    {rs : List Route} (inOrder : RoutesInOrder c gid rs) (shown : List.Forall₂ Shows ns rs) :
    (∀ n ∈ ns, Acceptable transpile n) ∧ ns.Pairwise Unambiguous := by
  have apart : rs.Pairwise Apart := by
    apply inOrder.nodup.imp_of_mem
    intro r q first second differ
    obtain ⟨a, liveA, homeA⟩ := (inOrder.member r).mp first
    obtain ⟨b, liveB, homeB⟩ := (inOrder.member q).mp second
    apply hold.sound.apart liveA liveB _ (homeA.trans homeB.symm)
    rintro rfl
    exact differ (Option.some.inj (liveA.symm.trans liveB))
  have accepted : ∀ r ∈ rs, RouteAccepted Scripted (Transpiles transpile) r := by
    intro r member
    obtain ⟨rid, live, _⟩ := (inOrder.member r).mp member
    exact route_accepted vetted ((hold.represents.routes.record rid r).mpr live)
  obtain ⟨all, unambiguous⟩ := acceptable_shown shown accepted apart
  exact ⟨fun n member => (all n member).1, unambiguous⟩

omit [UlidText] [Messages] in
/-- What normalization makes of an exported spec. -/
theorem normalize_exported {g : Group} (valid : isValidLabel g.name = true)
    (bound : g.ttlSeconds ≤ maxGroupTtlSeconds) {ns : List NormalizedRoute}
    (acceptable : ∀ n ∈ ns, Acceptable transpile n) :
    normalize (Requests.groupSpec g (ns.map NormalizedRoute.spec)) =
      .ok ⟨g.name, some g.ttlSeconds, some g.slidingTtl,
        if g.calloutEnabled then some true else none, ns⟩ := by
  have routes : normalizeRoutes 0 (ns.map NormalizedRoute.spec) = .ok ns := by
    apply normalize_specs
    intro n member
    obtain ⟨p, parsed, _⟩ := (acceptable n member).path
    exact ⟨(validate_methods_ok (acceptable n member).methods).2.1, path_not_blank parsed⟩
  have small : g.ttlSeconds < u64Size :=
    bound.trans_lt (show maxGroupTtlSeconds < u64Size by decide)
  unfold normalize Requests.groupSpec
  dsimp only
  rw [if_neg (by simp [label_not_blank valid])]
  unfold specTtl
  dsimp only
  rw [parse_formatted small, routes]
  rfl

omit [UlidText] [Messages] in
/-- The callout setting of a spec, on the group just created. -/
theorem Filled.callout {g : Group} {t : Store} {d : Catalog} (filled : Filled g [] t d)
    (off : g.calloutEnabled = false) (flag : Bool) :
    ∃ u e, run (patchImported g (if flag then some true else none)) t = (.ok (), u) ∧
      Filled { g with calloutEnabled := flag } [] u e ∧ e.minted = d.minted := by
  cases flag with
  | true => exact filled.patch true
  | false =>
    refine ⟨t, d, rfl, ?_, rfl⟩
    rw [← off]
    exact filled

omit [Messages] in
/-- The import of a spec whose routes are accepted, into a host where its name is free. -/
theorem imported_filled {t : Store} {c : Catalog} (hold : Consistent t c) {g : Group}
    (valid : isValidLabel g.name = true) (bound : g.ttlSeconds ≤ maxGroupTtlSeconds)
    {ns : List NormalizedRoute} (acceptable : ∀ n ∈ ns, Acceptable transpile n)
    (apart : ns.Pairwise Unambiguous)
    (free : t.bytesAt (.groupByName g.name) = none) (unlike : g.name ∉ c.minted)
    (few : ns.length < u32Size) (auth : AuthContext) (drawn : ImportDraws)
    (distinct : (drawn.groupId :: TenantRequest.importedIds drawn.routes 0 ns.length).Nodup)
    (new : ∀ id ∈ drawn.groupId :: TenantRequest.importedIds drawn.routes 0 ns.length,
      id ∉ c.minted) :
    ∃ g' created v e, run (importGroupCore transpile auth
        (Requests.groupSpec g (ns.map NormalizedRoute.spec)) drawn) t =
          (.ok ⟨g.name, ns.length⟩, v) ∧
      List.Forall₂ Shows ns created ∧ Filled g' created v e ∧ g'.ownerId = auth.userId ∧
      ∀ specs, Requests.groupSpec g' specs = Requests.groupSpec g specs := by
  obtain ⟨first, distinct⟩ := List.nodup_cons.mp distinct
  have newGroup : drawn.groupId ∉ c.minted := new _ List.mem_cons_self
  have created := run_createGroup_named hold auth.userId (some g.slidingTtl) valid free bound
    drawn.groupId drawn.now drawn.draw
  generalize made : explicitGroup ⟨g.name, auth.userId, some g.ttlSeconds, some g.slidingTtl⟩ g.name
    g.ttlSeconds drawn.groupId drawn.now = h at created
  have id : h.id = drawn.groupId := made ▸ rfl
  have name : h.name = g.name := made ▸ rfl
  have fresh : FreshGroup t h.id h.ownerId h :=
    ⟨rfl, rfl, name ▸ free, made ▸ bound.trans_lt (show maxGroupTtlSeconds < u64Size by decide),
      made ▸ rfl⟩
  have empty := filled_created hold (id ▸ newGroup) (name ▸ unlike) fresh
  obtain ⟨u, d, patched, filled, minted⟩ := empty.callout (made ▸ rfl) g.calloutEnabled
  have owner : h.ownerId = auth.userId := made ▸ rfl
  obtain ⟨routes, v, e, ran, shown, whole⟩ := filled.importRoutes (show _ = auth.userId from owner)
    h rfl drawn.routes ns 0 acceptable apart (fun n _ r inside => absurd inside List.not_mem_nil)
    (by simpa using few) distinct (by
      intro x member old
      rw [minted] at old
      rcases List.mem_cons.mp old with rfl | old
      · exact first (id ▸ member)
      · exact new x (List.mem_cons_of_mem _ member) old)
  refine ⟨_, routes, v, e, ?_, shown, whole, ?_, ?_⟩
  · unfold importGroupCore
    rw [run_bind, run_ofExcept, normalize_exported valid bound acceptable]
    dsimp only [Except.mapError]
    rw [andThen_ok, run_bind]
    unfold viaRegistry
    rw [run_mapError, created]
    dsimp only [Except.mapError]
    rw [andThen_ok, run_bind, patched, andThen_ok, run_bind, ran, andThen_ok, name]
    rfl
  · exact owner
  · intro specs
    subst made
    rfl

/-- Whatever one host exports, another host on which the name is free imports in full, and
    exports it again as the very same spec. -/
theorem exported_imports {allow allow' : CallState → AuthContext × TenantRequest → Prop}
    {s t : CallState} (source : Reached (tenants transpile) allow s)
    (target : Reached (tenants transpile) allow' t) {auth : AuthContext} (auth' : AuthContext)
    {reference : String} {spec : GroupSpec} {u : Store}
    (exported : run (Requests.exportGroupCore auth reference) s.store = (.ok spec, u))
    (free : t.store.bytesAt (.groupByName spec.name) = none) (unlike : spec.name ∉ t.minted)
    (few : spec.routes.length < u32Size) (drawn : ImportDraws)
    (distinct : (TenantRequest.importGroup spec drawn).draws.Nodup)
    (drawable : ∀ id ∈ (TenantRequest.importGroup spec drawn).draws, Drawable t.minted id) :
    ∃ v, run (importGroupCore transpile auth' spec drawn) t.store =
        (.ok ⟨spec.name, spec.routes.length⟩, v) ∧
      run (Requests.exportGroupCore auth' spec.name) v = (.ok spec, v) := by
  obtain ⟨c, held⟩ := tenants_stored source
  obtain ⟨d, stored⟩ := tenants_stored target
  have vetted := tenants_vetted source
  obtain ⟨g, ns, rs, live, inOrder, shown, rfl⟩ := exported_shows held.consistent exported
  obtain ⟨valid, bound⟩ := group_accepted vetted
    ((held.consistent.represents.groups.record g.id g).mpr live)
  obtain ⟨acceptable, apart⟩ := exported_acceptable held.consistent vetted inOrder shown
  have count : (ns.map NormalizedRoute.spec).length = ns.length := List.length_map _
  simp only [TenantRequest.draws, Requests.groupSpec, count] at free unlike few distinct drawable ⊢
  obtain ⟨g', created, v, e, ran, shown', filled, owner, same⟩ :=
    imported_filled stored.consistent valid bound acceptable apart free
      (fun old => unlike ((stored.minted _).mp old)) few auth' drawn distinct
      (fun id member old => (drawable id member).1 ((stored.minted id).mp old))
  refine ⟨v, ran, ?_⟩
  have name : g'.name = g.name := congrArg GroupSpec.name (same [])
  obtain ⟨rs', inOrder', again⟩ := run_exportGroupCore filled.consistent filled.resolved
    filled.live owner
  rw [name, filled.inOrder inOrder', routeSpecs_shows shown'] at again
  rw [again]
  show (Except.ok (Requests.groupSpec g' _), v) = _
  rw [same]
  rfl

end Migrating

namespace Sample

/-- A group with settings of its own and two routes, one imported and one created. -/
def fullShop : List (AuthContext × TenantRequest) :=
  [(member, .importGroup shopImport imported),
    (member, .createRoute ⟨some "shop", ["POST", "PUT"], "/cart/{id}/", "javascript", some "add"⟩
      ⟨⟨idD, idE⟩, 1, draw⟩),
    (member, .patchGroup "shop" ⟨none, none, some false, some true⟩)]

/-- A host with a group of another user. -/
def depot : List (AuthContext × TenantRequest) :=
  [(stranger, .createGroup ⟨some "depot", none, none⟩ idD 0 draw)]

def moved : ImportDraws :=
  ⟨idA, 7, draw, fun n => ⟨if n = 0 then ⟨idB, idC⟩ else ⟨idE, idF⟩, 7, draw⟩⟩

def shopSpec : GroupSpec :=
  ⟨"shop", some "90m", some false, some true,
    [⟨none, ["GET"], "/cart", some "typescript", some "handle", none⟩,
      ⟨none, ["POST", "PUT"], "/cart/{id}", some "javascript", some "add", none⟩]⟩

end Sample

theorem exported_imports_shop : ∃ (s t : CallState) (v : Store),
    (run (Requests.exportGroupCore Sample.member "shop") s.store).1 = .ok Sample.shopSpec ∧
      t.store.bytesAt (.groupByName "depot") = some (.text Sample.idD) ∧
      run (importGroupCore Sample.accepts Sample.stranger Sample.shopSpec Sample.moved) t.store =
        (.ok ⟨"shop", 2⟩, v) ∧
      run (Requests.exportGroupCore Sample.stranger "shop") v = (.ok Sample.shopSpec, v) := by
  have shop : ((exec (tenants Sample.accepts) ⟨Storage.empty .valkey, []⟩ Sample.fullShop).map
      (fun s => (run (Requests.exportGroupCore Sample.member "shop") s.store).1.toOption)) =
      some (some Sample.shopSpec) := by
    decide +kernel
  have depot : ((exec (tenants Sample.accepts) ⟨Storage.empty .inMemory, []⟩ Sample.depot).map
      (fun t => (t.store.bytesAt (.groupByName "depot"), t.store.bytesAt (.groupByName "shop"),
        t.minted))) = some (some (.text Sample.idD), none, [Sample.idD]) := by
    decide +kernel
  obtain ⟨s, kept, shown⟩ := Option.map_eq_some_iff.mp shop
  obtain ⟨t, opened, facts⟩ := Option.map_eq_some_iff.mp depot
  simp only [Prod.mk.injEq] at facts
  obtain ⟨there, free, minted⟩ := facts
  have source := reached_of_exec (m := tenants Sample.accepts) Sample.fullShop ⟨.valkey, rfl⟩ kept
  have target := reached_of_exec (m := tenants Sample.accepts) Sample.depot ⟨.inMemory, rfl⟩ opened
  rcases exported : run (Requests.exportGroupCore Sample.member "shop") s.store with ⟨e | spec, u⟩
  · rw [exported] at shown
    cases shown
  · rw [exported] at shown
    obtain rfl : spec = Sample.shopSpec := Option.some.inj shown
    obtain ⟨v, ran, again⟩ := exported_imports source target Sample.stranger exported free
      (by rw [minted]; decide) (by decide) Sample.moved (by decide) (by rw [minted]; decide)
    exact ⟨s, t, v, by rw [exported], there, ran, again⟩

end WireMirage
