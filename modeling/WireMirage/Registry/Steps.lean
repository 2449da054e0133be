import WireMirage.Registry.Refinement

/-!
Each operation of the registry is a step of the catalog: it changes the catalog its
store represents, or fails and leaves the store as it was.
-/
namespace WireMirage
open Prog

structure Consistent (s : Store) (c : Catalog) : Prop where
  represents : Represents s c
  sound : c.Sound

theorem consistent_empty (b : Backend) : Consistent (Storage.empty b) Catalog.empty :=
  ⟨represents_empty b, Catalog.sound_empty⟩

/-! Reading -/

section
variable {s : Store} {c : Catalog} (rep : Represents s c)
include rep

theorem routeAnswer_of_live {rid : String} {r : Route} (live : c.routes rid = some r) :
    routeAnswer s rid = .ok r :=
  routeAnswer_ok_iff.mpr ((rep.routes.record rid r).mpr live)

theorem groupAnswer_of_live {gid : String} {g : Group} (live : c.groups gid = some g) :
    groupAnswer s gid = .ok g :=
  groupAnswer_ok_iff.mpr ((rep.groups.record gid g).mpr live)

theorem routes_answer {ids : List String} (live : ∀ rid ∈ ids, ∃ r, c.routes rid = some r) :
    ids.mapM (routeAnswer s) = .ok (ids.filterMap c.routes) := by
  induction ids with
  | nil => rfl
  | cons rid ids ih =>
    obtain ⟨r, found⟩ := live rid List.mem_cons_self
    have rest := ih (fun id member => live id (List.mem_cons_of_mem rid member))
    rw [List.mapM_cons, routeAnswer_of_live rep found, rest, List.filterMap_cons, found]
    rfl

/-- The routes of a group, in the order its set lists them. -/
theorem group_routes_answer (gid : String) :
    (s.setAt (.routeInGroup gid)).mapM (routeAnswer s) =
      .ok ((s.setAt (.routeInGroup gid)).filterMap c.routes) := by
  apply routes_answer rep
  intro rid member
  obtain ⟨r, live, _⟩ := (rep.routes.inGroup gid rid).mp member
  exact ⟨r, live⟩

theorem mem_group_routes {gid : String} {r : Route} :
    r ∈ (s.setAt (.routeInGroup gid)).filterMap c.routes ↔
      ∃ rid, c.routes rid = some r ∧ r.groupId = gid := by
  rw [List.mem_filterMap]
  constructor
  · rintro ⟨rid, member, live⟩
    obtain ⟨q, found, home⟩ := (rep.routes.inGroup gid rid).mp member
    rw [live, Option.some.injEq] at found
    exact ⟨rid, live, found ▸ home⟩
  · rintro ⟨rid, live, home⟩
    exact ⟨rid, (rep.routes.inGroup gid rid).mpr ⟨r, live, home⟩, live⟩

/-- A reference that resolves leads to a group of the catalog. -/
theorem resolved_live [UlidText] {reference gid : String}
    (found : resolvedAnswer s reference = .ok gid) : ∃ g, c.groups gid = some g := by
  have leads := resolved_ok_iff.mp found
  split at leads
  · rename_i held
    subst leads
    cases record : c.groups gid with
    | some g => exact ⟨g, rfl⟩
    | none =>
      have rest := rep.groups.rest gid record
      simp [contains, rest] at held
  · obtain ⟨id, g, record, _, same⟩ := (rep.groups.byName reference _).mp leads
    cases same
    exact ⟨g, record⟩

/-- A slug that resolves leads to a route with its number in the group it names. -/
theorem slug_live [UlidText] {groupRef rid : String} {n : Nat}
    (found : slugAnswer s groupRef n = .ok rid) :
    ∃ r, c.routes rid = some r ∧ resolvedAnswer s groupRef = .ok r.groupId ∧ r.number = n := by
  obtain ⟨gid, resolved, index⟩ := slug_ok_iff.mp found
  obtain ⟨id, r, same, live, home, number⟩ := rep.routes.byNumber gid n _ index
  cases same
  exact ⟨r, live, home.symm ▸ resolved, number⟩

end

theorem scanConflict_ok {methods : Methods} {pattern : Pattern} {excludeId : Option String}
    {routes : List Route} (ok : scanConflict methods pattern excludeId routes = .ok ()) :
    ∀ q ∈ routes, excludeId ≠ some q.id → ∀ p, Pattern.parse q.path = .ok p →
      routesConflict methods pattern q.methods p = false := by
  induction routes with
  | nil => simp
  | cons q rest ih =>
    intro x member other p parsed
    unfold scanConflict at ok
    by_cases skip : excludeId = some q.id
    · rw [if_pos skip] at ok
      rcases List.mem_cons.mp member with rfl | inRest
      · exact absurd skip other
      · exact ih ok x inRest other p parsed
    · rw [if_neg skip] at ok
      cases existing : parsePath q.path with
      | error e => simp [existing] at ok
      | ok p' =>
        simp only [existing] at ok
        by_cases conflict : routesConflict methods pattern q.methods p' = true
        · simp [conflict] at ok
        · rw [if_neg conflict] at ok
          rcases List.mem_cons.mp member with rfl | inRest
          · rw [parse_path_ok existing, Except.ok.injEq] at parsed
            exact parsed ▸ Bool.not_eq_true _ ▸ conflict
          · exact ih ok x inRest other p parsed

/-- A scan that finds nothing leaves the pattern apart from every route of the group. -/
theorem scan_apart {s : Store} {c : Catalog} (rep : Represents s c) {gid : String}
    {methods : Methods} {pattern : Pattern} {excludeId : Option String}
    (scan : scanAnswer s gid methods pattern excludeId = .ok ()) :
    ∀ rid q, c.routes rid = some q → q.groupId = gid → excludeId ≠ some q.id →
      ∀ p, Pattern.parse q.path = .ok p → routesConflict methods pattern q.methods p = false := by
  intro rid q live home other p parsed
  unfold scanAnswer at scan
  rw [group_routes_answer rep] at scan
  exact scanConflict_ok scan q ((mem_group_routes rep).mpr ⟨rid, live, home⟩) other p parsed

/-! Groups and routes are created -/

section
variable {s : Store} {c : Catalog} (hold : Consistent s c)
include hold

theorem consistent_mint (id : String) : Consistent s (c.mint id) :=
  ⟨represents_mint hold.represents id, Catalog.sound_mint hold.sound id⟩

theorem consistent_groupCreated {g : Group} {owner : String} (new : g.id ∉ c.minted)
    (fresh : FreshGroup s g.id owner g) :
    Consistent (groupCreated s g) ((c.mint g.id).setGroup g) where
  represents := represents_groupCreated hold.represents hold.sound new fresh
  sound := by
    apply Catalog.sound_setGroup (Catalog.sound_mint hold.sound g.id)
    · exact List.mem_cons_self
    · intro gid h record same
      exact absurd same (name_free hold.represents fresh.free gid h record)
    · intro old record
      have none : c.groups g.id = Option.none := hold.sound.absent_group new
      have : c.groups g.id = some old := record
      simp [none] at this

theorem createGroup_step (params : NewGroup) (id : String) (now : Time) (draw : Nat → Draw)
    (new : id ∉ c.minted) :
    (∃ e, run (createGroup params id now draw) s = (.error e, s)) ∨
      ∃ g, run (createGroup params id now draw) s = (.ok g, groupCreated s g) ∧
        g.id = id ∧ g.ownerId = params.ownerId ∧
        s.bytesAt (.groupByName g.name) = none ∧
        Consistent (groupCreated s g) ((c.mint id).setGroup g) := by
  rcases createGroup_cases hold.represents.kinded params id now draw with
    failed | ⟨g, ran, fresh⟩
  · exact .inl failed
  · right
    obtain ⟨rfl, owner, free, ttl, idle⟩ := fresh
    exact ⟨g, ran, rfl, owner, free,
      consistent_groupCreated hold new ⟨rfl, owner, free, ttl, idle⟩⟩

/-- What a new route says of itself, of its group and of the state it was added to. -/
structure Added [UlidText] (s : Store) (c : Catalog) (params : NewRoute) (ids : NewIds)
    (r : Route) (d : Catalog) : Prop where
  id : r.id = ids.route
  owner : r.ownerId = params.ownerId
  group : (∃ reference, params.group = some reference ∧
      resolvedAnswer s reference = .ok r.groupId ∧ d = c) ∨
    ∃ g, params.group = none ∧ r.groupId = g.id ∧ g.id = ids.group ∧
      g.ownerId = params.ownerId ∧ d = (c.mint g.id).setGroup g

omit hold in
theorem asU32_lt (n : Int) : asU32 n < u32Size := by
  unfold asU32 u32Size
  omega

theorem consistent_routeStored {g : Group} {params : NewRoute} {pattern : Pattern} {n : Int}
    {id : String} (now : Time) (new : id ∉ c.minted) (home : c.groups g.id = some g)
    (parsed : Pattern.parse params.path = .ok pattern)
    (valid : ∀ m ∈ params.methods, validMethod m = true)
    (scan : scanAnswer s g.id params.methods pattern none = .ok ()) :
    let r := newRoute params g pattern.raw (asU32 n) id now
    Consistent (routeStored (routeCounted s g.id n) r) ((c.mint id).setRoute r) := by
  intro r
  have apart := scan_apart hold.represents scan
  refine ⟨?_, ?_⟩
  · exact represents_routeStored hold.represents hold.sound (r := r) new
      (hold.sound.mintedGroup home) (asU32_lt n) rfl rfl n
  · apply Catalog.sound_setRoute (Catalog.sound_mint hold.sound id) (r := r)
    · exact List.mem_cons_self
    · exact ⟨g, home, rfl⟩
    · exact ⟨pattern, parse_raw parsed⟩
    · exact valid
    · intro rid q live _ same p p' hp hp'
      rw [show r.path = pattern.raw from rfl, parse_raw parsed, Except.ok.injEq] at hp
      rw [← hp]
      exact apart rid q live same (by simp) p' hp'

theorem createRoute_step [UlidText] (params : NewRoute) (ids : NewIds) (now : Time)
    (draw : Nat → Draw) (newGroup : ids.group ∉ c.minted) (newRoute_ : ids.route ∉ c.minted)
    (differ : ids.group ≠ ids.route) :
    (∃ e, run (createRoute params ids now draw) s = (.error e, s)) ∨
      ∃ r t d, run (createRoute params ids now draw) s = (.ok r, t) ∧
        RouteCreated s params ids now r t ∧ Added s c params ids r d ∧
        Consistent t ((d.mint ids.route).setRoute r) := by
  -- in a group of its own a route meets nothing: no other route and no counter
  have alone : ∀ g, FreshGroup s ids.group params.ownerId g →
      (∀ m p, scanAnswer (groupCreated s g) g.id m p none = .ok ()) ∧
        countAnswer (groupCreated s g) g.id = .ok 1 := by
    intro g fresh
    have new : g.id ∉ c.minted := fresh.id ▸ newGroup
    have grown := consistent_groupCreated hold new
      ⟨rfl, fresh.owner, fresh.free, fresh.ttl, fresh.idle⟩
    refine ⟨fun m p => ?_, ?_⟩
    · unfold scanAnswer
      rw [group_routes_answer grown.represents]
      have vacant : (groupCreated s g).setAt (.routeInGroup g.id) = [] := by
        rw [List.eq_nil_iff_forall_not_mem]
        intro rid member
        obtain ⟨r, live, home⟩ := (grown.represents.routes.inGroup g.id rid).mp member
        obtain ⟨h, record, _⟩ := hold.sound.parent (r := r) live
        rw [home, hold.sound.absent_group new] at record
        cases record
      rw [vacant]
      rfl
    · have vacant : (groupCreated s g).hashAt (.groupCounters g.id) = ∅ := by
        simpa [groupCreated, groupArmed, ttlArmed, groupWritten] using
          (hold.represents.groups.fresh g.id new).2
      unfold countAnswer
      rw [vacant]
      rfl
  rcases createRoute_cases hold.represents.kinded params ids now draw with
    failed | ⟨e, g, t, ran, target, why⟩ | ⟨r, t, ran, created⟩
  · exact .inl failed
  · cases target with
    | existing => exact .inl ⟨e, ran⟩
    | implicit unnamed fresh =>
      obtain ⟨scanned, counted⟩ := alone g fresh
      rcases why with ⟨pattern, e', bad⟩ | ⟨e', bad⟩
      · simp [scanned] at bad
      · simp [counted] at bad
  · right
    obtain ⟨pattern, g, u, n, parsed, valid, target, scan, count, rfl, rfl⟩ := created.made
    have methods := (validate_methods_ok valid).2.2
    cases target with
    | existing named found record =>
      rename_i reference gid
      have live := (hold.represents.groups.record gid g).mp record
      have same := hold.sound.groupId live
      have step := consistent_routeStored hold now newRoute_ (same.symm ▸ live) parsed
        methods scan (n := n)
      exact ⟨_, _, c, ran, created,
        ⟨rfl, rfl, .inl ⟨reference, named, by rw [found, ← same]; rfl, rfl⟩⟩, step⟩
    | implicit unnamed fresh =>
      have new : g.id ∉ c.minted := fresh.id ▸ newGroup
      have grown := consistent_groupCreated hold new
        ⟨rfl, fresh.owner, fresh.free, fresh.ttl, fresh.idle⟩
      have route : ids.route ∉ ((c.mint g.id).setGroup g).minted := by
        intro held
        rcases List.mem_cons.mp held with same | old
        · exact differ (fresh.id ▸ same.symm)
        · exact newRoute_ old
      have step := consistent_routeStored grown now (g := g) route
        (by simp [Catalog.setGroup]) parsed methods scan (n := n)
      exact ⟨_, _, _, ran, created,
        ⟨rfl, rfl, .inr ⟨g, unnamed, rfl, fresh.id, fresh.owner, rfl⟩⟩, step⟩

end

/-! Routes are changed and deleted -/

section PatchedFields
variable {h : Fields Val} {r : Route} (fields : RouteFields h r)
include fields

theorem route_fields_methods (ms : List String) :
    RouteFields (h.insert "methods" (.methods ms)) { r with methods := ms } := by
  obtain ⟨a, b, d, e, f, g, i, j, k, l, m, n, o, p⟩ := fields
  unfold HitsField at o
  constructor <;> simp [HitsField, *]

theorem route_fields_path (path : String) :
    RouteFields (h.insert "path" (.text path)) { r with path := path } := by
  obtain ⟨a, b, d, e, f, g, i, j, k, l, m, n, o, p⟩ := fields
  unfold HitsField at o
  constructor <;> simp [HitsField, *]

theorem route_fields_language (language : String) :
    RouteFields (h.insert "language" (.text language)) { r with language := language } := by
  obtain ⟨a, b, d, e, f, g, i, j, k, l, m, n, o, p⟩ := fields
  unfold HitsField at o
  constructor <;> simp [HitsField, *]

theorem route_fields_bindings (version : String) :
    RouteFields (h.insert "bindings_version" (.text version))
      { r with bindingsVersion := version } := by
  obtain ⟨a, b, d, e, f, g, i, j, k, l, m, n, o, p⟩ := fields
  unfold HitsField at o
  constructor <;> simp [HitsField, *]

theorem route_fields_wasm (wasm : Bytes) :
    RouteFields (h.insert "compiled_wasm" (.blob wasm)) { r with compiledWasm := wasm } := by
  obtain ⟨a, b, d, e, f, g, i, j, k, l, m, n, o, p⟩ := fields
  unfold HitsField at o
  constructor <;> simp [HitsField, *]

theorem route_fields_source (src : String) :
    RouteFields (h.insert "source" (.text src)) { r with source := some src } := by
  obtain ⟨a, b, d, e, f, g, i, j, k, l, m, n, o, p⟩ := fields
  unfold HitsField at o
  constructor <;> simp [HitsField, Val.utf8, *]

theorem route_fields_no_source : RouteFields (h.erase "source") { r with source := none } := by
  obtain ⟨a, b, d, e, f, g, i, j, k, l, m, n, o, p⟩ := fields
  unfold HitsField at o
  constructor <;> simp [HitsField, *]

theorem route_fields_groupName (name : String) :
    RouteFields (h.insert "group_name" (.text name)) { r with groupName := name } := by
  obtain ⟨a, b, d, e, f, g, i, j, k, l, m, n, o, p⟩ := fields
  unfold HitsField at o
  constructor <;> simp [HitsField, *]

theorem route_fields_last (now : Time) :
    RouteFields (h.insert "last_hit_at" (.time now)) { r with lastHitAt := some now } := by
  obtain ⟨a, b, d, e, f, g, i, j, k, l, m, n, o, p⟩ := fields
  unfold HitsField at o
  constructor <;> simp [HitsField, *]

theorem route_fields_hits (count : Nat) (bound : count < u64Size) :
    RouteFields (h.insert "hits_total" (.int count)) { r with hitsTotal := count } := by
  obtain ⟨a, b, d, e, f, g, i, j, k, l, m, n, o, p⟩ := fields
  constructor <;> simp [HitsField, *]

end PatchedFields

section
variable {s : Store}

theorem hashAt_fieldPatched {A : Type} (k : Key) (field : String) (encode : A → Val)
    (o : Option A) : (fieldPatched k field encode s o).hashAt k =
      o.elim (s.hashAt k) (fun a => (s.hashAt k).insert field (encode a)) := by
  cases o <;> simp [fieldPatched]

theorem hashAt_sourcePatched (k : Key) (o : Option (Option String)) :
    (sourcePatched k s o).hashAt k =
      match o with
      | none => s.hashAt k
      | some (some src) => (s.hashAt k).insert "source" (.text src)
      | some none => (s.hashAt k).erase "source" := by
  rcases o with _ | _ | src <;> simp [sourcePatched]

theorem sameAt_fieldPatched {A : Type} {k k' : Key} (field : String) (encode : A → Val)
    (o : Option A) (other : k' ≠ k) : SameAt s (fieldPatched k field encode s o) k' := by
  cases o <;> simp [SameAt, fieldPatched, other]

theorem sameAt_sourcePatched {k k' : Key} (o : Option (Option String)) (other : k' ≠ k) :
    SameAt s (sourcePatched k s o) k' := by
  rcases o with _ | _ | src <;> simp [SameAt, sourcePatched, other]

theorem SameAt.trans {s t u : Store} {k : Key} (one : SameAt s t k) (two : SameAt t u k) :
    SameAt s u k :=
  ⟨two.1.trans one.1, two.2.1.trans one.2.1, two.2.2.trans one.2.2⟩

theorem sameAt_routePatched {rid : String} {patch : PatchRoute} {path : String} {k : Key}
    (other : k ≠ .route rid) : SameAt s (routePatched s rid patch path) k := by
  unfold routePatched
  exact (sameAt_fieldPatched _ _ _ other).trans <| (sameAt_fieldPatched _ _ _ other).trans <|
    (sameAt_fieldPatched _ _ _ other).trans <| (sameAt_fieldPatched _ _ _ other).trans <|
    (sameAt_fieldPatched _ _ _ other).trans <| sameAt_sourcePatched _ other

/-- A patched record reads as the record with the patch applied. -/
theorem route_at_patched {rid : String} {old : Route} {patch : PatchRoute} {path : String}
    (record : RouteAt s rid old) (newPath : patchedPath patch old = .ok path) :
    RouteAt (routePatched s rid patch path) rid (patch.apply path old) := by
  have samePath : patch.path = none → path = old.path := by
    intro none
    simpa [patchedPath, none, eq_comm] using newPath
  obtain ⟨methods, newPath', language, bindings, wasm, source⟩ := patch
  unfold RouteAt routePatched PatchRoute.apply
  rw [hashAt_sourcePatched]
  simp only [hashAt_fieldPatched]
  have one : RouteFields (methods.elim (s.hashAt (.route rid))
      (fun a => (s.hashAt (.route rid)).insert "methods" (.methods a)))
      { old with methods := methods.getD old.methods } := by
    cases methods with
    | none => exact record
    | some ms => exact route_fields_methods record ms
  have two := show RouteFields (Option.elim (newPath'.map (fun _ => path)) _
      (fun a => AList.insert "path" (.text a) _)) { old with
        methods := methods.getD old.methods, path := path } by
    cases newPath' with
    | none => exact samePath rfl ▸ one
    | some p => exact route_fields_path one path
  have three := show RouteFields (language.elim _ (fun a => AList.insert "language" (.text a) _))
      { old with
        methods := methods.getD old.methods, path := path
        language := language.getD old.language } by
    cases language with
    | none => exact two
    | some l => exact route_fields_language two l
  have four := show RouteFields
      (bindings.elim _ (fun a => AList.insert "bindings_version" (.text a) _))
      { old with
        methods := methods.getD old.methods, path := path
        language := language.getD old.language
        bindingsVersion := bindings.getD old.bindingsVersion } by
    cases bindings with
    | none => exact three
    | some v => exact route_fields_bindings three v
  have five := show RouteFields (wasm.elim _ (fun a => AList.insert "compiled_wasm" (.blob a) _))
      { old with
        methods := methods.getD old.methods, path := path
        language := language.getD old.language
        bindingsVersion := bindings.getD old.bindingsVersion
        compiledWasm := wasm.getD old.compiledWasm } by
    cases wasm with
    | none => exact four
    | some b => exact route_fields_wasm four b
  rcases source with _ | _ | src
  · exact five
  · exact route_fields_no_source five
  · exact route_fields_source five src

end

/-! Steps that change one record -/

section
variable {s : Store} {c : Catalog} (hold : Consistent s c)
include hold

/-- What an updated route keeps, and what it was checked against. -/
structure Updated [UlidText] (s : Store) (c : Catalog) (groupRef : String) (number : Nat)
    (patch : PatchRoute) (old r : Route) : Prop where
  before : c.routes old.id = some old
  resolved : resolvedAnswer s groupRef = .ok old.groupId
  number : old.number = number
  applied : ∃ path, patchedPath patch old = .ok path ∧ r = patch.apply path old

theorem updateRoute_step [UlidText] (groupRef : String) (number : Nat) (patch : PatchRoute) :
    (∃ e, run (updateRoute groupRef number patch) s = (.error e, s)) ∨
      ∃ old r t, run (updateRoute groupRef number patch) s = (.ok r, t) ∧
        Updated s c groupRef number patch old r ∧ Consistent t (c.setRoute r) ∧
        (∀ k, k ≠ .route old.id → SameAt s t k) := by
  rcases updateRoute_cases hold.represents.kinded groupRef number patch with
    failed | ⟨r, t, ran, updated⟩
  · exact .inl failed
  · right
    obtain ⟨rid, old, methods, path, slug, record, newMethods, newPath, checked, rfl, rfl⟩ :=
      updated.made
    have rep := hold.represents
    have live := (rep.routes.record rid old).mp record
    have id := hold.sound.routeId live
    subst id
    obtain ⟨x, there, resolved, numbered⟩ := slug_live rep slug
    rw [live, Option.some.injEq] at there
    subst there
    have kinded : (routePatched s old.id patch path).WellKinded :=
      wellKinded_routePatched rep.kinded old.id patch path
    have same : ∀ k, k ≠ .route old.id → SameAt s (routePatched s old.id patch path) k :=
      fun k other => sameAt_routePatched other
    refine ⟨old, _, _, ran, ⟨live, resolved, numbered, path, newPath, rfl⟩, ⟨⟨kinded, ?_, ?_⟩, ?_⟩,
      same⟩
    · exact routeSide_setRoute rep.routes (r := patch.apply path old) live rfl rfl rfl
        (route_at_patched record newPath) (fun k _ other => same k other)
    · refine groupSide_congr rep.groups (fun k mine => same k ?_) rfl (fun _ old => old)
      rintro rfl
      simp [Key.ofGroup] at mine
    · have valid : ∀ m ∈ (patch.apply path old).methods, validMethod m = true := by
        unfold PatchRoute.apply
        unfold patchedMethods at newMethods
        cases given : patch.methods with
        | none => simpa [given] using hold.sound.methods live
        | some ms =>
          simp only [given] at newMethods ⊢
          cases checked : validateMethods ms with
          | error e => simp [checked, Except.map] at newMethods
          | ok out => exact (validate_methods_ok checked).2.2
      have parses : ∃ p, Pattern.parse (patch.apply path old).path = .ok p := by
        show ∃ p, Pattern.parse path = .ok p
        unfold patchedPath at newPath
        cases given : patch.path with
        | none =>
          simp only [given, Except.ok.injEq] at newPath
          exact newPath ▸ hold.sound.path live
        | some raw =>
          simp only [given] at newPath
          cases parsed : parsePath raw with
          | error e => simp [parsed, Except.map] at newPath
          | ok p =>
            simp only [parsed, Except.map, Except.ok.injEq] at newPath
            exact ⟨p, newPath ▸ parse_raw (parse_path_ok parsed)⟩
      have home : ∃ g, c.groups old.groupId = some g ∧ g.name = old.groupName :=
        hold.sound.parent live
      apply Catalog.sound_setRoute hold.sound (r := patch.apply path old)
        (hold.sound.mintedRoute live) home parses valid
      intro rid q liveQ other home p p' hp hp'
      by_cases changing : patch.methods.isSome ∨ patch.path.isSome
      · obtain ⟨pattern, parsed, scan⟩ := checked changing
        have chosen : methods = (patch.apply path old).methods := by
          unfold patchedMethods at newMethods
          unfold PatchRoute.apply
          cases given : patch.methods with
          | none => simpa [given, eq_comm] using newMethods
          | some ms =>
            simp only [given] at newMethods ⊢
            cases validated : validateMethods ms with
            | error e => simp [validated, Except.map] at newMethods
            | ok out => simpa [validated, Except.map, eq_comm] using newMethods
        have samePattern : pattern = p := by
          have : Pattern.parse path = .ok p := hp
          rw [parsed, Except.ok.injEq] at this
          exact this
        rw [← chosen, ← samePattern]
        refine scan_apart rep scan rid q liveQ home ?_ p' hp'
        intro excluded
        rw [Option.some.injEq, hold.sound.routeId liveQ] at excluded
        exact other excluded.symm
      · rw [not_or, Option.not_isSome_iff_eq_none, Option.not_isSome_iff_eq_none] at changing
        have noPath : path = old.path := by
          simpa [patchedPath, changing.2, eq_comm] using newPath
        have unchanged : (patch.apply path old).methods = old.methods := by
          simp [PatchRoute.apply, changing.1]
        rw [unchanged]
        have hp : Pattern.parse path = .ok p := hp
        rw [noPath] at hp
        exact hold.sound.apart live liveQ (fun h => other h.symm) home.symm p p' hp hp'

/-- What a store shows once a route has been taken out of it. -/
structure Removed (s t : Store) (r : Route) : Prop where
  kinded : t.WellKinded
  hash : ∀ rid, rid ≠ r.id → t.hashAt (.route rid) = s.hashAt (.route rid)
  vacant : (t.hashAt (.route r.id)).lookup "id" = none
  all : ∀ rid, rid ∈ t.setAt .routeAll ↔ rid ∈ s.setAt .routeAll ∧ rid ≠ r.id
  inGroup : ∀ gid rid, rid ∈ t.setAt (.routeInGroup gid) ↔
    rid ∈ s.setAt (.routeInGroup gid) ∧ ¬ (gid = r.groupId ∧ rid = r.id)
  byOwner : ∀ owner rid, rid ∈ t.setAt (.routeByOwner owner) ↔
    rid ∈ s.setAt (.routeByOwner owner) ∧ ¬ (owner = r.ownerId ∧ rid = r.id)
  byNumber : ∀ gid n, t.bytesAt (.routeByNumber gid n) =
    if gid = r.groupId ∧ n = r.number then none else s.bytesAt (.routeByNumber gid n)
  groups : ∀ k, k.ofGroup = true → SameAt s t k

omit hold in
theorem represents_removed {t : Store} {r : Route} (rep : Represents s c)
    (live : c.routes r.id = some r) (gone : Removed s t r) :
    Represents t (c.dropRoute r.id) := by
  have routes : ∀ rid, (c.dropRoute r.id).routes rid =
      if rid = r.id then none else c.routes rid := fun _ => rfl
  have listed : ∀ (P : Route → Prop) (rid : String),
      (∃ x, (c.dropRoute r.id).routes rid = some x ∧ P x) ↔
        (∃ x, c.routes rid = some x ∧ P x) ∧ rid ≠ r.id := by
    intro P rid
    rw [routes]
    by_cases here : rid = r.id <;> simp [here]
  refine ⟨gone.kinded, ?_, groupSide_congr rep.groups gone.groups rfl (fun _ old => old)⟩
  constructor
  · intro rid x
    rw [routes]
    by_cases here : rid = r.id
    · rw [if_pos here, here]
      exact ⟨fun fields => absurd fields (vacant_route gone.vacant x), fun none => by cases none⟩
    · rw [if_neg here]
      unfold RouteAt
      rw [gone.hash rid here]
      exact rep.routes.record rid x
  · intro rid none
    by_cases here : rid = r.id
    · exact here ▸ gone.vacant
    · rw [routes, if_neg here] at none
      rw [gone.hash rid here]
      exact rep.routes.rest rid none
  · intro rid
    rw [gone.all, rep.routes.all]
    simpa using (listed (fun _ => True) rid).symm
  · intro gid rid
    rw [gone.inGroup, rep.routes.inGroup, listed]
    constructor
    · rintro ⟨⟨x, found, home⟩, other⟩
      refine ⟨⟨x, found, home⟩, ?_⟩
      rintro rfl
      rw [live, Option.some.injEq] at found
      exact other ⟨found ▸ home.symm, rfl⟩
    · rintro ⟨found, other⟩
      exact ⟨found, fun both => other both.2⟩
  · intro owner rid
    rw [gone.byOwner, rep.routes.byOwner, listed]
    constructor
    · rintro ⟨⟨x, found, home⟩, other⟩
      refine ⟨⟨x, found, home⟩, ?_⟩
      rintro rfl
      rw [live, Option.some.injEq] at found
      exact other ⟨found ▸ home.symm, rfl⟩
    · rintro ⟨found, other⟩
      exact ⟨found, fun both => other both.2⟩
  · intro gid n v found
    rw [gone.byNumber] at found
    by_cases mine : gid = r.groupId ∧ n = r.number
    · simp [mine] at found
    · rw [if_neg mine] at found
      obtain ⟨rid, x, is, there, home, number⟩ := rep.routes.byNumber gid n v found
      refine ⟨rid, x, is, ?_, home, number⟩
      rw [routes, if_neg]
      · exact there
      · rintro rfl
        rw [live, Option.some.injEq] at there
        exact mine ⟨there ▸ home.symm, there ▸ number.symm⟩
  · intro rid new
    have here : rid ≠ r.id := by
      rintro rfl
      have full := ((rep.routes.record r.id r).mpr live).id
      simp [rep.routes.fresh r.id new] at full
    rw [gone.hash rid here]
    exact rep.routes.fresh rid new

omit hold in
theorem mem_setAt_dropMember (k k' : Key) (x y : String) :
    y ∈ (s.dropMember k x).setAt k' ↔ y ∈ s.setAt k' ∧ ¬ (k' = k ∧ y = x) := by
  rw [Storage.setAt_dropMember]
  by_cases same : k' = k
  · subst same
    rw [if_pos rfl, Storage.mem_setAt_erase]
    simp [and_comm]
  · simp [same]

omit hold in
theorem removed_routeDeleted (wk : s.WellKinded) (r : Route) :
    Removed s (routeDeleted s r.id r) r where
  kinded := (leads_removeRoute r.id r wk).2
  hash := by
    intro rid other
    simp [routeDeleted, indexesStripped, KeyPrefix.covers, other]
  vacant := by
    simp [routeDeleted, indexesStripped, KeyPrefix.covers, Storage.lookup_eraseFields,
      deletedRouteFields]
  all := by
    intro rid
    simp [routeDeleted, indexesStripped, KeyPrefix.covers, Storage.mem_setAt_erase, and_comm]
  inGroup := by
    intro gid rid
    by_cases same : gid = r.groupId <;>
      simp [routeDeleted, indexesStripped, KeyPrefix.covers, Storage.mem_setAt_erase, same,
        and_comm]
  byOwner := by
    intro owner rid
    by_cases same : owner = r.ownerId <;>
      simp [routeDeleted, indexesStripped, KeyPrefix.covers, Storage.mem_setAt_erase, same,
        and_comm]
  byNumber := by
    intro gid n
    simp [routeDeleted, indexesStripped, KeyPrefix.covers]
  groups := by
    intro k mine
    cases k <;> simp only [Key.ofGroup, Bool.false_eq_true] at mine <;>
      simp [SameAt, routeDeleted, indexesStripped, KeyPrefix.covers]

theorem deleteRoute_step [UlidText] (groupRef : String) (number : Nat) :
    (∃ e, run (deleteRoute groupRef number) s = (.error e, s)) ∨
      ∃ r, run (deleteRoute groupRef number) s = (.ok (), routeDeleted s r.id r) ∧
        slugAnswer s groupRef number = .ok r.id ∧ c.routes r.id = some r ∧
        Consistent (routeDeleted s r.id r) (c.dropRoute r.id) := by
  rcases deleteRoute_cases hold.represents.kinded groupRef number with
    failed | ⟨rid, r, ran, slug, record⟩
  · exact .inl failed
  · right
    have rep := hold.represents
    have live := (rep.routes.record rid r).mp record
    have id := hold.sound.routeId live
    subst id
    exact ⟨r, ran, slug, live,
      represents_removed rep live (removed_routeDeleted rep.kinded r),
      Catalog.sound_dropRoute hold.sound r.id⟩

end

end WireMirage
