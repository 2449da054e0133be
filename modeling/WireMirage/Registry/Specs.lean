import WireMirage.Registry.Changes

/-!
One specification for each operation of the registry: what it answers and the
state it leaves, in terms of the state it starts from.
-/
namespace WireMirage
open Prog

/-! References -/

def resolvedAnswer [UlidText] (s : Store) (reference : String) : Except RegistryError String :=
  (resolveAnswer s reference).bind (fun found => found.elim (.error .notFound) .ok)

/-- The id under a by-number index entry. -/
def numberAnswer (s : Store) (gid : String) (number : Nat) : Except RegistryError String :=
  match s.bytesAt (.routeByNumber gid number) with
  | none => .error .notFound
  | some v =>
    match v.utf8 with
    | none => .error (.malformed "route ulid")
    | some id => .ok id

def slugAnswer [UlidText] (s : Store) (groupRef : String) (number : Nat) :
    Except RegistryError String :=
  (resolvedAnswer s groupRef).bind (fun gid => numberAnswer s gid number)

section References
variable [UlidText] {s : Store} (wk : s.WellKinded)
include wk

theorem run_routeIdBySlug (groupRef : String) (number : Nat) :
    run (routeIdBySlug groupRef number) s = (slugAnswer s groupRef number, s) := by
  unfold routeIdBySlug slugAnswer
  simp only [run_bind, run_resolved wk]
  show andThen (resolvedAnswer s groupRef, s) _ = _
  cases resolvedAnswer s groupRef with
  | error e => rfl
  | ok gid =>
    simp only [andThen_ok, run_bind, run_get wk (k := .routeByNumber gid number) rfl]
    show _ = (numberAnswer s gid number, s)
    unfold numberAnswer
    cases s.bytesAt (.routeByNumber gid number) with
    | none => rfl
    | some v => cases read : v.utf8 <;> simp [read]

theorem run_getRouteBySlug (groupRef : String) (number : Nat) :
    run (getRouteBySlug groupRef number) s =
      ((slugAnswer s groupRef number).bind (routeAnswer s), s) := by
  unfold getRouteBySlug
  simp only [run_bind, run_routeIdBySlug wk]
  cases slugAnswer s groupRef number with
  | error e => rfl
  | ok rid => exact run_readRoute wk rid

theorem run_readGroupByRef (reference : String) :
    run (readGroupByRef reference) s =
      ((resolvedAnswer s reference).bind (groupAnswer s), s) := by
  unfold readGroupByRef
  simp only [run_bind, run_resolved wk]
  show andThen (resolvedAnswer s reference, s) _ = _
  cases resolvedAnswer s reference with
  | error e => rfl
  | ok gid => exact run_readGroup wk gid

end References

/-- A reference resolves to a group id: by the record under the id, or by name. -/
theorem resolved_ok_iff [UlidText] {s : Store} {reference gid : String} :
    resolvedAnswer s reference = .ok gid ↔
      if UlidText.fromString reference ∧ reference ≠ "" ∧
          contains (s.hashAt (.group reference)) "id" then gid = reference
      else s.bytesAt (.groupByName reference) = some (.text gid) := by
  unfold resolvedAnswer resolveAnswer
  split
  · simp [Except.bind, eq_comm]
  · unfold nameAnswer
    cases s.bytesAt (.groupByName reference) with
    | none => simp [Except.bind]
    | some v => cases v <;> simp [Except.bind, Val.utf8]

theorem number_ok_iff {s : Store} {gid rid : String} {n : Nat} :
    numberAnswer s gid n = .ok rid ↔ s.bytesAt (.routeByNumber gid n) = some (.text rid) := by
  unfold numberAnswer
  cases s.bytesAt (.routeByNumber gid n) with
  | none => simp
  | some v => cases v <;> simp [Val.utf8]

theorem slug_ok_iff [UlidText] {s : Store} {groupRef rid : String} {n : Nat} :
    slugAnswer s groupRef n = .ok rid ↔
      ∃ gid, resolvedAnswer s groupRef = .ok gid ∧
        s.bytesAt (.routeByNumber gid n) = some (.text rid) := by
  unfold slugAnswer
  cases resolvedAnswer s groupRef with
  | error e => simp [Except.bind]
  | ok gid => simp [Except.bind, number_ok_iff]

/-! Creating a group -/

section CreateGroup
variable {s : Store} (wk : s.WellKinded)
include wk

/-- Drawing a name only reads, and a name it yields is free. -/
theorem firstFreeName_cases (draws : List Draw) :
    ∃ found, run (firstFreeName draws) s = (.ok found, s) ∧
      ∀ name ∈ found, s.bytesAt (.groupByName name) = none := by
  induction draws with
  | nil => exact ⟨none, rfl, by simp⟩
  | cons draw rest ih =>
    unfold firstFreeName
    simp only [run_bind, run_get wk (k := .groupByName (generate draw)) rfl, andThen_ok]
    cases free : s.bytesAt (.groupByName (generate draw)) with
    | none => exact ⟨some (generate draw), rfl, by simpa using free⟩
    | some v => exact ih

theorem firstFreeNumber_cases (base : String) (fuel n : Nat) :
    (∃ e, run (firstFreeNumber base fuel n) s = (.error e, s)) ∨
      ∃ name, run (firstFreeNumber base fuel n) s = (.ok name, s) ∧
        s.bytesAt (.groupByName name) = none := by
  induction fuel generalizing n with
  | zero => exact .inl ⟨.panicked, rfl⟩
  | succ fuel ih =>
    unfold firstFreeNumber
    simp only [run_bind, run_get wk (k := .groupByName (base ++ "-" ++ toString n)) rfl,
      andThen_ok]
    cases free : s.bytesAt (.groupByName (base ++ "-" ++ toString n)) with
    | none => exact .inr ⟨_, rfl, free⟩
    | some v => exact ih (n + 1)

theorem generateGroupName_cases (draw : Nat → Draw) :
    (∃ e, run (generateGroupName draw) s = (.error e, s)) ∨
      ∃ name, run (generateGroupName draw) s = (.ok name, s) ∧
        s.bytesAt (.groupByName name) = none := by
  unfold generateGroupName
  obtain ⟨found, ran, free⟩ := firstFreeName_cases wk ((List.range 8).map draw)
  simp only [run_bind, ran, andThen_ok]
  cases found with
  | some name => exact .inr ⟨name, rfl, free name rfl⟩
  | none => exact firstFreeNumber_cases wk _ _ 2

theorem newGroupName_cases (name : String) (draw : Nat → Draw) :
    (∃ e, run (newGroupName name draw) s = (.error e, s)) ∨
      ∃ chosen, run (newGroupName name draw) s = (.ok chosen, s) ∧
        s.bytesAt (.groupByName chosen) = none := by
  unfold newGroupName
  by_cases blank : isBlank name
  · rw [if_pos blank]
    exact generateGroupName_cases wk draw
  · rw [if_neg blank]
    by_cases bad : ¬ isValidLabel name
    · rw [if_pos bad]
      exact .inl ⟨_, rfl⟩
    · rw [if_neg bad]
      simp only [run_bind, run_get wk (k := .groupByName name) rfl, andThen_ok]
      cases free : s.bytesAt (.groupByName name) with
      | none => exact .inr ⟨name, rfl, free⟩
      | some v => exact .inl ⟨_, rfl⟩

omit wk in
theorem leads_storeGroup (g : Group) :
    Leads Storage.WellKinded (storeGroup g) s g (groupCreated s g) :=
  (leads_writeGroup g).bind <| (leads_armGroupTtls _ _ _).bind Leads.pure

omit wk in
theorem normalizeTtl_cases (ttl : Nat) :
    (∃ e, normalizeTtl ttl = .error e) ∨ (normalizeTtl ttl = .ok ttl ∧ ttl < u64Size) := by
  unfold normalizeTtl maxGroupTtlSeconds u64Size
  split
  · exact .inl ⟨_, rfl⟩
  · right
    refine ⟨rfl, ?_⟩
    omega

/-- A record that a group can be created with in a state. -/
structure FreshGroup (s : Store) (id ownerId : String) (g : Group) : Prop where
  id : g.id = id
  owner : g.ownerId = ownerId
  free : s.bytesAt (.groupByName g.name) = none
  ttl : g.ttlSeconds < u64Size
  idle : g.lastActivityAt = none

theorem createGroup_cases (params : NewGroup) (id : String) (now : Time) (draw : Nat → Draw) :
    (∃ e, run (createGroup params id now draw) s = (.error e, s)) ∨
      ∃ g, run (createGroup params id now draw) s = (.ok g, groupCreated s g) ∧
        FreshGroup s id params.ownerId g := by
  unfold createGroup
  rcases newGroupName_cases wk params.name draw with ⟨e, ran⟩ | ⟨name, ran, free⟩
  · left
    exact ⟨e, by rw [run_bind, ran, andThen_error]⟩
  · rw [run_bind, ran, andThen_ok, run_bind, run_ofExcept]
    rcases normalizeTtl_cases (params.ttlSeconds.getD defaultGroupTtlSeconds) with
      ⟨e, bad⟩ | ⟨good, bound⟩
    · left
      exact ⟨e, by rw [bad, andThen_error]⟩
    · right
      rw [good, andThen_ok]
      exact ⟨_, (leads_storeGroup _).run_eq wk, ⟨rfl, rfl, free, bound, rfl⟩⟩

theorem createImplicitGroup_cases (ownerId id : String) (now : Time) (draw : Nat → Draw) :
    (∃ e, run (createImplicitGroup ownerId id now draw) s = (.error e, s)) ∨
      ∃ g, run (createImplicitGroup ownerId id now draw) s = (.ok g, groupCreated s g) ∧
        FreshGroup s id ownerId g := by
  unfold createImplicitGroup
  rcases generateGroupName_cases wk draw with ⟨e, ran⟩ | ⟨name, ran, free⟩
  · left
    exact ⟨e, by rw [run_bind, ran, andThen_error]⟩
  · right
    rw [run_bind, ran, andThen_ok]
    have bound : defaultGroupTtlSeconds < u64Size := by decide
    exact ⟨_, (leads_storeGroup _).run_eq wk, ⟨rfl, rfl, free, bound, rfl⟩⟩

end CreateGroup

/-! Routes -/

/-- What the conflict scan of a group answers. -/
def scanAnswer (s : Store) (gid : String) (methods : Methods) (pattern : Pattern)
    (excludeId : Option String) : Except RegistryError Unit :=
  ((s.setAt (.routeInGroup gid)).mapM (routeAnswer s)).bind
    (scanConflict methods pattern excludeId)

/-- The next route number of a group, when its counter can be read and raised. -/
def countAnswer (s : Store) (gid : String) : Except RegistryError Int :=
  (s.addInt (.groupCounters gid) (some "next_route_number")
    ((s.hashAt (.groupCounters gid)).lookup "next_route_number") 1).mapError .storage

/-- The group a new route goes into, and the state in which the route is then added. -/
inductive Target [UlidText] (s : Store) (params : NewRoute) (groupId : String) :
    Group → Store → Prop where
  | existing {reference gid : String} {g : Group} (named : params.group = some reference)
      (found : resolvedAnswer s reference = .ok gid) (record : GroupAt s gid g) :
      Target s params groupId g s
  | implicit {g : Group} (unnamed : params.group = none)
      (fresh : FreshGroup s groupId params.ownerId g) :
      Target s params groupId g (groupCreated s g)

/-- What a successful creation of a route has checked and written. -/
structure RouteCreated [UlidText] (s : Store) (params : NewRoute) (ids : NewIds) (now : Time)
    (r : Route) (t : Store) : Prop where
  intro ::
  made : ∃ pattern g u n, Pattern.parse params.path = .ok pattern ∧
    validateMethods params.methods = .ok params.methods ∧ Target s params ids.group g u ∧
    scanAnswer u g.id params.methods pattern none = .ok () ∧ countAnswer u g.id = .ok n ∧
    r = newRoute params g pattern.raw (asU32 n) ids.route now ∧
    t = routeStored (routeCounted u g.id n) r

theorem validate_methods_ok {methods out : List String}
    (valid : validateMethods methods = .ok out) :
    out = methods ∧ methods ≠ [] ∧ ∀ m ∈ methods, validMethod m = true := by
  unfold validateMethods at valid
  by_cases empty : methods = []
  · simp [empty] at valid
  · rw [if_neg empty] at valid
    cases search : methods.find? (fun m => ¬ validMethod m) with
    | some m =>
      rw [search] at valid
      cases valid
    | none =>
      rw [search] at valid
      refine ⟨(Except.ok.inj valid).symm, empty, ?_⟩
      simpa using List.find?_eq_none.mp search

theorem parse_path_ok {raw : String} {p : Pattern} (ok : parsePath raw = .ok p) :
    Pattern.parse raw = .ok p := by
  unfold parsePath at ok
  cases parsed : Pattern.parse raw with
  | error e => simp [parsed, Except.mapError] at ok
  | ok q =>
    simp only [parsed, Except.mapError, Except.ok.injEq] at ok
    rw [ok]

section Routes
variable {s : Store} (wk : s.WellKinded)
include wk

theorem run_scanPatternConflict (gid : String) (methods : Methods) (pattern : Pattern)
    (excludeId : Option String) :
    run (scanPatternConflict gid methods pattern excludeId) s =
      (scanAnswer s gid methods pattern excludeId, s) := by
  unfold scanPatternConflict scanAnswer routesInGroup
  simp only [run_bind, run_listRoutesFrom wk (.routeInGroup gid) rfl]
  cases (s.setAt (.routeInGroup gid)).mapM (routeAnswer s) with
  | error e => rfl
  | ok routes => exact run_ofExcept _ s

theorem run_nextRouteNumber (gid : String) :
    run (Bucket.hashIncr (.groupCounters gid) "next_route_number" 1 : Reg Int) s =
      match countAnswer s gid with
      | .error e => (.error e, s)
      | .ok n => (.ok n, routeCounted s gid n) := by
  unfold Bucket.hashIncr countAnswer routeCounted
  rw [run_command, Storage.hashIncr_eq wk (by simp)]
  unfold Storage.storeSum
  cases s.addInt (.groupCounters gid) (some "next_route_number")
    ((s.hashAt (.groupCounters gid)).lookup "next_route_number") 1 <;> rfl

variable [UlidText]

theorem targetGroup_cases (params : NewRoute) (groupId : String) (now : Time)
    (draw : Nat → Draw) :
    (∃ e, run (targetGroup params groupId now draw) s = (.error e, s)) ∨
      ∃ g t, run (targetGroup params groupId now draw) s = (.ok g, t) ∧
        Target s params groupId g t := by
  unfold targetGroup
  cases named : params.group with
  | some reference =>
    simp only [run_bind, run_resolved wk]
    show (∃ e, andThen (resolvedAnswer s reference, s) _ = _) ∨ ∃ g t,
      andThen (resolvedAnswer s reference, s) _ = _ ∧ _
    cases found : resolvedAnswer s reference with
    | error e => exact .inl ⟨e, rfl⟩
    | ok gid =>
      simp only [andThen_ok, run_readGroup wk]
      cases record : groupAnswer s gid with
      | error e => exact .inl ⟨e, rfl⟩
      | ok g => exact .inr ⟨g, s, rfl, .existing named found (groupAnswer_ok_iff.mp record)⟩
  | none =>
    rcases createImplicitGroup_cases wk params.ownerId groupId now draw with
      ⟨e, ran⟩ | ⟨g, ran, fresh⟩
    · exact .inl ⟨e, ran⟩
    · exact .inr ⟨g, _, ran, .implicit named fresh⟩

omit wk in
theorem target_kinded {params : NewRoute} {groupId : String} {g : Group} {t : Store}
    (wk : s.WellKinded) (target : Target s params groupId g t) : t.WellKinded := by
  cases target with
  | existing => exact wk
  | implicit => exact ((leads_storeGroup g) wk).2

/-- A failed creation leaves the state alone, or an implicit group behind. -/
theorem createRoute_cases (params : NewRoute) (ids : NewIds) (now : Time) (draw : Nat → Draw) :
    (∃ e, run (createRoute params ids now draw) s = (.error e, s)) ∨
      (∃ e g t, run (createRoute params ids now draw) s = (.error e, t) ∧
        Target s params ids.group g t ∧
        ((∃ pattern e, scanAnswer t g.id params.methods pattern none = .error e) ∨
          ∃ e, countAnswer t g.id = .error e)) ∨
      ∃ r t, run (createRoute params ids now draw) s = (.ok r, t) ∧
        RouteCreated s params ids now r t := by
  unfold createRoute
  rw [run_bind, run_ofExcept]
  cases parsed : parsePath params.path with
  | error e => exact .inl ⟨e, rfl⟩
  | ok pattern =>
    rw [andThen_ok, run_bind, run_ofExcept]
    cases valid : validateMethods params.methods with
    | error e => exact .inl ⟨e, rfl⟩
    | ok methods =>
      obtain ⟨rfl, _⟩ := validate_methods_ok valid
      rw [andThen_ok, run_bind]
      rcases targetGroup_cases wk params ids.group now draw with ⟨e, ran⟩ | ⟨g, t, ran, target⟩
      · exact .inl ⟨e, by rw [ran, andThen_error]⟩
      · have wkt := target_kinded wk target
        right
        rw [ran, andThen_ok, run_bind, run_scanPatternConflict wkt]
        cases scan : scanAnswer t g.id params.methods pattern none with
        | error e => exact .inl ⟨e, g, t, rfl, target, .inl ⟨pattern, e, scan⟩⟩
        | ok _ =>
          rw [andThen_ok, run_bind, run_nextRouteNumber wkt]
          cases count : countAnswer t g.id with
          | error e => exact .inl ⟨e, g, t, rfl, target, .inr ⟨e, count⟩⟩
          | ok n =>
            right
            have wkc : (routeCounted t g.id n).WellKinded :=
              Storage.wellKinded_putHash wkt (by simp) _
            have stored := (leads_storeRoute (newRoute params g pattern.raw (asU32 n) ids.route
              now)).run_eq wkc
            refine ⟨_, _, ?_, ⟨pattern, g, t, n, parse_path_ok parsed, valid, target, scan, count,
              rfl, rfl⟩⟩
            simp only [andThen_ok, run_bind, stored, run_pure]

theorem deleteRoute_cases (groupRef : String) (number : Nat) :
    (∃ e, run (deleteRoute groupRef number) s = (.error e, s)) ∨
      ∃ rid r, run (deleteRoute groupRef number) s = (.ok (), routeDeleted s rid r) ∧
        slugAnswer s groupRef number = .ok rid ∧ RouteAt s rid r := by
  unfold deleteRoute
  rw [run_bind, run_routeIdBySlug wk]
  cases slug : slugAnswer s groupRef number with
  | error e => exact .inl ⟨e, rfl⟩
  | ok rid =>
    rw [andThen_ok, run_bind, run_readRoute wk]
    cases record : routeAnswer s rid with
    | error e => exact .inl ⟨e, rfl⟩
    | ok r =>
      right
      rw [andThen_ok]
      refine ⟨rid, r, ?_, rfl, routeAnswer_ok_iff.mp record⟩
      exact (leads_removeRoute rid r).run_eq wk

theorem clearRouteState_cases (groupRef : String) (number : Nat) :
    (∃ e, run (clearRouteState groupRef number) s = (.error e, s)) ∨
      ∃ rid r n, run (clearRouteState groupRef number) s =
          (.ok n, s.without (KeyPrefix.kvRoute r.groupId r.id).covers) ∧
        slugAnswer s groupRef number = .ok rid ∧ RouteAt s rid r := by
  unfold clearRouteState
  rw [run_bind, run_getRouteBySlug wk]
  cases slug : slugAnswer s groupRef number with
  | error e => exact .inl ⟨e, rfl⟩
  | ok rid =>
    show (∃ e, andThen (routeAnswer s rid, s) _ = _) ∨
      ∃ rid' r n, andThen (routeAnswer s rid, s) _ = _ ∧ _
    cases record : routeAnswer s rid with
    | error e => exact .inl ⟨e, rfl⟩
    | ok r => exact .inr ⟨rid, r, _, run_deleteWithPrefix _, rfl, routeAnswer_ok_iff.mp record⟩

omit wk [UlidText] in
theorem run_puts (key : String → Key) (state : List (String × Bytes)) (s : Store) :
    run (Prog.forEach state (fun e => Bucket.set (key e.1) (.blob e.2)) : Reg Unit) s =
      (.ok (), statePut key s state) :=
  (run_forEach (fun _ => True) (fun e t => t.put (key e.1) (.blob e.2) none) state
    (fun e => Bucket.set (key e.1) (.blob e.2)) (fun _ _ _ _ => ⟨run_set _, trivial⟩) s
    trivial).1

omit wk [UlidText] in
theorem run_setGroupState (gid : String) (state : List (String × Bytes)) :
    run (setGroupState gid state) s = (.ok (), statePut (.gkv gid) s state) :=
  run_puts (.gkv gid) state s

theorem setRouteState_cases (groupRef : String) (number : Nat) (state : List (String × Bytes)) :
    (∃ e, run (setRouteState groupRef number state) s = (.error e, s)) ∨
      ∃ rid r, run (setRouteState groupRef number state) s =
          (.ok (), statePut (.kv r.groupId r.id) s state) ∧
        slugAnswer s groupRef number = .ok rid ∧ RouteAt s rid r := by
  unfold setRouteState
  rw [run_bind, run_getRouteBySlug wk]
  cases slug : slugAnswer s groupRef number with
  | error e => exact .inl ⟨e, rfl⟩
  | ok rid =>
    show (∃ e, andThen (routeAnswer s rid, s) _ = _) ∨
      ∃ rid' r, andThen (routeAnswer s rid, s) _ = _ ∧ _
    cases record : routeAnswer s rid with
    | error e => exact .inl ⟨e, rfl⟩
    | ok r => exact .inr ⟨rid, r, run_puts _ state s, rfl, routeAnswer_ok_iff.mp record⟩

/-- What a successful patch of a route has checked and written. -/
structure RouteUpdated (s : Store) (groupRef : String) (number : Nat) (patch : PatchRoute)
    (r : Route) (t : Store) : Prop where
  intro ::
  made : ∃ rid old methods path, slugAnswer s groupRef number = .ok rid ∧ RouteAt s rid old ∧
    patchedMethods patch old = .ok methods ∧ patchedPath patch old = .ok path ∧
    (patch.methods.isSome ∨ patch.path.isSome → ∃ pattern, Pattern.parse path = .ok pattern ∧
      scanAnswer s old.groupId methods pattern (some old.id) = .ok ()) ∧
    r = patch.apply path old ∧ t = routePatched s rid patch path

omit [UlidText] in
theorem checkPatchConflict_cases (patch : PatchRoute) (route : Route) (methods : List String)
    (path : String) :
    (∃ e, run (checkPatchConflict patch route methods path) s = (.error e, s)) ∨
      (run (checkPatchConflict patch route methods path) s = (.ok (), s) ∧
        (patch.methods.isSome ∨ patch.path.isSome → ∃ pattern, Pattern.parse path = .ok pattern ∧
          scanAnswer s route.groupId methods pattern (some route.id) = .ok ())) := by
  unfold checkPatchConflict
  by_cases changing : patch.methods.isSome ∨ patch.path.isSome
  · rw [if_pos changing, run_bind, run_ofExcept]
    cases parsed : parsePath path with
    | error e => exact .inl ⟨e, rfl⟩
    | ok pattern =>
      rw [andThen_ok, run_scanPatternConflict wk]
      cases scan : scanAnswer s route.groupId methods pattern (some route.id) with
      | error e => exact .inl ⟨e, rfl⟩
      | ok _ => exact .inr ⟨rfl, fun _ => ⟨pattern, parse_path_ok parsed, scan⟩⟩
  · rw [if_neg changing]
    exact .inr ⟨rfl, fun some => absurd some changing⟩

theorem updateRoute_cases (groupRef : String) (number : Nat) (patch : PatchRoute) :
    (∃ e, run (updateRoute groupRef number patch) s = (.error e, s)) ∨
      ∃ r t, run (updateRoute groupRef number patch) s = (.ok r, t) ∧
        RouteUpdated s groupRef number patch r t := by
  unfold updateRoute
  rw [run_bind, run_routeIdBySlug wk]
  cases slug : slugAnswer s groupRef number with
  | error e => exact .inl ⟨e, rfl⟩
  | ok rid =>
    rw [andThen_ok, run_bind, run_readRoute wk]
    cases record : routeAnswer s rid with
    | error e => exact .inl ⟨e, rfl⟩
    | ok old =>
      rw [andThen_ok, run_bind, run_ofExcept]
      cases newMethods : patchedMethods patch old with
      | error e => exact .inl ⟨e, rfl⟩
      | ok methods =>
        rw [andThen_ok, run_bind, run_ofExcept]
        cases newPath : patchedPath patch old with
        | error e => exact .inl ⟨e, rfl⟩
        | ok path =>
          rw [andThen_ok, run_bind]
          rcases checkPatchConflict_cases wk patch old methods path with
            ⟨e, ran⟩ | ⟨ran, checked⟩
          · exact .inl ⟨e, by rw [ran, andThen_error]⟩
          · right
            rw [ran, andThen_ok]
            refine ⟨_, _, ?_, ⟨rid, old, methods, path, slug, routeAnswer_ok_iff.mp record,
              newMethods, newPath, checked, rfl, rfl⟩⟩
            exact Leads.run_eq ((leads_patchField rfl _ _ _).bind <|
              (leads_patchField rfl _ _ _).bind <| (leads_patchField rfl _ _ _).bind <|
              (leads_patchField rfl _ _ _).bind <| (leads_patchField rfl _ _ _).bind <|
              (leads_patchSource rfl _).bind Leads.pure) wk

end Routes

/-! Groups -/

/-- What a rename that moved a name has checked and written. -/
structure GroupRenamed [UlidText] (s : Store) (groupRef newName : String) (g : Group)
    (t : Store) : Prop where
  intro ::
  made : ∃ gid old routes, resolvedAnswer s groupRef = .ok gid ∧ GroupAt s gid old ∧
    old.name ≠ newName ∧ isValidLabel newName = true ∧
    s.bytesAt (.groupByName newName) = none ∧
    ((nameMoved s gid old newName).setAt (.routeInGroup gid)).mapM
      (routeAnswer (nameMoved s gid old newName)) = .ok routes ∧
    g = { old with name := newName } ∧ t = groupRenamed s gid old newName routes

section Groups
variable {s : Store} (wk : s.WellKinded)
include wk

/-- A rename fails before its first write, or on a route that does not read. -/
theorem renameGroup_cases [UlidText] (groupRef newName : String) :
    (∃ e, run (renameGroup groupRef newName) s = (.error e, s)) ∨
      (∃ gid g e, run (renameGroup groupRef newName) s =
          (.error e, nameMoved s gid g newName) ∧ GroupAt s gid g ∧
        resolvedAnswer s groupRef = .ok gid ∧ s.bytesAt (.groupByName newName) = none ∧
        ((nameMoved s gid g newName).setAt (.routeInGroup gid)).mapM
          (routeAnswer (nameMoved s gid g newName)) = .error e) ∨
      (∃ gid g, run (renameGroup groupRef newName) s = (.ok g, s) ∧
        resolvedAnswer s groupRef = .ok gid ∧ GroupAt s gid g ∧ g.name = newName) ∨
      ∃ g t, run (renameGroup groupRef newName) s = (.ok g, t) ∧
        GroupRenamed s groupRef newName g t := by
  unfold renameGroup
  rw [run_bind, run_resolved wk]
  show (∃ e, andThen (resolvedAnswer s groupRef, s) _ = _) ∨
    (∃ gid g e, andThen (resolvedAnswer s groupRef, s) _ = _ ∧ _) ∨
    (∃ gid g, andThen (resolvedAnswer s groupRef, s) _ = _ ∧ _) ∨
    ∃ g t, andThen (resolvedAnswer s groupRef, s) _ = _ ∧ _
  cases found : resolvedAnswer s groupRef with
  | error e => exact .inl ⟨e, rfl⟩
  | ok gid =>
    rw [andThen_ok, run_bind, run_readGroup wk]
    cases answer : groupAnswer s gid with
    | error e => exact .inl ⟨e, rfl⟩
    | ok g =>
      have record := groupAnswer_ok_iff.mp answer
      rw [andThen_ok]
      by_cases same : g.name = newName
      · rw [if_pos same]
        exact .inr (.inr (.inl ⟨gid, g, rfl, rfl, record, same⟩))
      · rw [if_neg same]
        by_cases bad : ¬ isValidLabel newName
        · rw [if_pos bad]
          exact .inl ⟨_, rfl⟩
        · rw [if_neg bad, run_bind, run_get wk (k := .groupByName newName) rfl, andThen_ok]
          cases taken : s.bytesAt (.groupByName newName) with
          | some v => exact .inl ⟨_, rfl⟩
          | none =>
            right
            obtain ⟨moved, wkm⟩ := leads_moveName gid g newName wk
            rw [run_bind, moved, andThen_ok, run_bind]
            unfold renameRoutes routesInGroup
            rw [run_bind, run_listRoutesFrom wkm (.routeInGroup gid) rfl]
            cases listed : ((nameMoved s gid g newName).setAt (.routeInGroup gid)).mapM
                (routeAnswer (nameMoved s gid g newName)) with
            | error e => exact .inl ⟨gid, g, e, rfl, record, rfl, rfl, listed⟩
            | ok routes =>
              right
              right
              rw [andThen_ok, (leads_renameAll newName routes).run_eq wkm, andThen_ok, run_pure]
              exact ⟨_, _, rfl, ⟨gid, g, routes, found, record, same, by simpa using bad, taken,
                listed, rfl, rfl⟩⟩

/-- A cascade runs to its end unless the record is there and does not read. -/
theorem run_cascadeDeleteGroup (gid : String) :
    run (cascadeDeleteGroup gid) s =
      match groupAnswer s gid with
      | .ok g => (.ok (s.setAt (.routeInGroup gid)).length, groupCascaded gid (some g) s)
      | .error .notFound => (.ok (s.setAt (.routeInGroup gid)).length, groupCascaded gid none s)
      | .error e => (.error e, s) := by
  have split : cascadeDeleteGroup gid = (readGroupIfAny gid >>= cascadeFound gid) := rfl
  have probe : run (readGroupIfAny gid) s =
      match groupAnswer s gid with
      | .ok g => (.ok (some g), s)
      | .error .notFound => (.ok none, s)
      | .error e => (.error e, s) := by
    unfold readGroupIfAny
    rw [run_bind, run_attempt, run_readGroup wk, andThen_ok]
    cases groupAnswer s gid with
    | ok g => rfl
    | error e => cases e <;> rfl
  rw [split, run_bind, probe]
  cases groupAnswer s gid with
  | ok g => exact (leads_cascadeFound gid (some g)).run_eq wk
  | error e =>
    cases e with
    | notFound => exact (leads_cascadeFound gid none).run_eq wk
    | _ => rfl

omit wk in
theorem leads_patchSliding (gid : String) (g : Group) (o : Option Bool) :
    Leads Storage.WellKinded (patchSliding gid g o) s
      { g with slidingTtl := o.getD g.slidingTtl }
      (fieldPatched (.group gid) "sliding_ttl" .flag s o) := by
  cases o with
  | none => exact Leads.pure
  | some flag => exact (leads_hashSet rfl).bind Leads.pure

omit wk in
theorem leads_patchCallout (gid : String) (g : Group) (o : Option Bool) :
    Leads Storage.WellKinded (patchCallout gid g o) s
      { g with calloutEnabled := o.getD g.calloutEnabled }
      (fieldPatched (.group gid) "callout_enabled" .flag s o) := by
  cases o with
  | none => exact Leads.pure
  | some flag => exact (leads_hashSet rfl).bind Leads.pure

omit wk in
theorem patchTtl_cases (gid : String) (g : Group) (o : Option Nat) :
    (∃ e, run (patchTtl gid g o) s = (.error e, s)) ∨
      (Leads Storage.WellKinded (patchTtl gid g o) s
        { g with ttlSeconds := o.getD g.ttlSeconds } (ttlPatched s gid g o) ∧
        ∀ n ∈ o, n < u64Size) := by
  cases o with
  | none => exact .inr ⟨Leads.pure, by simp⟩
  | some n =>
    rcases normalizeTtl_cases n with ⟨e, bad⟩ | ⟨good, bound⟩
    · left
      refine ⟨e, ?_⟩
      unfold patchTtl
      rw [run_bind, run_ofExcept, bad, andThen_error]
    · right
      refine ⟨?_, by simpa using bound⟩
      unfold patchTtl
      simp only [good]
      exact Leads.bind Leads.pure <| (leads_hashSet rfl).bind <|
        (leads_armGroupTtls _ _ _).bind Leads.pure

theorem patchGroup_cases (gid : String) (ttl : Option Nat) (sliding callout : Option Bool) :
    (∃ e, run (patchGroup gid ttl sliding callout) s = (.error e, s)) ∨
      ∃ g g', run (patchGroup gid ttl sliding callout) s =
          (.ok g', groupPatched s gid g ttl sliding callout) ∧ GroupAt s gid g ∧
        (∀ n ∈ ttl, n < u64Size) ∧ g' = { g with
          ttlSeconds := ttl.getD g.ttlSeconds
          slidingTtl := sliding.getD g.slidingTtl
          calloutEnabled := callout.getD g.calloutEnabled } := by
  unfold patchGroup
  rw [run_bind, run_readGroup wk]
  cases answer : groupAnswer s gid with
  | error e => exact .inl ⟨e, rfl⟩
  | ok g =>
    rw [andThen_ok]
    rcases patchTtl_cases gid g ttl with ⟨e, ran⟩ | ⟨patched, bound⟩
    · left
      exact ⟨e, by rw [run_bind, ran, andThen_error]⟩
    · right
      exact ⟨g, _, Leads.run_eq (patched.bind <| (leads_patchSliding gid _ sliding).bind <|
        leads_patchCallout gid _ callout) wk, groupAnswer_ok_iff.mp answer, bound, rfl⟩

/-- The three writes of a hit; the count can fail, and the group is then not stamped. -/
theorem run_recordRouteHit (gid rid : String) (now : Time) :
    (∃ e, run (recordRouteHit gid rid now) s = (.error e, hitStamped s rid now)) ∨
      ∃ n, run (recordRouteHit gid rid now) s =
          (.ok (), activityStamped (hitCounted (hitStamped s rid now) rid n) gid now) ∧
        ((hitStamped s rid now).addInt (.route rid) (some "hits_total")
          (((hitStamped s rid now).hashAt (.route rid)).lookup "hits_total") 1) = .ok n := by
  unfold recordRouteHit
  have stamps : Leads Storage.WellKinded
      (Bucket.hashSet (.route rid) "last_hit_at" (.time now) : Reg Unit) s ()
        (hitStamped s rid now) :=
    leads_hashSet rfl
  obtain ⟨stamp, wkt⟩ := stamps wk
  rw [run_bind, stamp, andThen_ok, run_bind]
  unfold Bucket.hashIncr
  rw [run_command, Storage.hashIncr_eq wkt (by simp)]
  unfold Storage.storeSum
  cases count : (hitStamped s rid now).addInt (.route rid) (some "hits_total")
      (((hitStamped s rid now).hashAt (.route rid)).lookup "hits_total") 1 with
  | error e =>
    exact .inl ⟨_, rfl⟩
  | ok n =>
    right
    have wkc : (hitCounted (hitStamped s rid now) rid n).WellKinded :=
      Storage.wellKinded_putHash wkt (by simp) _
    have active : run (Bucket.hashSet (.group gid) "last_activity_at" (.time now) : Reg Unit) _ =
        (.ok (), activityStamped _ gid now) :=
      run_hashSet wkc rfl _ _
    exact ⟨n, active, rfl⟩

theorem refreshGroup_cases (gid : String) :
    (∃ e, run (refreshGroup gid) s = (.error e, s)) ∨
      ∃ g, run (refreshGroup gid) s = (.ok g, groupArmed s gid g.name g.ttlSeconds) ∧
        GroupAt s gid g := by
  unfold refreshGroup
  rw [run_bind, run_readGroup wk]
  cases answer : groupAnswer s gid with
  | error e => exact .inl ⟨e, rfl⟩
  | ok g =>
    rw [andThen_ok]
    by_cases never : g.ttlSeconds = 0
    · rw [if_pos never]
      exact .inl ⟨_, rfl⟩
    · rw [if_neg never]
      exact .inr ⟨g, Leads.run_eq ((leads_armGroupTtls _ _ _).bind Leads.pure) wk,
        groupAnswer_ok_iff.mp answer⟩

theorem refreshGroupIfSliding_cases (gid : String) :
    (∃ r, run (refreshGroupIfSliding gid) s = (r, s)) ∨
      ∃ g, run (refreshGroupIfSliding gid) s = (.ok true, groupArmed s gid g.name g.ttlSeconds) ∧
        GroupAt s gid g := by
  unfold refreshGroupIfSliding
  rw [run_bind, run_attempt, run_readGroup wk, andThen_ok]
  cases answer : groupAnswer s gid with
  | error e => cases e <;> exact .inl ⟨_, rfl⟩
  | ok g =>
    simp only
    by_cases still : ¬ g.slidingTtl = true
    · rw [if_pos still]
      exact .inl ⟨_, rfl⟩
    · rw [if_neg still]
      by_cases never : g.ttlSeconds = 0
      · rw [if_pos never]
        exact .inl ⟨_, rfl⟩
      · rw [if_neg never]
        exact .inr ⟨g, Leads.run_eq ((leads_armGroupTtls _ _ _).bind Leads.pure) wk,
          groupAnswer_ok_iff.mp answer⟩

end Groups


end WireMirage
