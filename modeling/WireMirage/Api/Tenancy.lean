import WireMirage.Api.Containment
import WireMirage.Api.Importing
import WireMirage.Api.Requests
import WireMirage.Api.RoundTrip

/-!
Tenants of one host: a user who is no admin changes nothing of another user's groups.
-/
namespace WireMirage
open Prog StepMachine

/-! Who may make a request -/

section Gates
variable [UlidText] {auth : AuthContext} {s : Store} {c : Catalog} (hold : Consistent s c)
include hold

theorem mine_of_gate {reference : String}
    (passed : (run (tenancyGate auth (some reference)) s).1 = .ok ()) {gid : String}
    (resolved : resolvedAnswer s reference = .ok gid) : Mine auth c gid := by
  intro member g live
  unfold tenancyGate viaRegistry at passed
  rw [run_bind, run_attempt, run_mapError, run_readGroupByRef hold.represents.kinded, resolved]
    at passed
  dsimp only [Except.bind] at passed
  rw [groupAnswer_of_live hold.represents live] at passed
  by_cases owner : g.ownerId = auth.userId
  · exact owner
  · simp [Except.mapError, owner, member] at passed

/-- A route is created behind the gate, or nothing happens. -/
theorem createRouteCore_cases (transpile : String → Except String String) (body : CreateRouteBody)
    (drawn : RouteDraws) :
    (∃ e, run (createRouteCore transpile auth body drawn) s = (.error e, s)) ∨
      ∃ source, (∀ reference, body.group = some reference →
          ∀ gid, resolvedAnswer s reference = .ok gid → Mine auth c gid) ∧
        run (createRouteCore transpile auth body drawn) s =
          run (viaRegistry (createRoute (registered auth body source) drawn.ids drawn.now
            drawn.draw)) s := by
  have kinded := hold.represents.kinded
  have gateReads : (run (tenancyGate auth body.group) s).2 = s :=
    run_of_reads (acts_tenancyGate auth body.group) kinded
  have precheckReads : (run (viaRegistry (precheckCreateConflict body.group body.methods
      body.path)) s).2 = s :=
    run_of_reads (acts_mapError _ _ (acts_precheck _ _ _)) kinded
  unfold createRouteCore
  rw [run_bind]
  cases gate : run (tenancyGate auth body.group) s with
  | mk passed u =>
    rw [gate] at gateReads
    obtain rfl := gateReads
    cases passed with
    | error e => exact .inl ⟨e, rfl⟩
    | ok _ =>
      rw [andThen_ok, run_bind]
      cases precheck : run (viaRegistry (precheckCreateConflict body.group body.methods
          body.path)) u with
      | mk free v =>
        rw [precheck] at precheckReads
        obtain rfl := precheckReads
        cases free with
        | error e => exact .inl ⟨e, rfl⟩
        | ok _ =>
          rw [andThen_ok, run_bind, run_ofExcept]
          cases checkedSource transpile body with
          | error e => exact .inl ⟨e, rfl⟩
          | ok source =>
            refine .inr ⟨source, ?_, rfl⟩
            intro reference named gid resolved
            rw [named] at gate
            exact mine_of_gate hold (by rw [gate]) resolved

theorem ensureGroup_cases (groupRef : String) :
    (∃ e, run (Requests.ensureGroupOwnerOrAdmin auth groupRef) s = (.error e, s)) ∨
      ∃ g, run (Requests.ensureGroupOwnerOrAdmin auth groupRef) s = (.ok g, s) ∧
        c.groups g.id = some g ∧ Mine auth c g.id := by
  unfold Requests.ensureGroupOwnerOrAdmin Requests.viaRegistry Requests.viaApi viaRegistry
  rw [run_bind, run_attempt, run_mapError, run_mapError,
    run_readGroupByRef hold.represents.kinded]
  cases answer : (resolvedAnswer s groupRef).bind (groupAnswer s) with
  | error e => exact .inl ⟨_, rfl⟩
  | ok g =>
    dsimp only [Except.mapError, andThen_ok]
    by_cases stranger : ¬ auth.isAdmin = true ∧ g.ownerId ≠ auth.userId
    · exact .inl ⟨_, by rw [if_pos stranger]; rfl⟩
    · obtain ⟨gid, _, read⟩ := ok_bind_iff.mp answer
      have live := (hold.represents.groups.record gid g).mp (groupAnswer_ok_iff.mp read)
      have id := hold.sound.groupId live
      subst id
      refine .inr ⟨g, by rw [if_neg stranger]; rfl, live, ?_⟩
      intro member h there
      rw [live, Option.some.injEq] at there
      rw [← there]
      by_contra other
      exact stranger ⟨by rw [member]; decide, other⟩

theorem ensureRoute_cases {admins : String → Bool} (group : String) (number : Nat)
    (doing : String) :
    (∃ e, run (Requests.ensureRouteOwnerOrAdmin auth group number doing) s = (.error e, s)) ∨
      ∃ r, run (Requests.ensureRouteOwnerOrAdmin auth group number doing) s = (.ok r, s) ∧
        MineBySlug admins auth s c group number := by
  unfold Requests.ensureRouteOwnerOrAdmin Requests.viaRegistry Requests.viaApi viaRegistry
  rw [run_bind, run_mapError, run_mapError, run_getRouteBySlug hold.represents.kinded]
  cases slug : slugAnswer s group number with
  | error e => exact .inl ⟨_, rfl⟩
  | ok rid =>
    obtain ⟨r, live, _⟩ := slug_live hold.represents slug
    dsimp only [Except.bind]
    rw [routeAnswer_of_live hold.represents live]
    dsimp only [Except.mapError, andThen_ok]
    by_cases stranger : r.ownerId ≠ auth.userId ∧ ¬ auth.isAdmin = true
    · exact .inl ⟨_, by rw [if_pos stranger]; rfl⟩
    · refine .inr ⟨r, by rw [if_neg stranger]; rfl, ?_⟩
      intro id q found there roles member g home
      rw [slug, Except.ok.injEq] at found
      subst found
      rw [live, Option.some.injEq] at there
      subst there
      have owner : r.ownerId = auth.userId := by
        by_contra other
        exact stranger ⟨other, by rw [member]; decide⟩
      -- a route that a member owns was not put there by an admin
      rcases roles.owned rid r g live home with same | placed
      · exact same.symm.trans owner
      · rw [owner, ← roles.agree, member] at placed
        cases placed

end Gates

/-! Requests -/

section Serving
variable [UlidText] (transpile : String → Except String String) {admins : String → Bool}
  {auth : AuthContext} {s : Store} {c : Catalog}

omit [UlidText] in
theorem left_viaRegistry {A : Type} (p : Reg A) :
    (run (Requests.viaRegistry p) s).2 = (run p s).2 := by
  unfold Requests.viaRegistry Requests.viaApi viaRegistry
  rw [run_mapError, run_mapError]

omit [UlidText] in
theorem left_ignored {A : Type} (p : Requests A) :
    (run (p >>= fun _ => (pure () : Requests Unit)) s).2 = (run p s).2 := by
  rw [run_bind]
  rcases run p s with ⟨_ | _, t⟩ <;> rfl

omit [UlidText] in
theorem left_bind {A B : Type} {p : Requests A} {k : A → Requests B} {a : A} {t : Store}
    (ran : run p s = (.ok a, t)) : (run (p >>= k) s).2 = (run (k a) t).2 := by
  rw [run_bind, ran, andThen_ok]

omit [UlidText] in
theorem left_failed {A B : Type} {p : Requests A} {k : A → Requests B} {e : RequestError}
    (ran : run p s = (.error e, s)) : (run (p >>= k) s).2 = s := by
  rw [run_bind, ran, andThen_error]

variable (hold : Consistent s c)
include hold

theorem contained_createRouteCore (body : CreateRouteBody) (drawn : RouteDraws)
    (newGroup : drawn.ids.group ∉ c.minted) (newRoute_ : drawn.ids.route ∉ c.minted)
    (differ : drawn.ids.group ≠ drawn.ids.route) :
    (∃ e, run (createRouteCore transpile auth body drawn) s = (.error e, s)) ∨
      ∃ r t d, run (createRouteCore transpile auth body drawn) s = (.ok r, t) ∧
        Contained admins auth [drawn.ids.group, drawn.ids.route] s c t d := by
  rcases createRouteCore_cases hold transpile body drawn with failed | ⟨source, gate, ran⟩
  · exact .inl failed
  · unfold viaRegistry at ran
    rw [ran, run_mapError]
    rcases contained_createRoute hold (registered auth body source) drawn.ids drawn.now
      drawn.draw rfl gate newGroup newRoute_ differ with ⟨e, created⟩ | ⟨r, t, d, created, kept⟩
    · rw [created]
      exact .inl ⟨_, rfl⟩
    · rw [created]
      exact .inr ⟨r, t, d, rfl, kept⟩

/-- Along the routes of an import: the routes so far are the user's, and the group that a
    failure rolls back is too. -/
theorem contained_importRoutes {group : Group} (mine : Mine auth c group.id)
    (draws : Nat → RouteDraws) (routes : List NormalizedRoute) (idx : Nat)
    (distinct : (TenantRequest.importedIds draws idx routes.length).Nodup)
    (new : ∀ id ∈ TenantRequest.importedIds draws idx routes.length, id ∉ c.minted) :
    ∃ d, Contained admins auth (TenantRequest.importedIds draws idx routes.length) s c
      (run (importRoutes transpile auth group draws idx routes) s).2 d := by
  induction routes generalizing s c idx with
  | nil => exact ⟨c, contained_refl hold⟩
  | cons r rest ih =>
    simp only [List.length_cons, TenantRequest.importedIds, List.nodup_cons, List.mem_cons,
      not_or] at distinct new ⊢
    have step : _ ∨ ∃ x t d, _ ∧ Contained admins auth _ s c t d :=
      contained_createRouteCore transpile hold (importBody group r) (draws idx)
        (new _ (.inl rfl)) (new _ (.inr (.inl rfl))) distinct.1.1
    unfold importRoutes
    rw [run_bind, run_attempt]
    rcases step with ⟨e, ran⟩ | ⟨x, t, d, ran, first⟩
    · -- the failure cascades the group and nothing else
      obtain ⟨d, cascaded⟩ := contained_cascadeDeleteGroup hold (fun _ => mine)
      rw [ran, andThen_ok]
      dsimp only
      unfold viaRegistry
      rw [run_bind, run_attempt, run_mapError]
      exact ⟨d, contained_weaken (by simp) cascaded⟩
    · rw [ran, andThen_ok]
      obtain ⟨e, later⟩ := ih first.consistent (mine_kept first.owners mine) (idx + 1)
        distinct.2.2 (by
          intro id member old
          rcases List.mem_append.mp (first.minted id old) with drawn | before
          · rcases List.mem_cons.mp drawn with rfl | drawn
            · exact distinct.1.2 member
            · rw [List.mem_singleton] at drawn
              exact distinct.2.1 (drawn ▸ member)
          · exact new id (.inr (.inr member)) before)
      refine ⟨e, contained_weaken ?_ (contained_trans hold first later)⟩
      intro id member
      simp only [List.mem_append, List.mem_cons, List.not_mem_nil, or_false] at member ⊢
      tauto

omit hold [UlidText] in
theorem normalizeRoutes_length {idx : Nat} {routes : List RouteSpec} {out : List NormalizedRoute}
    (ok : normalizeRoutes idx routes = .ok out) : out.length = routes.length := by
  induction routes generalizing idx out with
  | nil =>
    cases ok
    rfl
  | cons r rest ih =>
    obtain ⟨first, _, ok⟩ := ok_bind_iff.mp ok
    obtain ⟨others, more, ok⟩ := ok_bind_iff.mp ok
    cases ok
    rw [List.length_cons, List.length_cons, ih more]

omit hold [UlidText] in
theorem normalize_length {spec : GroupSpec} {n : NormalizedSpec} (ok : normalize spec = .ok n) :
    n.routes.length = spec.routes.length := by
  unfold normalize at ok
  split at ok
  · cases ok
  · obtain ⟨ttl, _, ok⟩ := ok_bind_iff.mp ok
    obtain ⟨routes, normal, ok⟩ := ok_bind_iff.mp ok
    cases ok
    exact normalizeRoutes_length normal

omit [UlidText] in
theorem contained_patchImported {group : Group} (mine : Mine auth c group.id)
    (callout : Option Bool) :
    ∃ d, Contained admins auth [] s c (run (patchImported group callout) s).2 d := by
  cases callout with
  | none => exact ⟨c, contained_refl hold⟩
  | some flag =>
    obtain ⟨d, patched⟩ := contained_patchGroup hold (fun _ => mine) none none (some flag)
    refine ⟨d, ?_⟩
    unfold patchImported viaRegistry
    rw [run_bind, run_mapError]
    rcases ran : run (patchGroup group.id none none (some flag)) s with ⟨_ | _, t⟩ <;>
      rw [ran] at patched <;> exact patched

theorem contained_importGroupCore (spec : GroupSpec) (drawn : ImportDraws)
    (distinct : (TenantRequest.importGroup spec drawn).draws.Nodup)
    (new : ∀ id ∈ (TenantRequest.importGroup spec drawn).draws, id ∉ c.minted) :
    ∃ d, Contained admins auth (TenantRequest.importGroup spec drawn).draws s c
      (run (importGroupCore transpile auth spec drawn) s).2 d := by
  unfold importGroupCore
  rw [run_bind, run_ofExcept]
  cases normal : normalize spec with
  | error e => exact ⟨c, contained_refl hold⟩
  | ok n =>
    simp only [TenantRequest.draws, ← normalize_length normal, List.nodup_cons, List.mem_cons]
      at distinct new ⊢
    dsimp only [Except.mapError]
    unfold viaRegistry
    rw [andThen_ok, run_bind, run_mapError]
    have create : _ ∨ ∃ (g : Group) (t : Store) (d : Catalog), _ ∧
        Contained admins auth _ s c t d ∧ Mine auth d g.id :=
      contained_createGroup hold ⟨n.name, auth.userId, n.ttlSeconds, n.sliding⟩ rfl drawn.groupId
        drawn.now drawn.draw (new _ (.inl rfl))
    rcases create with ⟨e, ran⟩ | ⟨g, t, d, ran, first, mine⟩
    · rw [ran]
      exact ⟨c, contained_refl hold⟩
    rw [ran]
    dsimp only [Except.mapError]
    rw [andThen_ok, run_bind]
    obtain ⟨d', second⟩ := contained_patchImported first.consistent mine n.callout
    have two := contained_trans hold first second
    rcases patched : run (patchImported g n.callout) t with ⟨e | x, t'⟩
    · rw [patched] at two
      exact ⟨d', contained_weaken (by simp) two⟩
    rw [patched] at second two
    rw [andThen_ok, run_bind]
    obtain ⟨d'', third⟩ := contained_importRoutes transpile second.consistent
      (mine_kept second.owners mine) drawn.routes n.routes 0 distinct.2 (by
        intro id member old
        rcases List.mem_append.mp (two.minted id old) with drawn | before
        · rw [List.nil_append, List.mem_singleton] at drawn
          exact distinct.1 (drawn ▸ member)
        · exact new id (.inr member) before)
    have three := contained_trans hold two third
    refine ⟨d'', ?_⟩
    rcases created : run (importRoutes transpile auth g drawn.routes 0 n.routes) t' with
      ⟨e | x, t''⟩ <;> rw [created] at three <;>
      exact contained_weaken (by simp [or_comm]) three

/-- The rename of a patch comes first; what comes after it is on the same group. -/
theorem contained_patchGroupRequest {g : Group} (live : c.groups g.id = some g)
    (mine : Mine auth c g.id) (ulid : UlidText.fromString g.id = true ∧ g.id ≠ "")
    (body : PatchGroupBody) : ∃ d, Contained admins auth [] s c (run (do
      Requests.renamePatched g body.name
      if body.ttlSeconds.isSome ∨ body.slidingTtl.isSome ∨ body.calloutEnabled.isSome then
        Requests.viaRegistry (WireMirage.patchGroup g.id body.ttlSeconds body.slidingTtl
          body.calloutEnabled)
      else Requests.viaRegistry (readGroupByRef g.id)) s).2 d := by
  have renamed : ∃ d, Contained admins auth [] s c
      (run (Requests.renamePatched g body.name) s).2 d := by
    cases body.name with
    | none => exact ⟨c, contained_refl hold⟩
    | some newName =>
      unfold Requests.renamePatched
      rw [left_ignored, left_viaRegistry]
      apply contained_renameGroup hold (fun _ => mine)
      intro id found
      rw [resolved_own ((hold.represents.groups.record _ _).mpr live) ulid.1 ulid.2] at found
      exact (Except.ok.inj found).symm
  obtain ⟨d, first⟩ := renamed
  rw [run_bind]
  rcases ran : run (Requests.renamePatched g body.name) s with ⟨e | x, t⟩ <;> rw [ran] at first
  · exact ⟨d, first⟩
  rw [andThen_ok]
  split
  · rw [left_viaRegistry]
    obtain ⟨e, second⟩ := contained_patchGroup first.consistent
      (fun _ => mine_kept first.owners mine) body.ttlSeconds body.slidingTtl body.calloutEnabled
    exact ⟨e, contained_trans hold first second⟩
  · rw [left_viaRegistry, run_readGroupByRef first.consistent.represents.kinded]
    exact ⟨d, first⟩

/-- One request: whoever makes it, the catalog stays owned, and the groups of others stay
    untouched if the user is no admin. -/
theorem contained_serve [Messages]
    (ulids : ∀ id ∈ c.minted, UlidText.fromString id = true ∧ id ≠ "")
    (a : TenantRequest) (distinct : a.draws.Nodup)
    (new : ∀ id ∈ a.draws, id ∉ c.minted) :
    ∃ d, Contained admins auth a.draws s c (run (a.serve transpile auth) s).2 d := by
  have idle : ∀ ids, ∃ d, Contained admins auth ids s c s d := fun _ =>
    ⟨c, contained_refl hold⟩
  -- a request on a route or a group goes on once its owner has been checked
  have byRoute : ∀ {A : Type} {group number doing} {k : Route → Requests A},
      (∀ r, MineBySlug admins auth s c group number →
        ∃ d, Contained admins auth [] s c (run (k r) s).2 d) →
      ∃ d, Contained admins auth [] s c
        (run (Requests.ensureRouteOwnerOrAdmin auth group number doing >>= k) s).2 d := by
    intro A group number doing k after
    rcases ensureRoute_cases hold group number doing with ⟨e, ran⟩ | ⟨r, ran, mine⟩
    · rw [left_failed ran]
      exact idle []
    · rw [left_bind ran]
      exact after r mine
  have byGroup : ∀ {A : Type} {groupRef} {k : Group → Requests A},
      (∀ g, c.groups g.id = some g → Mine auth c g.id →
        ∃ d, Contained admins auth [] s c (run (k g) s).2 d) →
      ∃ d, Contained admins auth [] s c
        (run (Requests.ensureGroupOwnerOrAdmin auth groupRef >>= k) s).2 d := by
    intro A groupRef k after
    rcases ensureGroup_cases hold groupRef with ⟨e, ran⟩ | ⟨g, ran, live, mine⟩
    · rw [left_failed ran]
      exact idle []
    · rw [left_bind ran]
      exact after g live mine
  cases a with
  | createGroup body id now draw =>
    unfold TenantRequest.serve
    rw [left_ignored]
    unfold Requests.createGroup
    rw [left_viaRegistry]
    rcases contained_createGroup hold ⟨body.name.getD "", auth.userId, body.ttlSeconds,
      body.slidingTtl⟩ rfl id now draw (new id (by simp [TenantRequest.draws])) with
      ⟨e, ran⟩ | ⟨g, t, d, ran, kept, _⟩ <;> rw [ran]
    · exact idle _
    · exact ⟨d, kept⟩
  | createRoute body drawn =>
    simp only [TenantRequest.draws, List.nodup_cons, List.mem_cons, List.not_mem_nil, or_false]
      at distinct new
    unfold TenantRequest.serve
    rw [left_ignored]
    unfold Requests.viaApi
    rw [run_mapError]
    rcases contained_createRouteCore transpile hold body drawn (new _ (.inl rfl))
      (new _ (.inr rfl)) distinct.1 with ⟨e, ran⟩ | ⟨r, t, d, ran, kept⟩ <;> rw [ran]
    · exact idle _
    · exact ⟨d, kept⟩
  | patchRoute group number body =>
    unfold TenantRequest.serve
    rw [left_ignored]
    apply byRoute
    intro r mine
    split
    · exact idle []
    · rw [run_bind, run_ofExcept]
      cases Requests.patchArtifact transpile body with
      | error e => exact idle []
      | ok patch =>
        rw [andThen_ok, left_viaRegistry]
        exact contained_updateRoute hold group number patch mine
  | deleteRoute group number =>
    apply byRoute
    intro r mine
    rw [left_viaRegistry]
    exact contained_deleteRoute hold group number mine
  | setRouteState group number entries =>
    apply byRoute
    intro r mine
    rw [run_bind, run_ofExcept]
    cases Requests.decodeStateEntries entries with
    | error e => exact idle []
    | ok decoded =>
      rw [andThen_ok, left_viaRegistry]
      exact contained_setRouteState hold group number decoded.pairs mine
  | deleteRouteState group number =>
    apply byRoute
    intro r mine
    rw [run_bind]
    have cleared := contained_clearRouteState hold group number mine
    rw [← left_viaRegistry] at cleared
    rcases ran : run (Requests.viaRegistry (clearRouteState group number)) s with ⟨_ | _, t⟩ <;>
      rw [ran] at cleared <;> exact cleared
  | patchGroup groupRef body =>
    unfold TenantRequest.serve
    rw [left_ignored]
    apply byGroup
    intro g live mine
    split
    · exact idle []
    · exact contained_patchGroupRequest hold live mine
        (ulids _ (hold.sound.mintedGroup live)) body
  | deleteGroup groupRef =>
    apply byGroup
    intro g _ mine
    rw [left_ignored, left_viaRegistry]
    exact contained_cascadeDeleteGroup hold (fun _ => mine)
  | refreshGroup groupRef =>
    unfold TenantRequest.serve
    rw [left_ignored]
    apply byGroup
    intro g _ mine
    rw [left_viaRegistry]
    exact contained_refreshGroup hold (fun _ => mine)
  | setGroupState groupRef entries =>
    apply byGroup
    intro g _ mine
    rw [run_bind, run_ofExcept]
    cases Requests.decodeStateEntries entries with
    | error e => exact idle []
    | ok decoded =>
      rw [andThen_ok, left_viaRegistry]
      exact contained_setGroupState hold (fun _ => mine) decoded.pairs
  | deleteGroupState groupRef =>
    apply byGroup
    intro g _ mine
    rw [left_viaRegistry]
    exact contained_clearGroupState hold (fun _ => mine)
  | deleteGroupJournal groupRef =>
    apply byGroup
    intro g _ mine
    rw [left_viaRegistry]
    exact contained_clearGroupJournal hold (fun _ => mine)
  | importGroup spec drawn =>
    unfold TenantRequest.serve
    rw [left_ignored]
    unfold Requests.viaApi
    rw [run_mapError]
    exact contained_importGroupCore transpile hold spec drawn distinct new

end Serving

/-! Runs -/

section Runs
variable [UlidText] [Messages] {transpile : String → Except String String} {admins : String → Bool}
  {s t : CallState} {c : Catalog}

/-- The rights of each user are the same in every request. -/
def SameRoles (admins : String → Bool) (_ : CallState) (a : AuthContext × TenantRequest) : Prop :=
  a.1.isAdmin = admins a.1.userId

/-- Requests of users who own nothing of a group and are no admins. -/
def FromOthers (admins : String → Bool) (owner : String) (s : CallState)
    (a : AuthContext × TenantRequest) : Prop :=
  SameRoles admins s a ∧ a.1.isAdmin = false ∧ a.1.userId ≠ owner

theorem tenants_step (held : Stored s c) {a : AuthContext × TenantRequest}
    (next : (tenants transpile).step s a = some t) :
    ∃ d, Stored t d ∧ (SameRoles admins s a → Owned admins c → Owned admins d ∧
      (a.1.isAdmin = false → ∀ gid g, c.groups gid = some g → g.ownerId ≠ a.1.userId →
        Untouched s.store t.store gid)) := by
  obtain ⟨auth, request⟩ := a
  simp only [tenants, Option.ite_none_right_eq_some, Option.some.injEq] at next
  obtain ⟨⟨distinct, drawable⟩, rfl⟩ := next
  have ulids : ∀ id ∈ c.minted, UlidText.fromString id = true ∧ id ≠ "" :=
    fun id member => held.ulids id ((held.minted id).mp member)
  obtain ⟨d, contained⟩ := contained_serve transpile held.consistent ulids request distinct
    (fun id member old => (drawable id member).1 ((held.minted id).mp old))
  obtain ⟨e, after, routes, groups⟩ := stored_after held drawable contained.consistent
    contained.minted
  refine ⟨e, after, fun agree owned => ⟨?_, contained.untouched ⟨owned, agree⟩⟩⟩
  intro rid r g found record
  exact contained.owned ⟨owned, agree⟩ rid r g (routes ▸ found) (groups ▸ record)

theorem tenants_stored {allow : CallState → AuthContext × TenantRequest → Prop}
    (reached : Reached (tenants transpile) allow s) : ∃ c, Stored s c := by
  have base : ∀ s, (tenants transpile).start s → ∃ c, Stored s c := by
    rintro s ⟨b, rfl⟩
    exact ⟨Catalog.empty, consistent_empty b, by simp [Catalog.empty], by simp⟩
  refine reached_invariant base ?_ reached
  rintro s a t ⟨c, held⟩ _ next
  have step : ∃ d, Stored t d ∧ (SameRoles (fun _ => a.1.isAdmin) s a → _) := tenants_step held next
  exact step.imp fun _ after => after.1

theorem tenants_owned (reached : Reached (tenants transpile) (SameRoles admins) s) :
    ∃ c, Stored s c ∧ Owned admins c := by
  have base : ∀ s, (tenants transpile).start s → ∃ c, Stored s c ∧ Owned admins c := by
    rintro s ⟨b, rfl⟩
    exact ⟨Catalog.empty, ⟨consistent_empty b, by simp [Catalog.empty], by simp⟩, owned_empty⟩
  refine reached_invariant base ?_ reached
  rintro s a t ⟨c, held, owned⟩ roles next
  obtain ⟨d, after, kept⟩ := tenants_step held next
  exact ⟨d, after, (kept roles owned).1⟩

/-- What is left of a group after requests of others. -/
structure StillThere (admins : String → Bool) (s : CallState) (gid : String) (g : Group)
    (t : CallState) (d : Catalog) : Prop where
  stored : Stored t d
  owned : Owned admins d
  live : d.groups gid = some g
  keys : ∀ k, KeyOf t.store gid k ↔ KeyOf s.store gid k
  untouched : Untouched s.store t.store gid

theorem stillThere_run (held : Stored s c) (owned : Owned admins c) {gid : String} {g : Group}
    (live : c.groups gid = some g)
    (others : Run (tenants transpile) (FromOthers admins g.ownerId) s t) :
    ∃ d, StillThere admins s gid g t d := by
  have base : ∃ d, StillThere admins s gid g s d :=
    ⟨c, held, owned, live, fun _ => Iff.rfl, fun _ _ => rfl⟩
  have preserved : ∀ t a u, (∃ d, StillThere admins s gid g t d) →
      FromOthers admins g.ownerId t a → (tenants transpile).step t a = some u →
      ∃ d, StillThere admins s gid g u d := by
    rintro t a u ⟨d, there⟩ ⟨roles, member, other⟩ next
    obtain ⟨e, later, rest⟩ := tenants_step there.stored next
    obtain ⟨kept, others⟩ := rest roles there.owned
    have untouched := others member gid g there.live (Ne.symm other)
    have before := there.stored.consistent
    refine ⟨e, later, kept, ?_, ?_, ?_⟩
    · exact (untouched_live before later.consistent untouched g).mpr there.live
    · exact fun k => (untouched_keys before later.consistent untouched k).trans (there.keys k)
    · exact fun k key => (untouched k ((there.keys k).mpr key)).trans (there.untouched k key)
  exact run_invariant preserved others base

/-- However others use the host, everything under the keys of a group stays as it was, with
    its deadlines; the group stays listed, and its routes are the same. -/
theorem tenants_isolated {gid : String} {g : Group}
    (reached : Reached (tenants transpile) (SameRoles admins) s) (live : GroupAt s.store gid g)
    (others : Run (tenants transpile) (FromOthers admins g.ownerId) s t) :
    GroupAt t.store gid g ∧ gid ∈ t.store.setAt .groupAll ∧
      gid ∈ t.store.setAt (.groupOwner g.ownerId) ∧
      (∀ k, KeyOf t.store gid k ↔ KeyOf s.store gid k) ∧
      (∀ k, KeyOf s.store gid k → t.store.entry k = s.store.entry k) ∧
      ∀ rid r, r.groupId = gid → (RouteAt t.store rid r ↔ RouteAt s.store rid r) := by
  obtain ⟨c, held, owned⟩ := tenants_owned reached
  have record := (held.consistent.represents.groups.record gid g).mp live
  obtain ⟨d, after, _, there, keys, same⟩ := stillThere_run held owned record others
  have groups := after.consistent.represents.groups
  refine ⟨(groups.record gid g).mpr there, (groups.all gid).mpr ⟨g, there⟩,
    (groups.owner _ gid).mpr ⟨g, there, rfl⟩, keys, same, ?_⟩
  intro rid r home
  have stored : ∀ {u : CallState} {x : Catalog}, Stored u x → RouteAt u.store rid r →
      KeyOf u.store gid (.route rid) := by
    intro u x held' route
    have routes := held'.consistent.represents.routes
    exact .route ((routes.inGroup gid rid).mpr ⟨r, (routes.record rid r).mp route, home⟩)
  have hash : KeyOf s.store gid (.route rid) → (RouteAt t.store rid r ↔ RouteAt s.store rid r) := by
    intro key
    unfold RouteAt
    rw [Storage.hashAt_of_entry (same _ key)]
  constructor
  · intro route
    exact (hash ((keys _).mp (stored after route))).mp route
  · intro route
    exact (hash (stored held route)).mpr route

end Runs

namespace Sample

/-- A user who is no admin and owns nothing yet. -/
def stranger : AuthContext := ⟨"bob", "bob@shop.test", false, .token, idF⟩

def shopImport : GroupSpec := ⟨"shop", some "1h30m", none, none,
  [⟨some "GET", [], "/cart", none, some "handle", none⟩]⟩

def shopped : List (AuthContext × TenantRequest) := [(member, .importGroup shopImport imported)]

/-- The group of another user is renamed, emptied and deleted, all in vain. -/
def strangers : List (AuthContext × TenantRequest) :=
  [(stranger, .patchGroup "shop" ⟨some "mine", none, none, none⟩),
    (stranger, .deleteRoute "shop" 1),
    (stranger, .createGroup ⟨some "depot", none, none⟩ idD 0 draw),
    (stranger, .deleteGroup "shop")]

end Sample

theorem tenants_isolated_shop : ∃ (s t : CallState) (g : Group), GroupAt s.store Sample.idA g ∧
    t.store.bytesAt (.groupByName "depot") = some (.text Sample.idD) ∧
    ∀ k, KeyOf s.store Sample.idA k → t.store.entry k = s.store.entry k := by
  let outsider : CallState → AuthContext × TenantRequest → Bool :=
    fun _ a => !a.1.isAdmin && a.1.userId != "ann"
  have ran : ((exec (guarded (tenants Sample.accepts) (fun _ a => !a.1.isAdmin))
      ⟨Storage.empty .inMemory, []⟩ Sample.shopped).bind (fun s =>
        (exec (guarded (tenants Sample.accepts) outsider) s Sample.strangers).map (fun t =>
          ((groupAnswer s.store Sample.idA).toOption.map Group.ownerId,
            t.store.bytesAt (.groupByName "depot"))))) =
      some (some "ann", some (.text Sample.idD)) := by
    decide +kernel
  obtain ⟨s, shopped, later⟩ := Option.bind_eq_some_iff.mp ran
  obtain ⟨t, done, shows⟩ := Option.map_eq_some_iff.mp later
  simp only [Prod.mk.injEq] at shows
  obtain ⟨owner, depot⟩ := shows
  obtain ⟨g, found, mine⟩ := Option.map_eq_some_iff.mp owner
  have live := group_at_of_answer found
  have reached : Reached (tenants Sample.accepts) (SameRoles fun _ => false) s :=
    reached_mono (fun _ a ok => by simpa [SameRoles] using ok)
      (reached_of_guarded Sample.shopped ⟨.inMemory, rfl⟩ shopped)
  have others : Run (tenants Sample.accepts) (FromOthers (fun _ => false) g.ownerId) s t :=
    run_mono (fun _ a ok => by simpa [FromOthers, SameRoles, mine, outsider] using ok)
      (run_of_guarded Sample.strangers done)
  exact ⟨s, t, g, live, depot, (tenants_isolated reached live others).2.2.2.2.1⟩

end WireMirage
