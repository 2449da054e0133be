import WireMirage.Registry.Orphans

/-!
The background sweep, which deletes what the routes of lapsed groups have left behind, as
any number of replicas run it at once over the same store.
-/
namespace WireMirage
open Prog Site StepMachine

structure SweepStats where
  groupsSwept : Nat
  routesReaped : Nat
  deriving DecidableEq, Repr

/-- The routes in turn; each group is probed once and, when it is gone, deleted. -/
def sweepRoutes [UlidText] : List Route → List String → SweepStats → Reg SweepStats
  | [], _, stats => return stats
  | route :: rest, seen, stats =>
    if route.groupId ∈ seen then sweepRoutes rest seen stats
    else do
      match ← Prog.attempt (readGroupByRef route.groupId) with
      | .ok _ => sweepRoutes rest (route.groupId :: seen) stats
      -- Whatever the error is, the group counts as gone.
      | .error _ => do
        let reaped ← cascadeDeleteGroup route.groupId
        sweepRoutes rest (route.groupId :: seen)
          ⟨stats.groupsSwept + 1, stats.routesReaped + reaped⟩

def singlePass [UlidText] : Reg SweepStats := do
  let routes ← listRoutes
  sweepRoutes routes [] ⟨0, 0⟩

theorem mapM_answered {A B E : Type} {items : List A} {answer : A → Except E B}
    (each : ∀ a ∈ items, ∃ b, answer a = .ok b) : ∃ bs, items.mapM answer = .ok bs := by
  induction items with
  | nil => exact ⟨[], rfl⟩
  | cons a rest ih =>
    obtain ⟨b, first⟩ := each a List.mem_cons_self
    obtain ⟨bs, others⟩ := ih fun a member => each a (List.mem_cons_of_mem _ member)
    exact ⟨b :: bs, by rw [List.mapM_cons, first, others]; rfl⟩

section Sweeps
variable [UlidText] {s : Store} {c : Catalog} (ab : Abandoned s c)
include ab

/-! What a sweep reads -/

section Reading
variable {gid : String}

theorem steady_readGroup (gid : String) : (sweepSite s c).Steady s (readGroup gid) := by
  refine steady_single (single_readGroup gid) fun t (ok : Sweeping s c t) => ?_
  have same : t.hashAt (.group gid) = s.hashAt (.group gid) :=
    congrArg Storage.asHash (ok.leads _ rfl)
  rw [run_readGroup ok.kinded, run_readGroup ab.kinded]
  simp only [groupAnswer, same]

theorem steady_resolveByName (name : String) :
    (sweepSite s c).Steady s (resolveByName name) := by
  refine steady_bind (steady_single (single_atomic _) fun t (ok : Sweeping s c t) => ?_) ?_
  · have same : t.bytesAt (.groupByName name) = s.bytesAt (.groupByName name) :=
      congrArg Storage.asBytes (ok.leads _ rfl)
    have reads : ∀ u : Store, u.WellKinded →
        run (Bucket.get (.groupByName name) : Reg _) u = (.ok (u.bytesAt (.groupByName name)), u) :=
      fun u wk => run_get wk rfl
    exact (reads t ok.kinded).trans (by rw [reads s ab.kinded, same])
  · rintro (_ | v)
    · trivial
    · dsimp only
      cases v.utf8 <;> trivial

theorem steady_resolveGroup (reference : String) :
    (sweepSite s c).Steady s (resolveGroup reference) := by
  unfold resolveGroup
  split
  · refine steady_bind (steady_single (single_atomic _) fun t (ok : Sweeping s c t) => ?_) ?_
    · have same : t.hashAt (.group reference) = s.hashAt (.group reference) :=
        congrArg Storage.asHash (ok.leads _ rfl)
      have reads : ∀ u : Store, u.WellKinded →
          run (Bucket.hashGetAll (.group reference) : Reg _) u =
            (.ok (u.hashAt (.group reference)), u) := fun u wk => run_hashGetAll wk rfl
      exact (reads t ok.kinded).trans (by rw [reads s ab.kinded, same])
    · intro fields
      split
      · trivial
      · exact steady_resolveByName ab reference
  · exact steady_resolveByName ab reference

theorem steady_readGroupByRef (reference : String) :
    (sweepSite s c).Steady s (readGroupByRef reference) := by
  refine steady_bind (steady_bind (steady_resolveGroup ab reference) ?_)
    fun id => steady_readGroup ab id
  rintro (_ | id) <;> trivial

theorem steady_readGroupIfAny (gid : String) :
    (sweepSite s c).Steady s (readGroupIfAny gid) := by
  refine steady_bind (steady_attempt (steady_readGroup ab gid)) ?_
  rintro (e | g)
  · cases e <;> trivial
  · trivial

theorem readGroupIfAny_none (orphan : Orphaned s gid) :
    (run (readGroupIfAny gid) s).1 = .ok none := by
  unfold readGroupIfAny
  rw [run_bind, run_attempt, run_readGroup ab.kinded, andThen_ok, groupAnswer,
    ab.lapsed gid orphan, if_pos (by rfl)]
  rfl

omit ab in
/-- A piece of an orphaned group has fallen as soon as one of its routes is not listed or has
    no id. -/
theorem begun_of_unlisted (orphan : Orphaned s gid) {rid : String} {t : Store}
    (listed : rid ∈ s.setAt (.routeInGroup gid)) (gone : rid ∉ t.setAt (.routeInGroup gid)) :
    (sweepSite s c).Begun gid t := by
  refine ⟨.member (.routeInGroup gid) rid, ⟨orphan, .inl rfl, ?_⟩, ?_⟩
  · simp [Piece.held, listed]
  · simp [sweepSite, Piece.held, gone]

theorem begun_of_missing (orphan : Orphaned s gid) {rid : String} {t : Store}
    (listed : rid ∈ s.setAt (.routeInGroup gid)) (gone : rid ∉ t.setAt .routeAll) :
    (sweepSite s c).Begun gid t := by
  have stood : rid ∈ s.setAt .routeAll := by
    obtain ⟨r, live, _⟩ := (ab.routes.inGroup gid rid).mp listed
    exact (ab.routes.all rid).mpr ⟨r, live⟩
  refine ⟨.member .routeAll rid, ⟨orphan, .inr (.inr (.inr ⟨rid, listed, .inl rfl⟩)), ?_⟩, ?_⟩
  · simp [Piece.held, stood]
  · simp [sweepSite, Piece.held, gone]

theorem begun_of_unmade (orphan : Orphaned s gid) {rid : String} {t : Store}
    (listed : rid ∈ s.setAt (.routeInGroup gid)) (unmade : Unmade t rid) :
    (sweepSite s c).Begun gid t := by
  obtain ⟨r, live, _⟩ := (ab.routes.inGroup gid rid).mp listed
  have record : RouteFields (s.hashAt (.route rid)) r := (ab.routes.record rid r).mpr live
  refine ⟨.field (.route rid) "id", ⟨orphan, .inr (.inr (.inr ⟨rid, listed,
    .inr (.inr ⟨"id", by simp [cascadedRouteFields], rfl⟩)⟩)), ?_⟩, ?_⟩
  · simp [Piece.held, record.id]
  · exact fun stands => stands (unmade_iff.mp unmade)

omit ab in
theorem listed_before {k : Key} {rid : String} {t : Store} (ok : Sweeping s c t)
    (family : k.family = some .set) (listed : rid ∈ t.setAt k) : rid ∈ s.setAt k := by
  rcases ok.spared (.member k rid) with same | ⟨gone, _⟩
  · by_contra absent
    simp [Piece.held, family, listed, absent, -Key.family] at same
  · simp [Piece.held, family, listed, -Key.family] at gone

/-- A record that reads is that of a route there was. -/
theorem read_live {rid : String} {q : Route} {t : Store} (ok : Sweeping s c t)
    (read : routeAnswer t rid = .ok q) : c.routes rid = some q := by
  have record := routeAnswer_ok_iff.mp read
  cases live : c.routes rid with
  | none =>
    have vacant : Unmade t rid := by
      refine unmade_iff.mpr ?_
      rcases ok.spared (.field (.route rid) "id") with same | ⟨gone, _⟩
      · rw [same]
        exact unmade_iff.mp (ab.routes.rest rid live)
      · exact gone
    exact absurd record (vacant_route vacant q)
  | some r =>
    rcases ok.record rid r live with whole | ⟨_, unmade⟩
    · rw [route_fields_unique whole record]
    · exact absurd record (vacant_route unmade q)

omit ab in
/-- The ids of a set, as one action reads them. -/
theorem razes_setMembers {k : Key} (family : k.family = some .set) (u : Store) :
    (sweepSite s c).Razes (fun r t => ∃ ids v, r = .ok ids ∧ Sweeping s c v ∧
        ids = v.setAt k ∧ (sweepSite s c).Later v t)
      (Bucket.setMembers k : Reg (List String)) u := by
  refine razes_of_quiet (safe_single (single_atomic _) ?_)
  intro t _ (ok : Sweeping s c t)
  exact ⟨_, t, run_setMembers ok.kinded family, ok, rfl, fun v later _ =>
    ⟨_, t, rfl, ok, rfl, later⟩⟩

/-- The whole of an orphaned group is gone after its deletion, unless somebody else is at it. -/
theorem razes_cascadeDeleteGroup (orphan : Orphaned s gid) {u : Store} (ok : Sweeping s c u) :
    (sweepSite s c).Razes (fun r t => ∃ n, r = .ok n ∧ (sweepSite s c).Begun gid t)
      (cascadeDeleteGroup gid) u := by
  have probe : Safe (sweepSite s c).valid (sweepSite s c).Later Eq
      (fun r _ => r = (run (readGroupIfAny gid) s).1) (readGroupIfAny gid) u :=
    safe_steady (sweeping_start ab) (steady_readGroupIfAny ab gid) u
  show (sweepSite s c).Razes _ (readGroupIfAny gid >>= cascadeFound gid) u
  refine razes_bind ok (razes_of_quiet probe) ?_ ?_
  · intro found t valid _ known
    rw [readGroupIfAny_none ab orphan] at known
    cases known
    show (sweepSite s c).Razes _ (Bucket.setMembers (.routeInGroup gid) >>= cascadeListed gid) t
    refine razes_bind valid (razes_setMembers rfl t) ?_ ?_
    · rintro ids v valid' _ ⟨ids', w, same, before, rfl, since⟩
      cases same
      have work := performs_cascadeListed ab orphan
        (fun rid member => listed_before before rfl member) valid'
      by_cases all : ∀ rid ∈ s.setAt (.routeInGroup gid), rid ∈ w.setAt (.routeInGroup gid)
      · obtain ⟨rid, listed⟩ := orphan.1
        exact razes_of_performs (performs_weaken work fun _ _ unmade =>
            begun_of_unmade ab orphan listed (unmade rid (all rid listed)))
          (.inr fun x piece => fells_cascadeListed ab all piece)
      · simp only [not_forall] at all
        obtain ⟨rid, listed, gone⟩ := all
        have begun := begun_later (begun_of_unlisted orphan listed gone) since
        exact razes_of_performs (performs_weaken
          (performs_keeping (fun _ _ => begun_later) work begun) fun _ _ both => both.2)
          (.inl begun)
    · rintro e v _ ⟨ids, w, impossible, _⟩
      cases impossible
  · intro e t _ known
    rw [readGroupIfAny_none ab orphan] at known
    cases known

theorem succeeds_cascadeDeleteGroup (orphan : Orphaned s gid) :
    (sweepSite s c).Succeeds (cascadeDeleteGroup gid) := by
  show (sweepSite s c).Succeeds (readGroupIfAny gid >>= cascadeFound gid)
  refine succeeds_steady (sweeping_start ab) (steady_readGroupIfAny ab gid)
    (readGroupIfAny_none ab orphan) ?_
  exact succeeds_bind (succeeds_single (single_atomic _) fun t (ok : Sweeping s c t) =>
      ⟨_, congrArg Prod.fst (run_setMembers ok.kinded rfl)⟩)
    fun ids => succeeds_cascadeListed ids

end Reading

/-! A pass -/

/-- The routes are those of the catalog. -/
def Known (c : Catalog) (routes : List Route) : Prop := ∀ q ∈ routes, c.routes q.id = some q

theorem orphaned_of_refused {q : Route} {e : RegistryError} (live : c.routes q.id = some q)
    (refused : (run (readGroupByRef q.groupId) s).1 = .error e) : Orphaned s q.groupId := by
  refine ⟨⟨q.id, (ab.routes.inGroup _ _).mpr ⟨q, live, rfl⟩⟩, fun g resolves => ?_⟩
  rw [refused] at resolves
  cases resolves

theorem razes_sweepRoutes {routes : List Route} (known : Known c routes) {seen : List String}
    {stats : SweepStats} {u : Store} (ok : Sweeping s c u)
    (begun : ∀ gid ∈ seen, Orphaned s gid → (sweepSite s c).Begun gid u) :
    (sweepSite s c).Razes (fun r t => ∃ stats, r = .ok stats ∧ ∀ gid, Orphaned s gid →
        ((sweepSite s c).Begun gid u ∨ ∃ q ∈ routes, q.groupId = gid) →
          (sweepSite s c).Begun gid t) (sweepRoutes routes seen stats) u := by
  induction routes generalizing seen stats u with
  | nil =>
    intro t later _
    refine ⟨stats, rfl, ?_⟩
    rintro gid _ (before | ⟨q, member, _⟩)
    · exact begun_later before later
    · cases member
  | cons route rest ih =>
    have later := fun q member => known q (List.mem_cons_of_mem route member)
    -- The route itself is accounted for by what has been seen, or by what the probe led to.
    have onward : ∀ {seen' stats'} {v : Store}, Sweeping s c v → (sweepSite s c).Later u v →
        (Orphaned s route.groupId → (sweepSite s c).Begun route.groupId v) →
        (∀ gid ∈ seen', Orphaned s gid → (sweepSite s c).Begun gid v) →
        (sweepSite s c).Razes (fun r t => ∃ stats, r = .ok stats ∧ ∀ gid, Orphaned s gid →
          ((sweepSite s c).Begun gid u ∨ ∃ q ∈ route :: rest, q.groupId = gid) →
            (sweepSite s c).Begun gid t) (sweepRoutes rest seen' stats') v := by
      intro seen' stats' v valid since here before
      refine razes_weaken (ih later valid before) ?_
      rintro r t ⟨stats, same, all⟩
      refine ⟨stats, same, ?_⟩
      rintro gid orphan (earlier | ⟨q, member, rfl⟩)
      · exact all gid orphan (.inl (begun_later earlier since))
      · rcases List.mem_cons.mp member with rfl | inRest
        · exact all _ orphan (.inl (here orphan))
        · exact all _ orphan (.inr ⟨q, inRest, rfl⟩)
    unfold sweepRoutes
    by_cases old : route.groupId ∈ seen
    · rw [if_pos old]
      exact onward ok (later_refl u) (begun _ old) begun
    · rw [if_neg old]
      have probe : Safe (sweepSite s c).valid (sweepSite s c).Later Eq
          (fun r _ => r = (run (attempt (readGroupByRef route.groupId)) s).1)
          (attempt (readGroupByRef route.groupId) : Reg _) u :=
        safe_steady (sweeping_start ab)
          (steady_attempt (steady_readGroupByRef ab route.groupId)) u
      refine razes_bind ok (razes_of_quiet probe) ?_ ?_
      · intro found t valid since answer
        rw [run_attempt, Except.ok.injEq] at answer
        have still : ∀ gid ∈ seen, Orphaned s gid → (sweepSite s c).Begun gid t :=
          fun gid member orphan => begun_later (begun gid member orphan) since
        cases found with
        | ok g =>
          have fine : ¬ Orphaned s route.groupId := fun orphan => orphan.2 g answer.symm
          refine onward valid since (fun orphan => absurd orphan fine) ?_
          intro gid member orphan
          rcases List.mem_cons.mp member with rfl | inSeen
          · exact absurd orphan fine
          · exact still gid inSeen orphan
        | error e =>
          have orphan := orphaned_of_refused ab (known route List.mem_cons_self) answer.symm
          refine razes_bind valid (razes_cascadeDeleteGroup ab orphan valid) ?_ ?_
          · rintro n v valid' further ⟨_, _, gone⟩
            refine onward valid' (later_trans since further) (fun _ => gone) ?_
            intro gid member orphan'
            rcases List.mem_cons.mp member with rfl | inSeen
            · exact gone
            · exact begun_later (still gid inSeen orphan') further
          · rintro e' v _ ⟨_, impossible, _⟩
            cases impossible
      · intro e t _ answer
        rw [run_attempt] at answer
        cases answer

theorem succeeds_sweepRoutes {routes : List Route} (known : Known c routes) (seen : List String)
    (stats : SweepStats) : (sweepSite s c).Succeeds (sweepRoutes routes seen stats) := by
  induction routes generalizing seen stats with
  | nil => trivial
  | cons route rest ih =>
    have onward := ih fun q member => known q (List.mem_cons_of_mem route member)
    unfold sweepRoutes
    by_cases old : route.groupId ∈ seen
    · rw [if_pos old]
      exact onward seen stats
    · rw [if_neg old]
      refine succeeds_steady (sweeping_start ab)
        (steady_attempt (steady_readGroupByRef ab route.groupId))
        (congrArg Prod.fst (run_attempt _ s)) ?_
      cases answer : (run (readGroupByRef route.groupId) s).1 with
      | ok g => exact onward _ _
      | error e =>
        have orphan := orphaned_of_refused ab (known route List.mem_cons_self) answer
        exact succeeds_bind (succeeds_cascadeDeleteGroup ab orphan) fun n => onward _ _

theorem razes_collect (ids : List String) {u : Store} (ok : Sweeping s c u) :
    (sweepSite s c).Razes (fun r _ => ∀ routes, r = .ok routes →
        Known c routes ∧ ∀ rid ∈ ids, ∃ q ∈ routes, q.id = rid)
      (collect ids readRoute) u := by
  induction ids generalizing u with
  | nil =>
    intro t _ _ routes same
    cases same
    exact ⟨fun q member => absurd member List.not_mem_nil,
      fun rid member => absurd member List.not_mem_nil⟩
  | cons rid rest ih =>
    have read : (sweepSite s c).Razes (fun r _ => ∀ q, r = .ok q → c.routes rid = some q)
        (readRoute rid) u := by
      refine razes_of_quiet (safe_single (single_readRoute rid) ?_)
      intro t _ (valid : Sweeping s c t)
      exact ⟨_, t, run_readRoute valid.kinded rid, valid, rfl, fun _ _ _ q same =>
        read_live ab valid same⟩
    have fails : ∀ (P : List Route → Prop) (e : RegistryError) (routes : List Route),
        (.error e : Except RegistryError (List Route)) = .ok routes → P routes := by
      intro _ e routes impossible
      cases impossible
    refine razes_bind ok read ?_ fun e t _ _ => fails _ e
    intro q t valid _ answered
    have live := answered q rfl
    refine razes_bind valid (ih valid) ?_ fun e t _ _ => fails _ e
    intro more v _ _ others w _ _ routes same
    cases same
    obtain ⟨known, all⟩ := others more rfl
    obtain rfl := ab.ids live
    refine ⟨?_, ?_⟩
    · intro q' member
      rcases List.mem_cons.mp member with rfl | inMore
      · exact live
      · exact known q' inMore
    · intro id member
      rcases List.mem_cons.mp member with rfl | inRest
      · exact ⟨q, List.mem_cons_self, rfl⟩
      · obtain ⟨q', inMore, same⟩ := all id inRest
        exact ⟨q', List.mem_cons_of_mem q inMore, same⟩

/-- A pass that ends well has seen to every orphaned group. -/
def passes (s : Store) (c : Catalog) (r : Except RegistryError SweepStats) (t : Store) : Prop :=
  ∀ stats, r = .ok stats → ∀ gid, Orphaned s gid → (sweepSite s c).Begun gid t

theorem razes_singlePass {u : Store} (ok : Sweeping s c u) :
    (sweepSite s c).Razes (passes s c) singlePass u := by
  unfold singlePass listRoutes listRoutesFrom
  rw [Prog.bind_assoc]
  refine razes_bind ok (razes_setMembers rfl u) ?_ ?_
  · rintro ids t valid _ ⟨ids', v, same, before, rfl, since⟩
    cases same
    refine razes_bind valid (razes_collect ab _ valid) ?_ ?_
    · intro routes w valid' further listed
      obtain ⟨known, all⟩ := listed routes rfl
      refine razes_weaken (razes_sweepRoutes ab known valid' (by simp)) ?_
      rintro r x ⟨stats, same, done⟩ stats' _ gid orphan
      apply done gid orphan
      obtain ⟨rid, inGroup⟩ := orphan.1
      by_cases there : rid ∈ v.setAt .routeAll
      · obtain ⟨q, member, rfl⟩ := all rid there
        obtain ⟨r', live, home⟩ := (ab.routes.inGroup gid q.id).mp inGroup
        rw [known q member, Option.some.injEq] at live
        subst live
        exact .inr ⟨q, member, home⟩
      · exact .inl (begun_later (begun_of_missing ab orphan inGroup there)
          (later_trans since further))
    · intro e w _ _ stats impossible
      cases impossible
  · rintro e t _ ⟨ids, v, impossible, _⟩
    cases impossible

/-- A pass with nobody else about ends well. -/
theorem run_singlePass : ∃ stats t, run singlePass s = (.ok stats, t) := by
  have start := sweeping_start ab
  obtain ⟨routes, read⟩ : ∃ routes, run listRoutes s = (.ok routes, s) := by
    rw [listRoutes, run_listRoutesFrom ab.kinded _ rfl]
    have each : ∀ rid ∈ s.setAt .routeAll, ∃ q, routeAnswer s rid = .ok q := by
      intro rid listed
      obtain ⟨r, live⟩ := (ab.routes.all rid).mp listed
      exact ⟨r, routeAnswer_ok_iff.mpr ((ab.routes.record rid r).mpr live)⟩
    obtain ⟨routes, all⟩ := mapM_answered each
    exact ⟨routes, by rw [all]⟩
  have known : Known c routes := by
    have listed := razes_run (razes_collect ab (s.setAt .routeAll) start) start
    rw [listRoutes, listRoutesFrom, run_bind, run_setMembers ab.kinded rfl, andThen_ok] at read
    exact (listed routes (congrArg Prod.fst read)).1
  rw [singlePass, run_bind, read, andThen_ok]
  exact run_succeeds (succeeds_sweepRoutes ab known _ _)
    (razes_sweepRoutes ab known start (by simp)) start

/-! Any number of sweepers -/

theorem dismantling_start {tasks : List (Reg SweepStats)} (each : ∀ t ∈ tasks, t = singlePass) :
    Dismantling (sweepSite s c) (passes s c) ⟨s, tasks, ()⟩ where
  valid := sweeping_start ab
  razes := by
    intro t member
    rw [each t member]
    exact razes_singlePass ab (sweeping_start ab)
  owed := by
    rintro g ⟨x, piece, fallen⟩
    exact absurd piece.2.2 fallen

section Ended
variable {p : Pool Store (Reg SweepStats) Unit}
  (now : Dismantling (sweepSite s c) (passes s c) p) (ended : ∀ t ∈ p.tasks, t.Finished)
include now ended

theorem gone_of_begun {gid : String} (orphan : Orphaned s gid)
    (begun : (sweepSite s c).Begun gid p.shared) {x : Piece} (due : x.Due s gid) :
    x.held p.shared = none := by
  by_contra stands
  have stood : x.held s ≠ none := by
    intro absent
    rcases now.valid.spared x with same | ⟨gone, _⟩
    · exact stands (same.trans absent)
    · exact stands gone
  exact dismantled now ended begun ⟨orphan, falls_of_due ab orphan due stood, stood⟩ stands

omit ab ended in
theorem passed_of_ended {gid : String} {x : Piece} (past : x.PassedOver s gid) :
    x.held p.shared = x.held s := by
  rcases now.valid.spared x with same | ⟨_, h, _, due⟩
  · exact same
  · exact absurd due (passed_not_due past)

theorem wholeOrGone_of_ended {gid : String} (orphan : Orphaned s gid) :
    WholeOrGone s p.shared gid := by
  by_cases begun : (sweepSite s c).Begun gid p.shared
  · exact .inr ⟨fun x due => gone_of_begun ab now ended orphan begun due,
      fun x _ past => passed_of_ended now past⟩
  · refine .inl fun x belongs => ?_
    by_cases past : x.PassedOver s gid
    · exact passed_of_ended now past
    rcases now.valid.spared x with same | ⟨gone, _⟩
    · exact same
    · by_contra differ
      have stood : x.held s ≠ none := fun absent => differ (gone.trans absent.symm)
      exact begun ⟨x, ⟨orphan, falls_of_due ab orphan ⟨belongs, past⟩ stood, stood⟩,
        fun stands => stands gone⟩

theorem swept_of_done {t : Reg SweepStats} (member : t ∈ p.tasks) {stats : SweepStats}
    (done : t.answer = some (.ok stats)) : Swept s p.shared where
  gone gid x orphan due :=
    gone_of_begun ab now ended orphan (dismantling_answer now member done stats rfl gid orphan) due
  kept x apart := by
    rcases now.valid.spared x with same | ⟨_, gid, orphan, due⟩
    · exact same
    · exact absurd due (apart gid orphan)

end Ended
end Sweeps

/-- Replicas that sweep one store at once. -/
def sweepers [UlidText] (s : Store) : Machine (Pool Store (Reg SweepStats) Unit)
    (PoolAction Unit Empty) :=
  pool (crew fun _ => singlePass) fun t _ => t = s

theorem abandoned_lapsed [UlidText] {now : CallState} {c : Catalog} (stored : Stored now c)
    (own : Lawful OwnField now.store) {lapsed : Key → Bool}
    (apart : ∀ k : Key, k.ofRoute = true → lapsed k = false) :
    Abandoned (now.store.without lapsed) c where
  kinded := Storage.wellKinded_without stored.consistent.represents.kinded _
  routes := routeSide_congr stored.consistent.represents.routes
    (fun k mine => by simp [SameAt, apart k mine]) rfl (fun _ old => old)
  ids := stored.consistent.sound.routeId
  fields := by
    intro rid f stands
    rw [Storage.hashAt_without, apart _ rfl, if_neg (by simp)] at stands
    obtain ⟨v, found⟩ := Option.ne_none_iff_exists'.mp stands
    exact own.fields (.route rid) rid f v rfl found
  lapsed := by
    have rep := stored.consistent.represents
    have sound := stored.consistent.sound
    have wk := Storage.wellKinded_without rep.kinded lapsed
    rintro gid ⟨⟨rid, listed⟩, unresolved⟩
    by_contra full
    rw [Storage.setAt_without, apart _ rfl, if_neg (by simp)] at listed
    rw [Storage.hashAt_without] at full
    have kept : lapsed (.group gid) = false := by
      by_contra covered
      simp only [Bool.not_eq_false] at covered
      exact full (if_pos covered)
    obtain ⟨r, live, rfl⟩ := (rep.routes.inGroup gid rid).mp listed
    obtain ⟨g, group, _⟩ := sound.parent live
    have record : GroupFields ((now.store.without lapsed).hashAt (.group r.groupId)) g := by
      rw [Storage.hashAt_without, if_neg (by simp [kept])]
      exact (rep.groups.record r.groupId g).mpr group
    obtain ⟨text, named⟩ := stored.ulids _ ((stored.minted _).mp (sound.mintedGroup group))
    have resolved : resolvedAnswer (now.store.without lapsed) r.groupId = .ok r.groupId := by
      rw [resolved_ok_iff, if_pos ⟨text, named, by rw [contains, record.id]; rfl⟩]
    apply unresolved g
    rw [run_readGroupByRef wk, resolved]
    exact groupAnswer_ok_iff.mpr record

/-- Any number of sweepers over a store some of whose groups have lapsed: at no time is anything
    gone but what is due of those groups. Once the passes have ended, each such group is whole,
    or gone but for what is passed over; one pass that ends well sees to all of them, and a pass
    with nobody else about does end well. -/
theorem sweepers_converge [UlidText] {now : CallState}
    (reached : Reached calls (fun _ _ => True) now) {lapsed : Key → Bool}
    (apart : ∀ k : Key, k.ofRoute = true → lapsed k = false) :
    (∃ stats t, run singlePass (now.store.without lapsed) = (.ok stats, t) ∧
      Swept (now.store.without lapsed) t) ∧
    ∀ p, Reached (sweepers (now.store.without lapsed)) (fun _ _ => True) p →
      Spared (now.store.without lapsed) p.shared ∧
      ((∀ t ∈ p.tasks, t.Finished) →
        (∀ gid, Orphaned (now.store.without lapsed) gid →
          WholeOrGone (now.store.without lapsed) p.shared gid) ∧
        ((∃ t ∈ p.tasks, ∃ stats, t.answer = some (.ok stats)) →
          Swept (now.store.without lapsed) p.shared)) := by
  obtain ⟨c, stored⟩ := calls_stored reached
  have ab := abandoned_lapsed stored (calls_ownField reached) apart
  have begins := fun (_ : Unit) (u : Store) (ok : (sweepSite _ c).valid u) =>
    razes_singlePass ab ok
  constructor
  · obtain ⟨stats, t, ran⟩ := run_singlePass ab
    obtain ⟨task, answer, path⟩ := crew_alone (fun _ : Unit => singlePass) (fun _ _ => True) ran
    have now := dismantling_run begins (dismantling_start ab (by simp)) path
    have ended : ∀ u ∈ [task], u.Finished := by
      intro u member
      rw [List.mem_singleton.mp member]
      cases task with
      | done a => trivial
      | fail e => trivial
      | act effect next => cases answer
    exact ⟨stats, t, ran, swept_of_done ab now ended List.mem_cons_self answer⟩
  · rintro ⟨t, tasks, l⟩ ⟨p, ⟨start, empty⟩, path⟩
    obtain ⟨shared, ts, u⟩ := p
    cases start
    cases empty
    have now := dismantling_run begins (dismantling_start ab (by simp)) path
    refine ⟨now.valid.spared, fun ended => ⟨?_, ?_⟩⟩
    · exact fun gid orphan => wholeOrGone_of_ended ab now ended orphan
    · rintro ⟨task, member, stats, answer⟩
      exact swept_of_done ab now ended member answer

namespace Sample

def routedShop : List Call :=
  [.mutation (.createGroup (group "shop" "ann") idA 0 draw),
    .mutation (.createRoute (route "shop" "/cart" "cart" "ann") ⟨idB, idC⟩ 0 draw)]

def shopLapsed : Key → Bool
  | .group _ => true
  | .groupByName _ => true
  | _ => false

end Sample

theorem sweepers_converge_shop : ∃ s : CallState, Reached calls (fun _ _ => True) s ∧
    (run singlePass (s.store.without Sample.shopLapsed)).1 = .ok ⟨1, 1⟩ ∧
      ∃ stats t, run singlePass (s.store.without Sample.shopLapsed) = (.ok stats, t) ∧
        Swept (s.store.without Sample.shopLapsed) t := by
  have ran : ((exec calls ⟨Storage.empty .inMemory, []⟩ Sample.routedShop).map
      (fun s => ((run singlePass (s.store.without Sample.shopLapsed)).1.toOption.map
        (fun stats => (stats.groupsSwept, stats.routesReaped))))) = some (some (1, 1)) := by
    decide +kernel
  obtain ⟨s, done, swept⟩ := Option.map_eq_some_iff.mp ran
  have reached := reached_of_exec (m := calls) Sample.routedShop ⟨.inMemory, rfl⟩ done
  have apart : ∀ k : Key, k.ofRoute = true → Sample.shopLapsed k = false := by
    intro k mine
    cases k <;> simp_all [Key.ofRoute, Sample.shopLapsed]
  refine ⟨s, reached, ?_, (sweepers_converge reached apart).1⟩
  cases answer : (run singlePass (s.store.without Sample.shopLapsed)).1 with
  | error e => simp [answer, Except.toOption] at swept
  | ok stats =>
    obtain ⟨groups, routes⟩ := stats
    simp only [answer, Except.toOption, Option.map_some, Option.some.injEq,
      Prod.mk.injEq] at swept
    obtain ⟨rfl, rfl⟩ := swept
    rfl

end WireMirage
