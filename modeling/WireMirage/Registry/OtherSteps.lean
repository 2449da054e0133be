import WireMirage.Registry.GroupSteps

/-!
The operations that leave the catalog as it is, but for the times, counts and
settings that its records carry along.
-/
namespace WireMirage
open Prog

/-- A route without the record of its hits. -/
def Route.core (r : Route) : Route := { r with hitsTotal := 0, lastHitAt := none }

/-- A group without its settings and the time of its last activity. -/
def Group.core (g : Group) : Group :=
  { g with ttlSeconds := 0, slidingTtl := false, calloutEnabled := false, lastActivityAt := none }

/-- What routes of one core share. -/
structure SameRoute (q r : Route) : Prop where
  id : q.id = r.id
  groupId : q.groupId = r.groupId
  groupName : q.groupName = r.groupName
  number : q.number = r.number
  methods : q.methods = r.methods
  path : q.path = r.path
  source : q.source = r.source
  compiledWasm : q.compiledWasm = r.compiledWasm
  ownerId : q.ownerId = r.ownerId

structure SameGroup (g h : Group) : Prop where
  id : g.id = h.id
  name : g.name = h.name
  ownerId : g.ownerId = h.ownerId
  createdAt : g.createdAt = h.createdAt

theorem same_route {q r : Route} (same : q.core = r.core) : SameRoute q r := by
  simp only [Route.core, Route.mk.injEq] at same
  constructor <;> simp only [same]

theorem same_group {g h : Group} (same : g.core = h.core) : SameGroup g h := by
  simp only [Group.core, Group.mk.injEq] at same
  constructor <;> simp only [same]

/-- Two catalogs of the same groups and routes, in all that identifies and serves them. -/
structure Alike (c d : Catalog) : Prop where
  routes : ∀ rid, (c.routes rid).map Route.core = (d.routes rid).map Route.core
  groups : ∀ gid, (c.groups gid).map Group.core = (d.groups gid).map Group.core
  minted : d.minted = c.minted

theorem Alike.refl (c : Catalog) : Alike c c := ⟨fun _ => rfl, fun _ => rfl, rfl⟩

theorem Alike.trans {c d e : Catalog} (one : Alike c d) (two : Alike d e) : Alike c e :=
  ⟨fun rid => (one.routes rid).trans (two.routes rid),
    fun gid => (one.groups gid).trans (two.groups gid), two.minted.trans one.minted⟩

section
variable {c d : Catalog} (alike : Alike c d)
include alike

/-- A route of the one catalog is a route of the other, with the same core. -/
theorem Alike.route {rid : String} {r : Route} (found : d.routes rid = some r) :
    ∃ q, c.routes rid = some q ∧ q.core = r.core := by
  have same := alike.routes rid
  rw [found] at same
  cases before : c.routes rid with
  | none => simp [before] at same
  | some q => exact ⟨q, rfl, by simpa [before] using same⟩

theorem Alike.group {gid : String} {g : Group} (found : d.groups gid = some g) :
    ∃ h, c.groups gid = some h ∧ h.core = g.core := by
  have same := alike.groups gid
  rw [found] at same
  cases before : c.groups gid with
  | none => simp [before] at same
  | some h => exact ⟨h, rfl, by simpa [before] using same⟩

theorem Alike.group_back {gid : String} {h : Group} (found : c.groups gid = some h) :
    ∃ g, d.groups gid = some g ∧ h.core = g.core := by
  have same := alike.groups gid
  rw [found] at same
  cases after : d.groups gid with
  | none => simp [after] at same
  | some g => exact ⟨g, rfl, by simpa [after] using same⟩

theorem Alike.sound (sound : c.Sound) : d.Sound where
  routeId := by
    intro rid r found
    obtain ⟨q, before, same⟩ := alike.route found
    exact (same_route same).id.symm.trans (sound.routeId before)
  groupId := by
    intro gid g found
    obtain ⟨h, before, same⟩ := alike.group found
    exact (same_group same).id.symm.trans (sound.groupId before)
  parent := by
    intro rid r found
    obtain ⟨q, before, same⟩ := alike.route found
    obtain ⟨h, record, named⟩ := sound.parent before
    obtain ⟨g, after, sameGroup⟩ := alike.group_back record
    have called := (same_group sameGroup).name
    refine ⟨g, (same_route same).groupId ▸ after, ?_⟩
    exact called.symm.trans (named.trans (same_route same).groupName)
  names := by
    intro a b g h foundA foundB same
    obtain ⟨x, beforeA, coreA⟩ := alike.group foundA
    obtain ⟨y, beforeB, coreB⟩ := alike.group foundB
    have calledA := (same_group coreA).name
    have calledB := (same_group coreB).name
    exact sound.names beforeA beforeB (calledA.trans (same.trans calledB.symm))
  mintedRoute := by
    intro rid r found
    obtain ⟨q, before, _⟩ := alike.route found
    exact alike.minted ▸ sound.mintedRoute before
  mintedGroup := by
    intro gid g found
    obtain ⟨h, before, _⟩ := alike.group found
    exact alike.minted ▸ sound.mintedGroup before
  path := by
    intro rid r found
    obtain ⟨q, before, same⟩ := alike.route found
    exact (same_route same).path ▸ sound.path before
  methods := by
    intro rid r found
    obtain ⟨q, before, same⟩ := alike.route found
    exact (same_route same).methods ▸ sound.methods before
  apart := by
    intro a b r x foundA foundB differ home
    obtain ⟨q, beforeA, coreA⟩ := alike.route foundA
    obtain ⟨y, beforeB, coreB⟩ := alike.route foundB
    have sameA := same_route coreA
    have sameB := same_route coreB
    have home' : q.groupId = y.groupId := sameA.groupId.trans (home.trans sameB.groupId.symm)
    have apart := sound.apart beforeA beforeB differ home'
    rw [Apart, ← sameA.methods, ← sameA.path, ← sameB.methods, ← sameB.path]
    exact apart

end

theorem alike_setRoute {c : Catalog} {old r : Route} (before : c.routes r.id = some old)
    (same : old.core = r.core) : Alike c (c.setRoute r) := by
  refine ⟨?_, fun _ => rfl, rfl⟩
  intro rid
  show (c.routes rid).map Route.core = (if rid = r.id then some r else c.routes rid).map Route.core
  by_cases here : rid = r.id
  · subst here
    simp [before, same]
  · rw [if_neg here]

theorem alike_setGroup {c : Catalog} {old g : Group} (before : c.groups g.id = some old)
    (same : old.core = g.core) : Alike c (c.setGroup g) := by
  refine ⟨fun _ => rfl, ?_, rfl⟩
  intro gid
  show (c.groups gid).map Group.core = (if gid = g.id then some g else c.groups gid).map Group.core
  by_cases here : gid = g.id
  · subst here
    simp [before, same]
  · rw [if_neg here]

/-! Changes elsewhere in the store -/

/-- A store changed only where the catalog is not kept, or in the counters of groups. -/
theorem consistent_elsewhere {s t : Store} {c : Catalog} (hold : Consistent s c)
    (kinded : t.WellKinded)
    (same : ∀ k, k.ofRoute = true ∨ k.ofGroup = true → (∀ gid, k ≠ .groupCounters gid) →
      SameAt s t k)
    (counters : ∀ gid, gid ∉ c.minted → t.hashAt (.groupCounters gid) = ∅) : Consistent t c := by
  have rep := hold.represents
  refine ⟨⟨kinded, ?_, ?_⟩, hold.sound⟩
  · refine routeSide_congr rep.routes (fun k mine => same k (.inl mine) ?_) rfl (fun _ old => old)
    rintro gid rfl
    simp [Key.ofRoute] at mine
  · constructor
    · intro gid g
      unfold GroupAt
      rw [(same (.group gid) (.inr rfl) (by simp)).2.1]
      exact rep.groups.record gid g
    · intro gid none
      rw [(same (.group gid) (.inr rfl) (by simp)).2.1]
      exact rep.groups.rest gid none
    · intro name v
      rw [(same (.groupByName name) (.inr rfl) (by simp)).1]
      exact rep.groups.byName name v
    · intro gid
      rw [(same .groupAll (.inr rfl) (by simp)).2.2]
      exact rep.groups.all gid
    · intro owner gid
      rw [(same (.groupOwner owner) (.inr rfl) (by simp)).2.2]
      exact rep.groups.owner owner gid
    · intro gid new
      rw [(same (.group gid) (.inr rfl) (by simp)).2.1]
      exact ⟨(rep.groups.fresh gid new).1, counters gid new⟩

section
variable {s : Store} {c : Catalog} (hold : Consistent s c)
include hold

theorem consistent_groupArmed (gid name : String) (ttl : Nat) :
    Consistent (groupArmed s gid name ttl) c := by
  apply consistent_elsewhere hold (leads_armGroupTtls gid name ttl hold.represents.kinded).2
  · intro k _ _
    simp [SameAt, groupArmed, ttlArmed]
  · intro id new
    simpa [groupArmed, ttlArmed] using (hold.represents.groups.fresh id new).2

theorem consistent_journalCleared (gid : String) : Consistent (journalCleared s gid) c := by
  apply consistent_elsewhere hold (leads_clearGroupJournal gid hold.represents.kinded).2
  · intro k mine other
    cases k <;> simp only [Key.ofRoute, Key.ofGroup, Bool.false_eq_true, or_self] at mine <;>
      first
      | exact absurd rfl (other _)
      | simp [SameAt, journalCleared, KeyPrefix.covers]
  · intro id new
    have fresh := (hold.represents.groups.fresh id new).2
    simp [journalCleared, KeyPrefix.covers, fresh]

theorem consistent_without {p : KeyPrefix}
    (away : ∀ k, k.ofRoute = true ∨ k.ofGroup = true → p.covers k = false) :
    Consistent (s.without p.covers) c := by
  apply consistent_elsewhere hold (Storage.wellKinded_without hold.represents.kinded _)
  · intro k mine _
    simp [SameAt, away k mine]
  · intro id new
    have fresh := (hold.represents.groups.fresh id new).2
    simp [away (.groupCounters id) (.inr rfl), fresh]

theorem consistent_stateCleared (gid : String) : Consistent (stateCleared s gid) c := by
  have first := consistent_without hold (p := .kvGroup gid) (by
    intro k mine
    cases k <;> simp [Key.ofRoute, Key.ofGroup, KeyPrefix.covers] at mine ⊢)
  exact consistent_without first (p := .gkv gid) (by
    intro k mine
    cases k <;> simp [Key.ofRoute, Key.ofGroup, KeyPrefix.covers] at mine ⊢)

/-- Values put under keys that no family claims. -/
theorem consistent_statePut {key : String → Key} (free : ∀ x, (key x).family = none)
    (state : List (String × Bytes)) : Consistent (statePut key s state) c := by
  induction state generalizing s with
  | nil => exact hold
  | cons e rest ih =>
    apply ih
    have away : ∀ k : Key, k.ofRoute = true ∨ k.ofGroup = true → k ≠ key e.1 := by
      rintro k mine rfl
      have none := free e.1
      cases found : key e.1 <;> simp [found, Key.ofRoute, Key.ofGroup] at mine none
    apply consistent_elsewhere hold
    · exact Storage.wellKinded_replace hold.represents.kinded _ _ (.inr (by simpa using free e.1))
    · intro k mine _
      simp [SameAt, away k mine]
    · intro id new
      have fresh := (hold.represents.groups.fresh id new).2
      simp [away (.groupCounters id) (.inr rfl), fresh]

/-! Records carry the traces of hits and of settings -/

/-- A field that no reader of the route requires is written, to a record or to what is left
    of one. -/
theorem consistent_routeField {rid : String} (minted : rid ∈ c.minted) {field : String} {v : Val}
    (apart : field ≠ "id")
    (reads : ∀ r, c.routes rid = some r →
      ∃ r', RouteFields ((s.hashAt (.route rid)).insert field v) r' ∧ r.core = r'.core) :
    ∃ d, Consistent (s.putHash (.route rid) ((s.hashAt (.route rid)).insert field v)) d ∧
      Alike c d := by
  have rep := hold.represents
  have same : ∀ k, k ≠ .route rid → SameAt s
      (s.putHash (.route rid) ((s.hashAt (.route rid)).insert field v)) k := by
    intro k other
    simp [SameAt, other]
  have kinded := Storage.wellKinded_putHash (k := .route rid) rep.kinded (by simp)
    ((s.hashAt (.route rid)).insert field v)
  have groups : ∀ {d : Catalog}, d.groups = c.groups → (∀ id ∈ c.minted, id ∈ d.minted) →
      GroupSide (s.putHash (.route rid) ((s.hashAt (.route rid)).insert field v)) d := by
    intro d sameGroups grown
    refine groupSide_congr rep.groups (fun k mine => same k ?_) sameGroups grown
    rintro rfl
    simp [Key.ofGroup] at mine
  cases live : c.routes rid with
  | none =>
    refine ⟨c, ⟨⟨kinded, ?_, groups rfl (fun _ old => old)⟩, hold.sound⟩, Alike.refl c⟩
    refine routeSide_residue rep.routes minted live ?_ (fun k _ other => same k other)
    have vacant := rep.routes.rest rid live
    rw [Storage.hashAt_putHash, if_pos rfl, lookup_insert, if_neg apart.symm, vacant]
  | some r =>
    obtain ⟨r', fields, core⟩ := reads r live
    obtain ⟨id, home, _, number, _, _, _, _, owner⟩ := same_route core
    have here := hold.sound.routeId live
    subst here
    have alike := alike_setRoute (c := c) (id ▸ live) core
    refine ⟨c.setRoute r', ⟨⟨kinded, ?_, groups rfl (fun _ old => old)⟩, alike.sound hold.sound⟩,
      alike⟩
    apply routeSide_setRoute rep.routes (id ▸ live) home.symm owner.symm number.symm
    · unfold RouteAt
      rw [Storage.hashAt_putHash, if_pos (by rw [id])]
      exact fields
    · intro k _ other
      exact same k (id.symm ▸ other)

theorem consistent_groupField {gid : String} (minted : gid ∈ c.minted) {field : String} {v : Val}
    (apart : field ≠ "id")
    (reads : ∀ g, c.groups gid = some g →
      ∃ g', GroupFields ((s.hashAt (.group gid)).insert field v) g' ∧ g.core = g'.core) :
    ∃ d, Consistent (s.putHash (.group gid) ((s.hashAt (.group gid)).insert field v)) d ∧
      Alike c d := by
  have rep := hold.represents
  have same : ∀ k, k ≠ .group gid → SameAt s
      (s.putHash (.group gid) ((s.hashAt (.group gid)).insert field v)) k := by
    intro k other
    simp [SameAt, other]
  have kinded := Storage.wellKinded_putHash (k := .group gid) rep.kinded (by simp)
    ((s.hashAt (.group gid)).insert field v)
  have routes : ∀ {d : Catalog}, d.routes = c.routes → (∀ id ∈ c.minted, id ∈ d.minted) →
      RouteSide (s.putHash (.group gid) ((s.hashAt (.group gid)).insert field v)) d := by
    intro d sameRoutes grown
    refine routeSide_congr rep.routes (fun k mine => same k ?_) sameRoutes grown
    rintro rfl
    simp [Key.ofRoute] at mine
  cases live : c.groups gid with
  | none =>
    refine ⟨c, ⟨⟨kinded, routes rfl (fun _ old => old), ?_⟩, hold.sound⟩, Alike.refl c⟩
    refine groupSide_residue rep.groups minted live ?_ (fun k _ other => same k other)
    have vacant := rep.groups.rest gid live
    rw [Storage.hashAt_putHash, if_pos rfl, lookup_insert, if_neg apart.symm, vacant]
  | some g =>
    obtain ⟨g', fields, core⟩ := reads g live
    obtain ⟨id, name, owner, _⟩ := same_group core
    have here := hold.sound.groupId live
    subst here
    have alike := alike_setGroup (c := c) (id ▸ live) core
    refine ⟨c.setGroup g', ⟨⟨kinded, routes rfl (fun _ old => old), ?_⟩, alike.sound hold.sound⟩,
      alike⟩
    apply groupSide_setGroup rep.groups (id ▸ live) name.symm owner.symm
    · unfold GroupAt
      rw [Storage.hashAt_putHash, if_pos (by rw [id])]
      exact fields
    · intro k _ other
      exact same k (id.symm ▸ other)

/-! Each operation leaves a store of a catalog like the one before -/

theorem alike_hitStamped {rid : String} (minted : rid ∈ c.minted) (now : Time) :
    ∃ d, Consistent (hitStamped s rid now) d ∧ Alike c d := by
  apply consistent_routeField hold minted (by decide)
  intro r live
  exact ⟨_, route_fields_last ((hold.represents.routes.record rid r).mpr live) now, rfl⟩

omit hold in
/-- A count that goes up by one stays within what a reader accepts. -/
theorem next_count {k : Key} {f : Option String} {h : Fields Val} {m : Nat} {n : Int}
    (field : HitsField h m)
    (count : s.addInt k f (h.lookup "hits_total") 1 = .ok n) :
    n = (m + 1 : Nat) ∧ m + 1 < u64Size := by
  unfold HitsField at field
  unfold Storage.addInt at count
  rcases field with ⟨absent, rfl⟩ | ⟨present, _⟩
  · simp only [absent, Except.ok.injEq] at count
    exact ⟨count.symm, by decide⟩
  · have reads : s.readInt (Val.int m) = some (m : Int) := by
      unfold Storage.readInt
      cases s.backend <;> rfl
    simp only [present, reads] at count
    split at count
    · rename_i range
      cases count
      refine ⟨by simp, ?_⟩
      unfold i64Max at range
      unfold u64Size
      omega
    · cases count

theorem alike_hitCounted {rid : String} (minted : rid ∈ c.minted) {n : Int}
    (count : s.addInt (.route rid) (some "hits_total")
      ((s.hashAt (.route rid)).lookup "hits_total") 1 = .ok n) :
    ∃ d, Consistent (hitCounted s rid n) d ∧ Alike c d := by
  apply consistent_routeField hold minted (by decide)
  intro r live
  have fields : RouteFields (s.hashAt (.route rid)) r :=
    (hold.represents.routes.record rid r).mpr live
  obtain ⟨rfl, bound⟩ := next_count fields.hitsTotal count
  exact ⟨_, route_fields_hits fields _ bound, rfl⟩

theorem alike_activityStamped {gid : String} (minted : gid ∈ c.minted) (now : Time) :
    ∃ d, Consistent (activityStamped s gid now) d ∧ Alike c d := by
  apply consistent_groupField hold minted (by decide)
  intro g live
  exact ⟨_, group_fields_activity ((hold.represents.groups.record gid g).mpr live) now, rfl⟩

theorem recordRouteHit_step {gid rid : String} (group : gid ∈ c.minted) (route : rid ∈ c.minted)
    (now : Time) : ∃ d, Consistent (run (recordRouteHit gid rid now) s).2 d ∧ Alike c d := by
  obtain ⟨d, held, like⟩ := alike_hitStamped hold route now
  rcases run_recordRouteHit hold.represents.kinded gid rid now with ⟨e, ran⟩ | ⟨n, ran, count⟩
  · exact ⟨d, by rw [ran]; exact held, like⟩
  · obtain ⟨d', held', like'⟩ := alike_hitCounted held (like.minted.symm ▸ route) count
    obtain ⟨d'', held'', like''⟩ := alike_activityStamped held'
      (like'.minted.symm ▸ like.minted.symm ▸ group) now
    exact ⟨d'', by rw [ran]; exact held'', (like.trans like').trans like''⟩

theorem alike_flagPatched {gid field : String} {g : Group} (live : c.groups gid = some g)
    (apart : field ≠ "id") (flag : Option Bool)
    (reads : ∀ h x b, GroupFields h x →
      ∃ x', GroupFields (h.insert field (.flag b)) x' ∧ x.core = x'.core) :
    ∃ d, Consistent (fieldPatched (.group gid) field .flag s flag) d ∧ Alike c d := by
  cases flag with
  | none => exact ⟨c, hold, Alike.refl c⟩
  | some b =>
    apply consistent_groupField hold (hold.sound.mintedGroup live) apart
    intro x record
    exact reads _ x b ((hold.represents.groups.record gid x).mpr record)

theorem alike_ttlPatched {gid : String} {g : Group} (live : c.groups gid = some g)
    {ttl : Option Nat} (bound : ∀ n ∈ ttl, n < u64Size) :
    ∃ d, Consistent (ttlPatched s gid g ttl) d ∧ Alike c d := by
  cases ttl with
  | none => exact ⟨c, hold, Alike.refl c⟩
  | some n =>
    obtain ⟨d, held, like⟩ := consistent_groupField hold
      (v := .int n) (hold.sound.mintedGroup live) (by decide) (fun x record =>
        ⟨_, group_fields_ttl ((hold.represents.groups.record gid x).mpr record) n
          (bound n rfl), rfl⟩)
    exact ⟨d, consistent_groupArmed held gid g.name n, like⟩

theorem patchGroup_step (gid : String) (ttl : Option Nat) (sliding callout : Option Bool) :
    ∃ d, Consistent (run (patchGroup gid ttl sliding callout) s).2 d ∧ Alike c d := by
  rcases patchGroup_cases hold.represents.kinded gid ttl sliding callout with
    ⟨e, ran⟩ | ⟨g, g', ran, record, bound, _⟩
  · exact ⟨c, by rw [ran]; exact hold, Alike.refl c⟩
  · have live := (hold.represents.groups.record gid g).mp record
    obtain ⟨d, held, like⟩ := alike_ttlPatched hold live bound
    obtain ⟨x, liveX, _⟩ := like.group_back live
    obtain ⟨d', held', like'⟩ := alike_flagPatched held liveX (by decide)
      sliding (fun h x b fields => ⟨_, group_fields_sliding fields b, rfl⟩)
    obtain ⟨y, liveY, _⟩ := like'.group_back liveX
    obtain ⟨d'', held'', like''⟩ := alike_flagPatched held' liveY
      (by decide) callout (fun h x b fields => ⟨_, group_fields_callout fields b, rfl⟩)
    exact ⟨d'', by rw [ran]; exact held'', (like.trans like').trans like''⟩

theorem refreshGroup_step (gid : String) : Consistent (run (refreshGroup gid) s).2 c := by
  rcases refreshGroup_cases hold.represents.kinded gid with ⟨e, ran⟩ | ⟨g, ran, _⟩
  · rw [ran]
    exact hold
  · rw [ran]
    exact consistent_groupArmed hold gid g.name g.ttlSeconds

theorem refreshGroupIfSliding_step (gid : String) :
    Consistent (run (refreshGroupIfSliding gid) s).2 c := by
  rcases refreshGroupIfSliding_cases hold.represents.kinded gid with ⟨r, ran⟩ | ⟨g, ran, _⟩
  · rw [ran]
    exact hold
  · rw [ran]
    exact consistent_groupArmed hold gid g.name g.ttlSeconds

theorem clearGroupState_step (gid : String) : Consistent (run (clearGroupState gid) s).2 c := by
  rw [(leads_clearGroupState gid).run_eq hold.represents.kinded]
  exact consistent_stateCleared hold gid

theorem clearGroupJournal_step (gid : String) :
    Consistent (run (clearGroupJournal gid) s).2 c := by
  rw [(leads_clearGroupJournal gid).run_eq hold.represents.kinded]
  exact consistent_journalCleared hold gid

theorem setGroupState_step (gid : String) (state : List (String × Bytes)) :
    Consistent (run (setGroupState gid state) s).2 c := by
  rw [run_setGroupState]
  exact consistent_statePut hold (fun _ => rfl) state

theorem clearRouteState_step [UlidText] (groupRef : String) (number : Nat) :
    Consistent (run (clearRouteState groupRef number) s).2 c := by
  rcases clearRouteState_cases hold.represents.kinded groupRef number with
    ⟨e, ran⟩ | ⟨rid, r, n, ran, _⟩
  · rw [ran]
    exact hold
  · rw [ran]
    apply consistent_without hold
    intro k mine
    cases k <;> simp [Key.ofRoute, Key.ofGroup, KeyPrefix.covers] at mine ⊢

theorem setRouteState_step [UlidText] (groupRef : String) (number : Nat)
    (state : List (String × Bytes)) :
    Consistent (run (setRouteState groupRef number state) s).2 c := by
  rcases setRouteState_cases hold.represents.kinded groupRef number state with
    ⟨e, ran⟩ | ⟨rid, r, ran, _⟩
  · rw [ran]
    exact hold
  · rw [ran]
    exact consistent_statePut hold (fun _ => rfl) state

end

end WireMirage
