import WireMirage.Registry.Steps

/-!
The steps that reach a group and all its routes: a rename and a cascade.
-/
namespace WireMirage
open Prog

/-! Fields of a group record -/

section
variable {h : Fields Val} {g : Group} (fields : GroupFields h g)
include fields

theorem group_fields_name (name : String) :
    GroupFields (h.insert "name" (.text name)) { g with name := name } := by
  obtain ⟨a, b, d, e, f, i, j, k, l⟩ := fields
  constructor <;> simp [*]

theorem group_fields_ttl (ttl : Nat) (bound : ttl < u64Size) :
    GroupFields (h.insert "ttl_seconds" (.int ttl)) { g with ttlSeconds := ttl } := by
  obtain ⟨a, b, d, e, f, i, j, k, l⟩ := fields
  constructor <;> simp [*]

theorem group_fields_sliding (flag : Bool) :
    GroupFields (h.insert "sliding_ttl" (.flag flag)) { g with slidingTtl := flag } := by
  obtain ⟨a, b, d, e, f, i, j, k, l⟩ := fields
  obtain ⟨s, written, read⟩ := flag_reads flag
  constructor <;> simp_all

theorem group_fields_callout (flag : Bool) :
    GroupFields (h.insert "callout_enabled" (.flag flag)) { g with calloutEnabled := flag } := by
  obtain ⟨a, b, d, e, f, i, j, k, l⟩ := fields
  obtain ⟨s, written, read⟩ := flag_reads flag
  constructor <;> simp_all [Val.utf8]

theorem group_fields_activity (now : Time) :
    GroupFields (h.insert "last_activity_at" (.time now))
      { g with lastActivityAt := some now } := by
  obtain ⟨a, b, d, e, f, i, j, k, l⟩ := fields
  constructor <;> simp [*]

end

/-! Renaming -/

section
variable {s : Store} {c : Catalog}

/-- A group's record and index move to a free name. -/
theorem represents_nameMoved (rep : Represents s c) (sound : c.Sound) {g : Group}
    (live : c.groups g.id = some g) {newName : String}
    (free : s.bytesAt (.groupByName newName) = none) :
    Represents (nameMoved s g.id g newName) (c.setGroup { g with name := newName }) := by
  have groups : ∀ gid, (c.setGroup { g with name := newName }).groups gid =
      if gid = g.id then some { g with name := newName } else c.groups gid := fun _ => rfl
  have fields := group_fields_name ((rep.groups.record g.id g).mpr live) newName
  have hash : ∀ gid, (nameMoved s g.id g newName).hashAt (.group gid) =
      if gid = g.id then (s.hashAt (.group g.id)).insert "name" (.text newName)
      else s.hashAt (.group gid) := by
    intro gid
    simp [nameMoved, ttlArmed]
  have index : ∀ name, (nameMoved s g.id g newName).bytesAt (.groupByName name) =
      if name = newName then some (.text g.id)
      else if name = g.name then none else s.bytesAt (.groupByName name) := by
    intro name
    simp [nameMoved, ttlArmed]
  have routes : ∀ k, k.ofRoute = true → SameAt s (nameMoved s g.id g newName) k := by
    intro k mine
    cases k <;> simp only [Key.ofRoute, Bool.false_eq_true] at mine <;>
      simp [SameAt, nameMoved, ttlArmed]
  have listed : ∀ (P : Group → Prop) (gid : String), (P { g with name := newName } ↔ P g) →
      ((∃ x, (c.setGroup { g with name := newName }).groups gid = some x ∧ P x) ↔
        ∃ x, c.groups gid = some x ∧ P x) := by
    intro P gid agree
    rw [groups]
    by_cases here : gid = g.id
    · subst here
      simp [live, agree]
    · simp [here]
  refine ⟨(leads_moveName g.id g newName rep.kinded).2,
    routeSide_congr rep.routes routes rfl (fun _ old => old), ?_⟩
  constructor
  · intro gid x
    unfold GroupAt
    rw [hash, groups]
    by_cases here : gid = g.id
    · rw [if_pos here, if_pos here, group_fields_iff fields, Option.some.injEq, eq_comm]
    · rw [if_neg here, if_neg here]
      exact rep.groups.record gid x
  · intro gid none
    rw [groups] at none
    rw [hash]
    by_cases here : gid = g.id
    · simp [here] at none
    · rw [if_neg here] at none ⊢
      exact rep.groups.rest gid none
  · intro name v
    rw [index]
    by_cases mine : name = newName
    · rw [if_pos mine, Option.some.injEq]
      constructor
      · intro same
        exact ⟨g.id, _, by rw [groups, if_pos rfl], mine.symm, same.symm⟩
      · rintro ⟨gid, h, record, named, rfl⟩
        rw [groups] at record
        by_cases here : gid = g.id
        · rw [here]
        · rw [if_neg here] at record
          exact absurd (named.trans mine) (name_free rep free gid h record)
    · rw [if_neg mine]
      by_cases old : name = g.name
      · rw [if_pos old]
        constructor
        · intro none
          cases none
        · rintro ⟨gid, h, record, named, _⟩
          rw [groups] at record
          by_cases here : gid = g.id
          · rw [if_pos here] at record
            cases record
            exact absurd named.symm mine
          · rw [if_neg here] at record
            exact absurd (sound.names record live (named.trans old)) here
      · rw [if_neg old, rep.groups.byName]
        constructor
        · rintro ⟨gid, h, record, named, same⟩
          refine ⟨gid, h, ?_, named, same⟩
          rw [groups, if_neg]
          · exact record
          · rintro rfl
            rw [live, Option.some.injEq] at record
            exact old (record ▸ named.symm)
        · rintro ⟨gid, h, record, named, same⟩
          rw [groups] at record
          by_cases here : gid = g.id
          · rw [if_pos here] at record
            cases record
            exact absurd named.symm mine
          · rw [if_neg here] at record
            exact ⟨gid, h, record, named, same⟩
  · intro gid
    have all : (nameMoved s g.id g newName).setAt .groupAll = s.setAt .groupAll := by
      simp [nameMoved, ttlArmed]
    rw [all, rep.groups.all]
    simpa using (listed (fun _ => True) gid Iff.rfl).symm
  · intro owner gid
    have owners : (nameMoved s g.id g newName).setAt (.groupOwner owner) =
        s.setAt (.groupOwner owner) := by
      simp [nameMoved, ttlArmed]
    rw [owners, rep.groups.owner]
    exact (listed (fun x => x.ownerId = owner) gid Iff.rfl).symm
  · intro gid new
    have here : gid ≠ g.id := by
      rintro rfl
      exact new (sound.mintedGroup live)
    have counters : (nameMoved s g.id g newName).hashAt (.groupCounters gid) =
        s.hashAt (.groupCounters gid) := by
      simp [nameMoved, ttlArmed]
    rw [hash, if_neg here, counters]
    exact rep.groups.fresh gid new

/-- The routes of a list carry a new group name. -/
def Catalog.nameRoutes (c : Catalog) (newName : String) (routes : List Route) : Catalog :=
  routes.foldl (fun d r => d.setRoute { r with groupName := newName }) c

theorem nameRoutes_other {newName : String} {routes : List Route} {rid : String}
    (other : ∀ r ∈ routes, r.id ≠ rid) : (c.nameRoutes newName routes).routes rid =
      c.routes rid := by
  induction routes generalizing c with
  | nil => rfl
  | cons r rest ih =>
    show ((c.setRoute { r with groupName := newName }).nameRoutes newName rest).routes rid = _
    rw [ih (fun q member => other q (List.mem_cons_of_mem r member))]
    simp [Catalog.setRoute, (other r List.mem_cons_self).symm]

theorem nameRoutes_mem {newName : String} {routes : List Route} {r : Route}
    (distinct : (routes.map Route.id).Nodup) (member : r ∈ routes) :
    (c.nameRoutes newName routes).routes r.id = some { r with groupName := newName } := by
  induction routes generalizing c with
  | nil => cases member
  | cons q rest ih =>
    have apart := List.nodup_cons.mp distinct
    show ((c.setRoute { q with groupName := newName }).nameRoutes newName rest).routes r.id = _
    rcases List.mem_cons.mp member with rfl | inRest
    · rw [nameRoutes_other]
      · simp [Catalog.setRoute]
      · intro x inRest same
        exact apart.1 (same ▸ List.mem_map_of_mem inRest)
    · exact ih apart.2 inRest

theorem nameRoutes_groups {newName : String} {routes : List Route} :
    (c.nameRoutes newName routes).groups = c.groups ∧
      (c.nameRoutes newName routes).minted = c.minted := by
  induction routes generalizing c with
  | nil => exact ⟨rfl, rfl⟩
  | cons r rest ih =>
    show ((c.setRoute { r with groupName := newName }).nameRoutes newName rest).groups = _ ∧ _
    exact ih

theorem represents_renameAll (rep : Represents s c) (newName : String) {routes : List Route}
    (distinct : (routes.map Route.id).Nodup) (live : ∀ r ∈ routes, c.routes r.id = some r) :
    Represents (routes.foldl (fun t r => routeRenamed newName r t) s)
      (c.nameRoutes newName routes) := by
  induction routes generalizing s c with
  | nil => exact rep
  | cons r rest ih =>
    have apart := List.nodup_cons.mp distinct
    have here := live r List.mem_cons_self
    have same : ∀ k, k ≠ .route r.id → SameAt s (routeRenamed newName r s) k := by
      intro k other
      simp [SameAt, routeRenamed, other]
    have fields : RouteAt (routeRenamed newName r s) r.id { r with groupName := newName } := by
      unfold RouteAt routeRenamed
      rw [Storage.hashAt_putHash, if_pos rfl]
      exact route_fields_groupName ((rep.routes.record r.id r).mpr here) newName
    have step : Represents (routeRenamed newName r s)
        (c.setRoute { r with groupName := newName }) := by
      refine ⟨wellKinded_routeRenamed rep.kinded newName r, ?_, ?_⟩
      · exact routeSide_setRoute rep.routes (r := { r with groupName := newName }) here rfl rfl rfl
          fields (fun k _ other => same k other)
      · refine groupSide_congr rep.groups (fun k mine => same k ?_) rfl (fun _ old => old)
        rintro rfl
        simp [Key.ofGroup] at mine
    apply ih step apart.2
    intro q inRest
    have differ : q.id ≠ r.id := fun h => apart.1 (h ▸ List.mem_map_of_mem inRest)
    simpa [Catalog.setRoute, differ] using live q (List.mem_cons_of_mem r inRest)

/-- The catalog after every route of a group took the group's new name. -/
theorem nameRoutes_eq (sound : c.Sound) {g : Group} (live : c.groups g.id = some g)
    {newName : String} {routes : List Route} (distinct : (routes.map Route.id).Nodup)
    (exactly : ∀ r, r ∈ routes ↔ ∃ rid, c.routes rid = some r ∧ r.groupId = g.id) :
    (c.setGroup { g with name := newName }).nameRoutes newName routes =
      c.renameGroup g.id newName := by
  have routesEq : ∀ rid, ((c.setGroup { g with name := newName }).nameRoutes newName routes).routes
      rid = (c.renameGroup g.id newName).routes rid := by
    intro rid
    show _ = (c.routes rid).map (Catalog.renamedRoute g.id newName)
    by_cases inside : ∃ r ∈ routes, r.id = rid
    · obtain ⟨r, member, rfl⟩ := inside
      obtain ⟨rid, found, home⟩ := (exactly r).mp member
      have same := sound.routeId found
      rw [nameRoutes_mem distinct member, same, found]
      simp [Catalog.renamedRoute, home, same]
    · have other : ∀ r ∈ routes, r.id ≠ rid := fun r member same => inside ⟨r, member, same⟩
      rw [nameRoutes_other other]
      show c.routes rid = _
      cases found : c.routes rid with
      | none => rfl
      | some r =>
        have away : r.groupId ≠ g.id := by
          intro home
          exact other r ((exactly r).mpr ⟨rid, found, home⟩) (sound.routeId found)
        simp [Catalog.renamedRoute, away]
  have groupsEq : ∀ gid, (c.setGroup { g with name := newName }).groups gid =
      (c.renameGroup g.id newName).groups gid := by
    intro gid
    show (if gid = g.id then _ else _) = (c.groups gid).map (Catalog.renamedGroup g.id newName gid)
    by_cases here : gid = g.id
    · subst here
      simp [live, Catalog.renamedGroup]
    · cases found : c.groups gid <;> simp [here, Catalog.renamedGroup]
  obtain ⟨groupsKept, mintedKept⟩ := nameRoutes_groups
    (c := c.setGroup { g with name := newName })
  have routes' := funext routesEq
  have groups' := groupsKept.trans (funext groupsEq)
  cases left : (c.setGroup { g with name := newName }).nameRoutes newName routes
  rw [left] at routes' groups' mintedKept
  simp only [Catalog.renameGroup] at routes' groups' ⊢
  simp only [Catalog.setGroup] at mintedKept
  rw [routes', groups', mintedKept]

end

section
variable {s : Store} {c : Catalog} (hold : Consistent s c)
include hold

theorem group_routes_distinct (gid : String) :
    (((s.setAt (.routeInGroup gid)).filterMap c.routes).map Route.id).Nodup := by
  have ids : ((s.setAt (.routeInGroup gid)).filterMap c.routes).map Route.id =
      s.setAt (.routeInGroup gid) := by
    have each : ∀ rid ∈ s.setAt (.routeInGroup gid), ∃ r, c.routes rid = some r ∧ r.id = rid := by
      intro rid member
      obtain ⟨r, found, _⟩ := (hold.represents.routes.inGroup gid rid).mp member
      exact ⟨r, found, hold.sound.routeId found⟩
    generalize s.setAt (.routeInGroup gid) = ids at each
    induction ids with
    | nil => rfl
    | cons rid rest ih =>
      obtain ⟨r, found, same⟩ := each rid List.mem_cons_self
      rw [List.filterMap_cons, found]
      simp only [List.map_cons, same]
      rw [ih (fun id member => each id (List.mem_cons_of_mem rid member))]
  rw [ids]
  exact s.setAt_nodup (.routeInGroup gid)

theorem renameGroup_step [UlidText] (groupRef newName : String) :
    (∃ e, run (renameGroup groupRef newName) s = (.error e, s)) ∨
      (∃ g, run (renameGroup groupRef newName) s = (.ok g, s) ∧
        resolvedAnswer s groupRef = .ok g.id ∧ c.groups g.id = some g ∧ g.name = newName) ∨
      ∃ old t, run (renameGroup groupRef newName) s = (.ok { old with name := newName }, t) ∧
        resolvedAnswer s groupRef = .ok old.id ∧ c.groups old.id = some old ∧
        old.name ≠ newName ∧ isValidLabel newName = true ∧
        s.bytesAt (.groupByName newName) = none ∧ Consistent t (c.renameGroup old.id newName) := by
  have rep := hold.represents
  -- the routes listed while the name moves are the routes of the group
  have listing : ∀ gid g, c.groups gid = some g → s.bytesAt (.groupByName newName) = none →
      ((nameMoved s gid g newName).setAt (.routeInGroup gid)).mapM
        (routeAnswer (nameMoved s gid g newName)) =
        .ok ((s.setAt (.routeInGroup gid)).filterMap c.routes) := by
    intro gid g live free
    have same := hold.sound.groupId live
    subst same
    have moved := represents_nameMoved rep hold.sound live free
    have members : (nameMoved s g.id g newName).setAt (.routeInGroup g.id) =
        s.setAt (.routeInGroup g.id) := by
      simp [nameMoved, ttlArmed]
    rw [group_routes_answer moved, members]
    rfl
  rcases renameGroup_cases rep.kinded groupRef newName with
    failed | ⟨gid, g, e, _, record, _, free, listed⟩ | ⟨gid, g, ran, found, record, same⟩ |
    ⟨g, t, ran, renamed⟩
  · exact .inl failed
  · have live := (rep.groups.record gid g).mp record
    rw [listing gid g live free] at listed
    cases listed
  · have live := (rep.groups.record gid g).mp record
    have id := hold.sound.groupId live
    subst id
    exact .inr (.inl ⟨g, ran, found, live, same⟩)
  · obtain ⟨gid, old, routes, found, record, other, label, free, listed, rfl, rfl⟩ := renamed.made
    have live := (rep.groups.record gid old).mp record
    have id := hold.sound.groupId live
    subst id
    rw [listing old.id old live free, Except.ok.injEq] at listed
    subst listed
    have distinct := group_routes_distinct hold old.id
    have step := represents_renameAll (represents_nameMoved rep hold.sound live free)
      newName distinct (by
        intro r member
        obtain ⟨rid, here, _⟩ := (mem_group_routes rep).mp member
        have same := hold.sound.routeId here
        exact same.symm ▸ here)
    rw [nameRoutes_eq hold.sound live distinct (fun r => mem_group_routes rep)] at step
    exact .inr (.inr ⟨old, _, ran, found, live, other, label, free, step,
      Catalog.sound_renameGroup hold.sound (name_free rep free)⟩)

end

/-! Deleting a group with everything in it -/

section
variable {s : Store} {c : Catalog}

theorem removed_routeCascaded (rep : Represents s c) {r : Route} (live : c.routes r.id = some r) :
    Removed s (routeCascaded r.groupId r.id s) r := by
  have read : routeAnswer s r.id = .ok r := routeAnswer_of_live rep live
  have state : routeCascaded r.groupId r.id s =
      (((indexesStripped s r).without (KeyPrefix.kvRoute r.groupId r.id).covers).dropFields
        (.route r.id) cascadedRouteFields).dropMember .routeAll r.id := by
    simp only [routeCascaded, strippedIfRead, read]
  rw [state]
  constructor
  · exact state ▸ (leads_cascadeRoute r.groupId r.id rep.kinded).2
  · intro rid other
    simp [indexesStripped, KeyPrefix.covers, other]
  · simp [indexesStripped, KeyPrefix.covers, Storage.lookup_eraseFields, cascadedRouteFields]
  · intro rid
    rw [mem_setAt_dropMember]
    simp [indexesStripped, KeyPrefix.covers, Storage.mem_setAt_erase, and_comm]
  · intro gid rid
    by_cases same : gid = r.groupId <;>
      simp [indexesStripped, KeyPrefix.covers, Storage.mem_setAt_erase, same, and_comm]
  · intro owner rid
    by_cases same : owner = r.ownerId <;>
      simp [indexesStripped, KeyPrefix.covers, Storage.mem_setAt_erase, same, and_comm]
  · intro gid n
    simp [indexesStripped, KeyPrefix.covers]
  · intro k mine
    cases k <;> simp only [Key.ofGroup, Bool.false_eq_true] at mine <;>
      simp [SameAt, indexesStripped, KeyPrefix.covers]

def Catalog.dropRoutes (c : Catalog) (ids : List String) : Catalog :=
  ids.foldl (fun d rid => d.dropRoute rid) c

theorem dropRoutes_routes (ids : List String) (rid : String) :
    (c.dropRoutes ids).routes rid = if rid ∈ ids then none else c.routes rid := by
  induction ids generalizing c with
  | nil => simp [Catalog.dropRoutes]
  | cons id rest ih =>
    show ((c.dropRoute id).dropRoutes rest).routes rid = _
    rw [ih]
    by_cases inRest : rid ∈ rest
    · simp [inRest]
    · by_cases here : rid = id <;> simp [inRest, here, Catalog.dropRoute]

theorem dropRoutes_groups (ids : List String) :
    (c.dropRoutes ids).groups = c.groups ∧ (c.dropRoutes ids).minted = c.minted := by
  induction ids generalizing c with
  | nil => exact ⟨rfl, rfl⟩
  | cons id rest ih => exact ih (c := c.dropRoute id)

theorem sound_dropRoutes (sound : c.Sound) (ids : List String) : (c.dropRoutes ids).Sound := by
  induction ids generalizing c with
  | nil => exact sound
  | cons rid rest ih => exact ih (Catalog.sound_dropRoute sound rid)

theorem represents_routesCascaded (rep : Represents s c) {gid : String} {ids : List String}
    (distinct : ids.Nodup)
    (live : ∀ rid ∈ ids, ∃ r, c.routes rid = some r ∧ r.id = rid ∧ r.groupId = gid) :
    Represents (ids.foldl (fun t rid => routeCascaded gid rid t) s) (c.dropRoutes ids) := by
  induction ids generalizing s c with
  | nil => exact rep
  | cons rid rest ih =>
    have apart := List.nodup_cons.mp distinct
    obtain ⟨r, found, rfl, rfl⟩ := live rid List.mem_cons_self
    have step := represents_removed rep found (removed_routeCascaded rep found)
    rw [List.foldl_cons]
    show Represents _ ((c.dropRoute r.id).dropRoutes rest)
    refine ih step apart.2 ?_
    intro id inRest
    obtain ⟨q, there, same, home⟩ := live id (List.mem_cons_of_mem r.id inRest)
    have differ : id ≠ r.id := fun h => apart.1 (h ▸ inRest)
    exact ⟨q, by simpa [Catalog.dropRoute, differ] using there, same, home⟩

/-- Once its routes are gone, a group goes with its namespaces, indexes and record. -/
theorem represents_recordCascaded (rep : Represents s c) (sound : c.Sound) {gid : String}
    {found : Option Group} (record : c.groups gid = found)
    (empty : ∀ rid r, c.routes rid = some r → r.groupId ≠ gid) :
    Represents ((recordCascaded gid (namespacesErased gid s) found).dropMember .groupAll gid)
      (c.dropGroup gid) := by
  have routes : (c.dropGroup gid).routes = c.routes := by
    funext rid
    show (c.routes rid).filter _ = _
    cases here : c.routes rid with
    | none => rfl
    | some r => simp [empty rid r here]
  have groups : ∀ id, (c.dropGroup gid).groups id = if id = gid then none else c.groups id :=
    fun _ => rfl
  have noMembers : s.setAt (.routeInGroup gid) = [] := by
    rw [List.eq_nil_iff_forall_not_mem]
    intro rid member
    obtain ⟨r, here, home⟩ := (rep.routes.inGroup gid rid).mp member
    exact empty rid r here home
  have wkn := wellKinded_namespacesErased rep.kinded gid
  have kinded : ((recordCascaded gid (namespacesErased gid s) found).dropMember .groupAll
      gid).WellKinded :=
    Storage.wellKinded_dropMember (leads_cascadeRecord gid found wkn).2 (by simp) gid
  have routeKeys : ∀ k, k.ofRoute = true → SameAt s ((recordCascaded gid
      (namespacesErased gid s) found).dropMember .groupAll gid) k := by
    intro k mine
    obtain ⟨noBytes, noHash⟩ := Storage.views_of_set (k := .routeInGroup gid) rep.kinded (by simp)
    cases k <;> simp only [Key.ofRoute, Bool.false_eq_true] at mine <;> cases found <;>
      simp [SameAt, recordCascaded, namespacesErased, KeyPrefix.covers]
    all_goals
      refine ⟨?_, ?_, ?_⟩ <;>
        · rintro rfl
          simp [noBytes, noHash, noMembers]
  refine ⟨kinded, routeSide_congr rep.routes routeKeys routes (fun _ old => old), ?_⟩
  have listed : ∀ (P : Group → Prop) (id : String),
      (∃ x, (c.dropGroup gid).groups id = some x ∧ P x) ↔
        (∃ x, c.groups id = some x ∧ P x) ∧ id ≠ gid := by
    intro P id
    rw [groups]
    by_cases here : id = gid <;> simp [here]
  have counters : ∀ id, ((recordCascaded gid (namespacesErased gid s) found).dropMember .groupAll
      gid).hashAt (.groupCounters id) =
      if id = gid then ∅ else s.hashAt (.groupCounters id) := by
    intro id
    cases found <;> simp [recordCascaded, namespacesErased, KeyPrefix.covers]
  have hash : ∀ id, id ≠ gid → ((recordCascaded gid (namespacesErased gid s) found).dropMember
      .groupAll gid).hashAt (.group id) = s.hashAt (.group id) := by
    intro id other
    cases found <;> simp [recordCascaded, namespacesErased, KeyPrefix.covers, other]
  have vacant : (((recordCascaded gid (namespacesErased gid s) found).dropMember .groupAll
      gid).hashAt (.group gid)).lookup "id" = none := by
    cases found with
    | none =>
      simpa [recordCascaded, namespacesErased, KeyPrefix.covers] using rep.groups.rest gid record
    | some g =>
      simp [recordCascaded, namespacesErased, KeyPrefix.covers, Storage.lookup_eraseFields,
        cascadedGroupFields]
  constructor
  · intro id x
    by_cases here : id = gid
    · subst here
      rw [groups, if_pos rfl]
      exact ⟨fun fields => absurd fields (vacant_group vacant x), fun none => by cases none⟩
    · rw [groups, if_neg here]
      unfold GroupAt
      rw [hash id here]
      exact rep.groups.record id x
  · intro id none
    by_cases here : id = gid
    · exact here ▸ vacant
    · rw [groups, if_neg here] at none
      rw [hash id here]
      exact rep.groups.rest id none
  · intro name v
    have entry : ((recordCascaded gid (namespacesErased gid s) found).dropMember .groupAll
        gid).bytesAt (.groupByName name) =
        if ∃ g, found = some g ∧ g.name = name then none else s.bytesAt (.groupByName name) := by
      cases found with
      | none => simp [recordCascaded, namespacesErased, KeyPrefix.covers]
      | some g => simp [recordCascaded, namespacesErased, KeyPrefix.covers, eq_comm]
    rw [entry]
    by_cases mine : ∃ g, found = some g ∧ g.name = name
    · rw [if_pos mine]
      obtain ⟨g, rfl, named⟩ := mine
      constructor
      · intro none
        cases none
      · rintro ⟨id, h, there, same, _⟩
        rw [groups] at there
        by_cases here : id = gid
        · simp [here] at there
        · rw [if_neg here] at there
          exact absurd (sound.names there record (same.trans named.symm)) here
    · rw [if_neg mine, rep.groups.byName]
      constructor
      · rintro ⟨id, h, there, same, is⟩
        refine ⟨id, h, ?_, same, is⟩
        rw [groups, if_neg]
        · exact there
        · rintro rfl
          exact mine ⟨h, record.symm.trans there, same⟩
      · rintro ⟨id, h, there, same, is⟩
        rw [groups] at there
        by_cases here : id = gid
        · simp [here] at there
        · rw [if_neg here] at there
          exact ⟨id, h, there, same, is⟩
  · intro id
    have all : id ∈ ((recordCascaded gid (namespacesErased gid s) found).dropMember .groupAll
        gid).setAt .groupAll ↔ id ∈ s.setAt .groupAll ∧ id ≠ gid := by
      rw [mem_setAt_dropMember]
      cases found <;> simp [recordCascaded, namespacesErased, KeyPrefix.covers]
    rw [all, rep.groups.all]
    simpa using (listed (fun _ => True) id).symm
  · intro owner id
    have owners : id ∈ ((recordCascaded gid (namespacesErased gid s) found).dropMember .groupAll
        gid).setAt (.groupOwner owner) ↔
        id ∈ s.setAt (.groupOwner owner) ∧
          ¬ (∃ g, found = some g ∧ g.ownerId = owner ∧ id = gid) := by
      cases found with
      | none => simp [recordCascaded, namespacesErased, KeyPrefix.covers]
      | some g =>
        by_cases same : owner = g.ownerId
        · simp [recordCascaded, namespacesErased, KeyPrefix.covers, Storage.mem_setAt_erase, same,
            and_comm]
        · simp [recordCascaded, namespacesErased, KeyPrefix.covers, same, Ne.symm same]
    rw [owners, rep.groups.owner, listed]
    constructor
    · rintro ⟨⟨h, there, mine⟩, other⟩
      refine ⟨⟨h, there, mine⟩, ?_⟩
      rintro rfl
      exact other ⟨h, record.symm.trans there, mine, rfl⟩
    · rintro ⟨there, other⟩
      refine ⟨there, ?_⟩
      rintro ⟨_, _, _, here⟩
      exact other here
  · intro id new
    have fresh := rep.groups.fresh id new
    rw [counters]
    by_cases here : id = gid
    · subst here
      cases found with
      | some g => exact absurd (sound.mintedGroup record) new
      | none =>
        refine ⟨?_, by simp⟩
        simpa [recordCascaded, namespacesErased, KeyPrefix.covers] using fresh.1
    · rw [if_neg here, hash id here]
      exact fresh

/-- Dropping the routes of a group one by one and then the group is dropping the group. -/
theorem dropRoutes_dropGroup (rep : Represents s c) (gid : String) :
    (c.dropRoutes (s.setAt (.routeInGroup gid))).dropGroup gid = c.dropGroup gid := by
  obtain ⟨groups, minted⟩ := dropRoutes_groups (c := c) (s.setAt (.routeInGroup gid))
  have routes : ((c.dropRoutes (s.setAt (.routeInGroup gid))).dropGroup gid).routes =
      (c.dropGroup gid).routes := by
    funext rid
    show ((c.dropRoutes _).routes rid).filter _ = (c.routes rid).filter _
    rw [dropRoutes_routes]
    by_cases member : rid ∈ s.setAt (.routeInGroup gid)
    · obtain ⟨r, found, home⟩ := (rep.routes.inGroup gid rid).mp member
      rw [if_pos member, found, Option.filter_some, if_neg (by simp [home])]
      rfl
    · rw [if_neg member]
  simp only [Catalog.dropGroup] at routes ⊢
  rw [routes, groups, minted]

theorem represents_groupCascaded (rep : Represents s c) (sound : c.Sound) {gid : String}
    {found : Option Group} (record : c.groups gid = found) :
    Represents (groupCascaded gid found s) (c.dropGroup gid) := by
  have members : ∀ rid ∈ s.setAt (.routeInGroup gid),
      ∃ r, c.routes rid = some r ∧ r.id = rid ∧ r.groupId = gid := by
    intro rid member
    obtain ⟨r, here, home⟩ := (rep.routes.inGroup gid rid).mp member
    exact ⟨r, here, sound.routeId here, home⟩
  have routes := represents_routesCascaded rep (s.setAt_nodup (.routeInGroup gid)) members
  have soundRoutes := sound_dropRoutes sound (s.setAt (.routeInGroup gid))
  have empty : ∀ rid r, (c.dropRoutes (s.setAt (.routeInGroup gid))).routes rid = some r →
      r.groupId ≠ gid := by
    intro rid r there home
    rw [dropRoutes_routes] at there
    by_cases member : rid ∈ s.setAt (.routeInGroup gid)
    · simp [member] at there
    · rw [if_neg member] at there
      exact member ((rep.routes.inGroup gid rid).mpr ⟨r, there, home⟩)
  have here : (c.dropRoutes (s.setAt (.routeInGroup gid))).groups gid = found := by
    rw [(dropRoutes_groups (s.setAt (.routeInGroup gid))).1]
    exact record
  have final := represents_recordCascaded routes soundRoutes here empty
  rw [dropRoutes_dropGroup rep] at final
  exact final

theorem cascadeDeleteGroup_step (hold : Consistent s c) (gid : String) :
    (∃ e, run (cascadeDeleteGroup gid) s = (.error e, s)) ∨
      (run (cascadeDeleteGroup gid) s =
          (.ok (s.setAt (.routeInGroup gid)).length, groupCascaded gid (c.groups gid) s) ∧
        Consistent (groupCascaded gid (c.groups gid) s) (c.dropGroup gid)) := by
  have rep := hold.represents
  have after : Consistent (groupCascaded gid (c.groups gid) s) (c.dropGroup gid) :=
    ⟨represents_groupCascaded rep hold.sound rfl, Catalog.sound_dropGroup hold.sound gid⟩
  have ran := run_cascadeDeleteGroup rep.kinded gid
  cases live : c.groups gid with
  | some g =>
    rw [groupAnswer_of_live rep live] at ran
    exact .inr ⟨ran, live ▸ after⟩
  | none =>
    cases answer : groupAnswer s gid with
    | ok g =>
      have record := (rep.groups.record gid g).mp (groupAnswer_ok_iff.mp answer)
      rw [live] at record
      cases record
    | error e =>
      rw [answer] at ran
      cases e with
      | notFound => exact .inr ⟨ran, live ▸ after⟩
      | _ => exact .inl ⟨_, ran⟩

/-- The cascade of a group with a record runs to its end. -/
theorem cascade_of_live (hold : Consistent s c) {gid : String} {g : Group}
    (live : c.groups gid = some g) :
    run (cascadeDeleteGroup gid) s =
      (.ok (s.setAt (.routeInGroup gid)).length, groupCascaded gid (some g) s) := by
  rw [run_cascadeDeleteGroup hold.represents.kinded, groupAnswer_of_live hold.represents live]

end

end WireMirage
