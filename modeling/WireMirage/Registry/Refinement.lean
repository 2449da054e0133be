import WireMirage.Registry.Catalog
import WireMirage.Registry.Specs

/-!
A store represents a catalog: every record, index and set in it says what the
catalog says. What deletions leave behind in a hash never reads as a record.
-/
namespace WireMirage
open Prog

/-- The keys of the routes and of their indexes. -/
def Key.ofRoute : Key → Bool
  | .route _ => true
  | .routeAll => true
  | .routeInGroup _ => true
  | .routeByOwner _ => true
  | .routeByNumber _ _ => true
  | _ => false

/-- The keys of the groups, of their indexes and of their counters. -/
def Key.ofGroup : Key → Bool
  | .group _ => true
  | .groupByName _ => true
  | .groupOwner _ => true
  | .groupAll => true
  | .groupCounters _ => true
  | _ => false

def SameAt (s t : Store) (k : Key) : Prop :=
  t.bytesAt k = s.bytesAt k ∧ t.hashAt k = s.hashAt k ∧ t.setAt k = s.setAt k

structure RouteSide (s : Store) (c : Catalog) : Prop where
  record : ∀ rid r, RouteAt s rid r ↔ c.routes rid = some r
  rest : ∀ rid, c.routes rid = none → (s.hashAt (.route rid)).lookup "id" = none
  all : ∀ rid, rid ∈ s.setAt .routeAll ↔ ∃ r, c.routes rid = some r
  inGroup : ∀ gid rid, rid ∈ s.setAt (.routeInGroup gid) ↔
    ∃ r, c.routes rid = some r ∧ r.groupId = gid
  byOwner : ∀ owner rid, rid ∈ s.setAt (.routeByOwner owner) ↔
    ∃ r, c.routes rid = some r ∧ r.ownerId = owner
  byNumber : ∀ gid n v, s.bytesAt (.routeByNumber gid n) = some v →
    ∃ rid r, v = .text rid ∧ c.routes rid = some r ∧ r.groupId = gid ∧ r.number = n
  fresh : ∀ rid, rid ∉ c.minted → s.hashAt (.route rid) = ∅

structure GroupSide (s : Store) (c : Catalog) : Prop where
  record : ∀ gid g, GroupAt s gid g ↔ c.groups gid = some g
  rest : ∀ gid, c.groups gid = none → (s.hashAt (.group gid)).lookup "id" = none
  byName : ∀ name v, s.bytesAt (.groupByName name) = some v ↔
    ∃ gid g, c.groups gid = some g ∧ g.name = name ∧ v = .text gid
  all : ∀ gid, gid ∈ s.setAt .groupAll ↔ ∃ g, c.groups gid = some g
  owner : ∀ owner gid, gid ∈ s.setAt (.groupOwner owner) ↔
    ∃ g, c.groups gid = some g ∧ g.ownerId = owner
  fresh : ∀ gid, gid ∉ c.minted →
    s.hashAt (.group gid) = ∅ ∧ s.hashAt (.groupCounters gid) = ∅

structure Represents (s : Store) (c : Catalog) : Prop where
  kinded : s.WellKinded
  routes : RouteSide s c
  groups : GroupSide s c

theorem vacant_group {h : Fields Val} (vacant : h.lookup "id" = none) (g : Group) :
    ¬ GroupFields h g := by
  intro fields
  simp [fields.id] at vacant

theorem vacant_route {h : Fields Val} (vacant : h.lookup "id" = none) (r : Route) :
    ¬ RouteFields h r := by
  intro fields
  simp [fields.id] at vacant

theorem represents_empty (b : Backend) : Represents (Storage.empty b) Catalog.empty where
  kinded := Storage.wellKinded_empty b
  routes := by
    constructor <;> simp [Catalog.empty, RouteAt]
    exact vacant_route (by simp)
  groups := by
    constructor <;> simp [Catalog.empty, GroupAt]
    exact vacant_group (by simp)

theorem group_fields_iff {h : Fields Val} {g x : Group} (fields : GroupFields h g) :
    GroupFields h x ↔ x = g :=
  ⟨fun other => group_fields_unique other fields, fun same => same ▸ fields⟩

theorem route_fields_iff {h : Fields Val} {r x : Route} (fields : RouteFields h r) :
    RouteFields h x ↔ x = r :=
  ⟨fun other => route_fields_unique other fields, fun same => same ▸ fields⟩

/-- What is said of the routes survives any change to other keys. -/
theorem routeSide_congr {s t : Store} {c d : Catalog} (side : RouteSide s c)
    (same : ∀ k, k.ofRoute = true → SameAt s t k) (routes : d.routes = c.routes)
    (minted : ∀ id ∈ c.minted, id ∈ d.minted) : RouteSide t d where
  record := by
    intro rid r
    unfold RouteAt
    rw [routes, (same (.route rid) rfl).2.1]
    exact side.record rid r
  rest := by
    intro rid absent
    rw [(same (.route rid) rfl).2.1]
    exact side.rest rid (routes ▸ absent)
  all := by
    intro rid
    rw [routes, (same .routeAll rfl).2.2]
    exact side.all rid
  inGroup := by
    intro gid rid
    rw [routes, (same (.routeInGroup gid) rfl).2.2]
    exact side.inGroup gid rid
  byOwner := by
    intro owner rid
    rw [routes, (same (.routeByOwner owner) rfl).2.2]
    exact side.byOwner owner rid
  byNumber := by
    intro gid n v found
    rw [(same (.routeByNumber gid n) rfl).1] at found
    rw [routes]
    exact side.byNumber gid n v found
  fresh := by
    intro rid new
    rw [(same (.route rid) rfl).2.1]
    exact side.fresh rid (fun old => new (minted rid old))

theorem groupSide_congr {s t : Store} {c d : Catalog} (side : GroupSide s c)
    (same : ∀ k, k.ofGroup = true → SameAt s t k) (groups : d.groups = c.groups)
    (minted : ∀ id ∈ c.minted, id ∈ d.minted) : GroupSide t d where
  record := by
    intro gid g
    unfold GroupAt
    rw [groups, (same (.group gid) rfl).2.1]
    exact side.record gid g
  rest := by
    intro gid absent
    rw [(same (.group gid) rfl).2.1]
    exact side.rest gid (groups ▸ absent)
  byName := by
    intro name v
    rw [groups, (same (.groupByName name) rfl).1]
    exact side.byName name v
  all := by
    intro gid
    rw [groups, (same .groupAll rfl).2.2]
    exact side.all gid
  owner := by
    intro owner gid
    rw [groups, (same (.groupOwner owner) rfl).2.2]
    exact side.owner owner gid
  fresh := by
    intro gid new
    rw [(same (.group gid) rfl).2.1, (same (.groupCounters gid) rfl).2.1]
    exact side.fresh gid (fun old => new (minted gid old))

section
variable {s : Store} {c : Catalog} (rep : Represents s c) (sound : c.Sound)
include rep

theorem represents_mint (id : String) : Represents s (c.mint id) where
  kinded := rep.kinded
  routes := routeSide_congr rep.routes (fun _ _ => ⟨rfl, rfl, rfl⟩) rfl
    (fun _ old => List.mem_cons_of_mem id old)
  groups := groupSide_congr rep.groups (fun _ _ => ⟨rfl, rfl, rfl⟩) rfl
    (fun _ old => List.mem_cons_of_mem id old)

/-- A free name belongs to no group. -/
theorem name_free {name : String} (free : s.bytesAt (.groupByName name) = none) (gid : String)
    (g : Group) (record : c.groups gid = some g) : g.name ≠ name := by
  intro same
  have := (rep.groups.byName name (.text gid)).mpr ⟨gid, g, record, same, rfl⟩
  simp [free] at this

include sound

theorem represents_groupCreated {g : Group} {owner : String} (new : g.id ∉ c.minted)
    (fresh : FreshGroup s g.id owner g) :
    Represents (groupCreated s g) ((c.mint g.id).setGroup g) := by
  have vacant := (rep.groups.fresh g.id new).1
  have absent := sound.absent_group new
  have fields : GroupFields (encodeGroup g (s.hashAt (.group g.id))) g :=
    encode_group_fields g _ fresh.ttl (by simp [vacant, fresh.idle])
  have groups : ∀ gid, ((c.mint g.id).setGroup g).groups gid =
      if gid = g.id then some g else c.groups gid := fun _ => rfl
  have hash : ∀ gid, (groupCreated s g).hashAt (.group gid) =
      if gid = g.id then encodeGroup g (s.hashAt (.group g.id)) else s.hashAt (.group gid) := by
    intro gid
    simp [groupCreated, groupArmed, ttlArmed, groupWritten]
  have index : ∀ name, (groupCreated s g).bytesAt (.groupByName name) =
      if name = g.name then some (.text g.id) else s.bytesAt (.groupByName name) := by
    intro name
    simp [groupCreated, groupArmed, ttlArmed, groupWritten]
  have all : (groupCreated s g).setAt .groupAll = (s.setAt .groupAll).insert g.id := by
    simp [groupCreated, groupArmed, ttlArmed, groupWritten]
  have owners : ∀ o, (groupCreated s g).setAt (.groupOwner o) =
      if o = g.ownerId then (s.setAt (.groupOwner o)).insert g.id
      else s.setAt (.groupOwner o) := by
    intro o
    by_cases same : o = g.ownerId <;>
      simp [groupCreated, groupArmed, ttlArmed, groupWritten, same]
  refine ⟨(leads_storeGroup g rep.kinded).2, ?_, ?_⟩
  · apply routeSide_congr rep.routes
    · intro k mine
      cases k <;> simp only [Key.ofRoute, Bool.false_eq_true] at mine <;>
        simp [SameAt, groupCreated, groupArmed, ttlArmed, groupWritten]
    · rfl
    · exact fun _ old => List.mem_cons_of_mem g.id old
  · constructor
    · intro gid x
      unfold GroupAt
      rw [hash, groups]
      by_cases here : gid = g.id
      · rw [if_pos here, if_pos here, group_fields_iff fields, Option.some.injEq, eq_comm]
      · rw [if_neg here, if_neg here]
        exact rep.groups.record gid x
    · intro gid none
      rw [groups] at none
      rw [hash]
      by_cases here : gid = g.id
      · simp [here] at none
      · rw [if_neg here] at none ⊢
        exact rep.groups.rest gid none
    · intro name v
      rw [index]
      by_cases mine : name = g.name
      · rw [if_pos mine, Option.some.injEq]
        constructor
        · intro same
          exact ⟨g.id, g, by rw [groups, if_pos rfl], mine.symm, same.symm⟩
        · rintro ⟨gid, h, record, named, rfl⟩
          rw [groups] at record
          by_cases here : gid = g.id
          · rw [here]
          · rw [if_neg here] at record
            exact absurd (named.trans mine) (name_free rep fresh.free gid h record)
      · rw [if_neg mine, rep.groups.byName]
        constructor
        · rintro ⟨gid, h, record, named, same⟩
          refine ⟨gid, h, ?_, named, same⟩
          rw [groups, if_neg (by rintro rfl; simp [absent] at record)]
          exact record
        · rintro ⟨gid, h, record, named, same⟩
          rw [groups] at record
          by_cases here : gid = g.id
          · rw [if_pos here] at record
            cases record
            exact absurd named.symm mine
          · rw [if_neg here] at record
            exact ⟨gid, h, record, named, same⟩
    · intro gid
      rw [all, List.mem_insert_iff, rep.groups.all, groups]
      by_cases here : gid = g.id <;> simp [here]
    · intro o gid
      rw [owners, groups]
      by_cases here : gid = g.id
      · subst here
        by_cases same : o = g.ownerId
        · simp [same]
        · rw [if_neg same, if_pos rfl, rep.groups.owner, absent]
          simp [Ne.symm same]
      · rw [if_neg here, ← rep.groups.owner]
        by_cases same : o = g.ownerId <;> simp [same, here]
    · intro gid other
      have old : gid ∉ c.minted := fun held => other (List.mem_cons_of_mem g.id held)
      have here : gid ≠ g.id := by
        rintro rfl
        exact other List.mem_cons_self
      have counters : (groupCreated s g).hashAt (.groupCounters gid) =
          s.hashAt (.groupCounters gid) := by
        simp [groupCreated, groupArmed, ttlArmed, groupWritten]
      rw [hash, if_neg here, counters]
      exact rep.groups.fresh gid old

theorem represents_routeStored {r : Route} {gid : String} (new : r.id ∉ c.minted)
    (home : gid ∈ c.minted) (bound : r.number < u32Size) (unhit : r.hitsTotal = 0)
    (never : r.lastHitAt = none) (n : Int) :
    Represents (routeStored (routeCounted s gid n) r) ((c.mint r.id).setRoute r) := by
  have vacant := rep.routes.fresh r.id new
  have absent := sound.absent_route new
  have fields : RouteFields (encodeRoute r (s.hashAt (.route r.id))) r :=
    encode_route_fields r _ bound (.inl ⟨by simp [vacant], unhit⟩) (by simp [vacant, never])
  have routes : ∀ rid, ((c.mint r.id).setRoute r).routes rid =
      if rid = r.id then some r else c.routes rid := fun _ => rfl
  have hash : ∀ rid, (routeStored (routeCounted s gid n) r).hashAt (.route rid) =
      if rid = r.id then encodeRoute r (s.hashAt (.route r.id)) else s.hashAt (.route rid) := by
    intro rid
    simp [routeStored, routeCounted]
  have counted : (routeCounted s gid n).WellKinded :=
    Storage.wellKinded_putHash rep.kinded (by simp) _
  refine ⟨(leads_storeRoute r counted).2, ?_, ?_⟩
  · constructor
    · intro rid x
      unfold RouteAt
      rw [hash, routes]
      by_cases here : rid = r.id
      · rw [if_pos here, if_pos here, route_fields_iff fields, Option.some.injEq, eq_comm]
      · rw [if_neg here, if_neg here]
        exact rep.routes.record rid x
    · intro rid none
      rw [routes] at none
      rw [hash]
      by_cases here : rid = r.id
      · simp [here] at none
      · rw [if_neg here] at none ⊢
        exact rep.routes.rest rid none
    · intro rid
      have all : (routeStored (routeCounted s gid n) r).setAt .routeAll =
          (s.setAt .routeAll).insert r.id := by
        simp [routeStored, routeCounted]
      rw [all, List.mem_insert_iff, rep.routes.all, routes]
      by_cases here : rid = r.id <;> simp [here]
    · intro g rid
      have members : (routeStored (routeCounted s gid n) r).setAt (.routeInGroup g) =
          if g = r.groupId then (s.setAt (.routeInGroup g)).insert r.id
          else s.setAt (.routeInGroup g) := by
        by_cases same : g = r.groupId <;> simp [routeStored, routeCounted, same]
      rw [members, routes]
      by_cases here : rid = r.id
      · subst here
        by_cases same : g = r.groupId
        · simp [same]
        · rw [if_neg same, if_pos rfl, rep.routes.inGroup, absent]
          simp [Ne.symm same]
      · rw [if_neg here, ← rep.routes.inGroup]
        by_cases same : g = r.groupId <;> simp [same, here]
    · intro o rid
      have members : (routeStored (routeCounted s gid n) r).setAt (.routeByOwner o) =
          if o = r.ownerId then (s.setAt (.routeByOwner o)).insert r.id
          else s.setAt (.routeByOwner o) := by
        by_cases same : o = r.ownerId <;> simp [routeStored, routeCounted, same]
      rw [members, routes]
      by_cases here : rid = r.id
      · subst here
        by_cases same : o = r.ownerId
        · simp [same]
        · rw [if_neg same, if_pos rfl, rep.routes.byOwner, absent]
          simp [Ne.symm same]
      · rw [if_neg here, ← rep.routes.byOwner]
        by_cases same : o = r.ownerId <;> simp [same, here]
    · intro g m v found
      have index : (routeStored (routeCounted s gid n) r).bytesAt (.routeByNumber g m) =
          if g = r.groupId ∧ m = r.number then some (.text r.id)
          else s.bytesAt (.routeByNumber g m) := by
        simp [routeStored, routeCounted]
      rw [index] at found
      by_cases mine : g = r.groupId ∧ m = r.number
      · rw [if_pos mine, Option.some.injEq] at found
        exact ⟨r.id, r, found.symm, by rw [routes, if_pos rfl], mine.1.symm, mine.2.symm⟩
      · rw [if_neg mine] at found
        obtain ⟨rid, x, same, record, rest⟩ := rep.routes.byNumber g m v found
        refine ⟨rid, x, same, ?_, rest⟩
        rw [routes, if_neg (by rintro rfl; simp [absent] at record)]
        exact record
    · intro rid other
      have here : rid ≠ r.id := by
        rintro rfl
        exact other List.mem_cons_self
      rw [hash, if_neg here]
      exact rep.routes.fresh rid (fun held => other (List.mem_cons_of_mem r.id held))
  · have views : ∀ k, k.ofGroup = true → k ≠ .groupCounters gid →
        SameAt s (routeStored (routeCounted s gid n) r) k := by
      intro k mine other
      cases k <;> simp only [Key.ofGroup, Bool.false_eq_true] at mine <;>
        simp_all [SameAt, routeStored, routeCounted]
    constructor
    · intro g x
      unfold GroupAt
      rw [(views (.group g) rfl (by simp)).2.1]
      exact rep.groups.record g x
    · intro g none
      rw [(views (.group g) rfl (by simp)).2.1]
      exact rep.groups.rest g none
    · intro name v
      rw [(views (.groupByName name) rfl (by simp)).1]
      exact rep.groups.byName name v
    · intro g
      rw [(views .groupAll rfl (by simp)).2.2]
      exact rep.groups.all g
    · intro o g
      rw [(views (.groupOwner o) rfl (by simp)).2.2]
      exact rep.groups.owner o g
    · intro g other
      have old : g ∉ c.minted := fun held => other (List.mem_cons_of_mem r.id held)
      have apart : g ≠ gid := by
        rintro rfl
        exact old home
      rw [(views (.group g) rfl (by simp)).2.1,
        (views (.groupCounters g) rfl (by simpa using apart)).2.1]
      exact rep.groups.fresh g old

end

/-! Records changed in place -/

section
variable {s t : Store} {c : Catalog}

/-- The record of one route changes, but not where the indexes find it. -/
theorem routeSide_setRoute (side : RouteSide s c) {old r : Route}
    (before : c.routes r.id = some old) (home : r.groupId = old.groupId)
    (owner : r.ownerId = old.ownerId) (number : r.number = old.number) (fields : RouteAt t r.id r)
    (same : ∀ k, k.ofRoute = true → k ≠ .route r.id → SameAt s t k) :
    RouteSide t (c.setRoute r) := by
  have routes : ∀ rid, (c.setRoute r).routes rid = if rid = r.id then some r else c.routes rid :=
    fun _ => rfl
  have listed : ∀ (P : Route → Prop) (rid : String), (P r ↔ P old) →
      ((∃ x, (c.setRoute r).routes rid = some x ∧ P x) ↔ ∃ x, c.routes rid = some x ∧ P x) := by
    intro P rid agree
    by_cases here : rid = r.id
    · subst here
      simp [routes, before, agree]
    · simp [routes, here]
  constructor
  · intro rid x
    rw [routes]
    by_cases here : rid = r.id
    · subst here
      rw [if_pos rfl, Option.some.injEq, eq_comm]
      exact route_fields_iff fields
    · rw [if_neg here]
      unfold RouteAt
      rw [(same (.route rid) rfl (by simpa using here)).2.1]
      exact side.record rid x
  · intro rid none
    rw [routes] at none
    by_cases here : rid = r.id
    · simp [here] at none
    · rw [if_neg here] at none
      rw [(same (.route rid) rfl (by simpa using here)).2.1]
      exact side.rest rid none
  · intro rid
    rw [(same .routeAll rfl (by simp)).2.2, side.all]
    simpa using (listed (fun _ => True) rid Iff.rfl).symm
  · intro gid rid
    rw [(same (.routeInGroup gid) rfl (by simp)).2.2, side.inGroup]
    exact (listed (fun x => x.groupId = gid) rid (by rw [home])).symm
  · intro o rid
    rw [(same (.routeByOwner o) rfl (by simp)).2.2, side.byOwner]
    exact (listed (fun x => x.ownerId = o) rid (by rw [owner])).symm
  · intro gid n v found
    rw [(same (.routeByNumber gid n) rfl (by simp)).1] at found
    obtain ⟨rid, x, is, record, at_⟩ := side.byNumber gid n v found
    obtain ⟨y, now, there⟩ := (listed (fun x => x.groupId = gid ∧ x.number = n) rid
      (by rw [home, number])).mpr ⟨x, record, at_⟩
    exact ⟨rid, y, is, now, there⟩
  · intro rid new
    have here : rid ≠ r.id := by
      rintro rfl
      have vacant := side.fresh r.id new
      have full := ((side.record r.id old).mpr before).id
      simp [vacant] at full
    rw [(same (.route rid) rfl (by simpa using here)).2.1]
    exact side.fresh rid new

/-- Fields are written to a hash that is no record, and it becomes none. -/
theorem routeSide_residue (side : RouteSide s c) {rid : String} (minted : rid ∈ c.minted)
    (absent : c.routes rid = none) (vacant : (t.hashAt (.route rid)).lookup "id" = none)
    (same : ∀ k, k.ofRoute = true → k ≠ .route rid → SameAt s t k) : RouteSide t c where
  record := by
    intro id x
    by_cases here : id = rid
    · subst here
      rw [absent]
      exact ⟨fun fields => absurd fields (vacant_route vacant x), fun none => by cases none⟩
    · unfold RouteAt
      rw [(same (.route id) rfl (by simpa using here)).2.1]
      exact side.record id x
  rest := by
    intro id none
    by_cases here : id = rid
    · exact here ▸ vacant
    · rw [(same (.route id) rfl (by simpa using here)).2.1]
      exact side.rest id none
  all := by
    intro id
    rw [(same .routeAll rfl (by simp)).2.2]
    exact side.all id
  inGroup := by
    intro gid id
    rw [(same (.routeInGroup gid) rfl (by simp)).2.2]
    exact side.inGroup gid id
  byOwner := by
    intro o id
    rw [(same (.routeByOwner o) rfl (by simp)).2.2]
    exact side.byOwner o id
  byNumber := by
    intro gid n v found
    rw [(same (.routeByNumber gid n) rfl (by simp)).1] at found
    exact side.byNumber gid n v found
  fresh := by
    intro id new
    have here : id ≠ rid := by
      rintro rfl
      exact new minted
    rw [(same (.route id) rfl (by simpa using here)).2.1]
    exact side.fresh id new

/-- The record of one group changes, but not where the indexes find it. -/
theorem groupSide_setGroup (side : GroupSide s c) {old g : Group}
    (before : c.groups g.id = some old) (name : g.name = old.name)
    (owner : g.ownerId = old.ownerId) (fields : GroupAt t g.id g)
    (same : ∀ k, k.ofGroup = true → k ≠ .group g.id → SameAt s t k) :
    GroupSide t (c.setGroup g) := by
  have groups : ∀ gid, (c.setGroup g).groups gid = if gid = g.id then some g else c.groups gid :=
    fun _ => rfl
  have listed : ∀ (P : Group → Prop) (gid : String), (P g ↔ P old) →
      ((∃ x, (c.setGroup g).groups gid = some x ∧ P x) ↔ ∃ x, c.groups gid = some x ∧ P x) := by
    intro P gid agree
    by_cases here : gid = g.id
    · subst here
      simp [groups, before, agree]
    · simp [groups, here]
  constructor
  · intro gid x
    rw [groups]
    by_cases here : gid = g.id
    · subst here
      rw [if_pos rfl, Option.some.injEq, eq_comm]
      exact group_fields_iff fields
    · rw [if_neg here]
      unfold GroupAt
      rw [(same (.group gid) rfl (by simpa using here)).2.1]
      exact side.record gid x
  · intro gid none
    rw [groups] at none
    by_cases here : gid = g.id
    · simp [here] at none
    · rw [if_neg here] at none
      rw [(same (.group gid) rfl (by simpa using here)).2.1]
      exact side.rest gid none
  · intro x v
    rw [(same (.groupByName x) rfl (by simp)).1, side.byName]
    constructor
    · rintro ⟨gid, h, record, named, is⟩
      obtain ⟨y, now, there⟩ := (listed (fun y => y.name = x) gid (by rw [name])).mpr
        ⟨h, record, named⟩
      exact ⟨gid, y, now, there, is⟩
    · rintro ⟨gid, h, record, named, is⟩
      obtain ⟨y, now, there⟩ := (listed (fun y => y.name = x) gid (by rw [name])).mp
        ⟨h, record, named⟩
      exact ⟨gid, y, now, there, is⟩
  · intro gid
    rw [(same .groupAll rfl (by simp)).2.2, side.all]
    simpa using (listed (fun _ => True) gid Iff.rfl).symm
  · intro o gid
    rw [(same (.groupOwner o) rfl (by simp)).2.2, side.owner]
    exact (listed (fun x => x.ownerId = o) gid (by rw [owner])).symm
  · intro gid new
    have here : gid ≠ g.id := by
      rintro rfl
      have vacant := (side.fresh g.id new).1
      have full := ((side.record g.id old).mpr before).id
      simp [vacant] at full
    rw [(same (.group gid) rfl (by simpa using here)).2.1,
      (same (.groupCounters gid) rfl (by simp)).2.1]
    exact side.fresh gid new

theorem groupSide_residue (side : GroupSide s c) {gid : String} (minted : gid ∈ c.minted)
    (absent : c.groups gid = none) (vacant : (t.hashAt (.group gid)).lookup "id" = none)
    (same : ∀ k, k.ofGroup = true → k ≠ .group gid → SameAt s t k) : GroupSide t c where
  record := by
    intro id x
    by_cases here : id = gid
    · subst here
      rw [absent]
      exact ⟨fun fields => absurd fields (vacant_group vacant x), fun none => by cases none⟩
    · unfold GroupAt
      rw [(same (.group id) rfl (by simpa using here)).2.1]
      exact side.record id x
  rest := by
    intro id none
    by_cases here : id = gid
    · exact here ▸ vacant
    · rw [(same (.group id) rfl (by simpa using here)).2.1]
      exact side.rest id none
  byName := by
    intro name v
    rw [(same (.groupByName name) rfl (by simp)).1]
    exact side.byName name v
  all := by
    intro id
    rw [(same .groupAll rfl (by simp)).2.2]
    exact side.all id
  owner := by
    intro o id
    rw [(same (.groupOwner o) rfl (by simp)).2.2]
    exact side.owner o id
  fresh := by
    intro id new
    have here : id ≠ gid := by
      rintro rfl
      exact new minted
    rw [(same (.group id) rfl (by simpa using here)).2.1,
      (same (.groupCounters id) rfl (by simp)).2.1]
    exact side.fresh id new

end

end WireMirage
