import WireMirage.Registry.Cascading

/-!
What an operation on one group leaves alone: every key of every other group, with its
deadline.
-/
namespace WireMirage
open Storage

/-- A key of a group other than the one named. -/
structure Foreign (c : Catalog) (gid : String) (k : Key) : Prop where
  shared : k.shared = false
  names : k.names gid = false
  route : ∀ rid, k = .route rid → ∃ r, c.routes rid = some r ∧ r.groupId ≠ gid
  name : ∀ name, k = .groupByName name → ∃ id g, c.groups id = some g ∧ g.name = name ∧ id ≠ gid

/-- No other group has the name. -/
def NameOf (c : Catalog) (gid name : String) : Prop :=
  ∀ id g, c.groups id = some g → g.name = name → id = gid

/-- No other group has the route. -/
def RouteOf (c : Catalog) (gid rid : String) : Prop := ∀ r, c.routes rid = some r → r.groupId = gid

/-- All that is stored for a group is as it was, and expires when it would have. -/
def Untouched (s t : Store) (gid : String) : Prop := ∀ k, KeyOf s gid k → t.entry k = s.entry k

section Keys
variable {s t : Store} {c d : Catalog} {gid : String} {k : Key}

theorem nameOf_live (sound : c.Sound) {g : Group} (live : c.groups gid = some g) :
    NameOf c gid g.name :=
  fun _ _ found same => sound.names found live same

theorem nameOf_free (rep : Represents s c) {name : String}
    (free : s.bytesAt (.groupByName name) = none) : NameOf c gid name :=
  fun id g found same => absurd same (name_free rep free id g found)

theorem routeOf_live {r : Route} (live : c.routes r.id = some r) : RouteOf c r.groupId r.id := by
  intro q found
  rw [live, Option.some.injEq] at found
  rw [found]

theorem routeOf_new (sound : c.Sound) {rid : String} (new : rid ∉ c.minted) :
    RouteOf c gid rid := by
  intro r found
  rw [sound.absent_route new] at found
  cases found

theorem foreign_of_keyOf (hold : Consistent s c) {id : String} (other : id ≠ gid)
    (key : KeyOf s id k) : Foreign c gid k := by
  cases key with
  | names mine =>
    cases k <;> simp [Key.names] at mine <;> subst mine <;>
      exact ⟨rfl, by simp [Key.names, other], by simp, by simp⟩
  | route listed =>
    obtain ⟨r, found, home⟩ := (hold.represents.routes.inGroup id _).mp listed
    refine ⟨rfl, rfl, ?_, by simp⟩
    intro rid same
    cases same
    exact ⟨r, found, home ▸ other⟩
  | name leads =>
    obtain ⟨x, g, found, same, here⟩ := (hold.represents.groups.byName _ _).mp leads
    cases here
    refine ⟨rfl, rfl, by simp, ?_⟩
    intro name is
    cases is
    exact ⟨id, g, found, same, other⟩

/-- What changes no foreign key leaves the other groups untouched. -/
theorem untouched_of_foreign (hold : Consistent s c) {id : String} (other : id ≠ gid)
    (same : ∀ k, Foreign c gid k → t.entry k = s.entry k) : Untouched s t id :=
  fun k key => same k (foreign_of_keyOf hold other key)

/-- An untouched group is still there, and its keys are the same. -/
theorem untouched_live (hold : Consistent s c) (after : Consistent t d)
    (kept : Untouched s t gid) (g : Group) : d.groups gid = some g ↔ c.groups gid = some g := by
  have same := hashAt_of_entry (kept (.group gid) (.names (by simp [Key.names])))
  rw [← hold.represents.groups.record, ← after.represents.groups.record, GroupAt, GroupAt, same]

theorem untouched_keys (hold : Consistent s c) (after : Consistent t d)
    (kept : Untouched s t gid) (k : Key) :
    KeyOf t gid k ↔ KeyOf s gid k := by
  have inGroup : t.setAt (.routeInGroup gid) = s.setAt (.routeInGroup gid) :=
    setAt_of_entry (kept _ (.names (by simp [Key.names])))
  have names : ∀ name, t.bytesAt (.groupByName name) = some (.text gid) ↔
      s.bytesAt (.groupByName name) = some (.text gid) := by
    intro name
    rw [hold.represents.groups.byName, after.represents.groups.byName]
    constructor
    · rintro ⟨id, h, found, same, here⟩
      cases here
      exact ⟨gid, h, (untouched_live hold after kept h).mp found, same, rfl⟩
    · rintro ⟨id, h, found, same, here⟩
      cases here
      exact ⟨gid, h, (untouched_live hold after kept h).mpr found, same, rfl⟩
  constructor
  · rintro (mine | listed | leads)
    · exact .names mine
    · exact .route (inGroup ▸ listed)
    · exact .name ((names _).mp leads)
  · rintro (mine | listed | leads)
    · exact .names mine
    · exact .route (inGroup.symm ▸ listed)
    · exact .name ((names _).mpr leads)

end Keys

/-! No operation on a group changes a foreign key -/

section Operations
variable {s : Store} {c : Catalog} {gid : String} {k : Key} (foreign : Foreign c gid k)
include foreign

namespace Foreign

theorem ne_shared {k' : Key} (shared : k'.shared = true) : k ≠ k' := by
  rintro rfl
  rw [foreign.shared] at shared
  cases shared

theorem ne_names {k' : Key} (mine : k'.names gid = true) : k ≠ k' := by
  rintro rfl
  rw [foreign.names] at mine
  cases mine

theorem ne_route {rid : String} (mine : RouteOf c gid rid) : k ≠ .route rid := by
  intro here
  obtain ⟨r, found, other⟩ := foreign.route rid here
  exact other (mine r found)

theorem ne_name {name : String} (mine : NameOf c gid name) : k ≠ .groupByName name := by
  intro here
  obtain ⟨id, g, found, same, other⟩ := foreign.name name here
  exact other (mine id g found same)

theorem ne_group : k ≠ .group gid := foreign.ne_names (by simp [Key.names])

end Foreign

theorem entry_groupArmed {name : String} (mine : NameOf c gid name) (ttl : Nat) :
    (groupArmed s gid name ttl).entry k = s.entry k := by
  unfold groupArmed ttlArmed
  rw [entry_arm_ne _ (foreign.ne_name mine), entry_arm_ne _ foreign.ne_group]

theorem entry_groupCreated {g : Group} (id : g.id = gid) (mine : NameOf c gid g.name) :
    (groupCreated s g).entry k = s.entry k := by
  subst id
  unfold groupCreated groupWritten
  rw [entry_groupArmed foreign mine, addMember, entry_write_ne _ (foreign.ne_shared rfl), addMember,
    entry_write_ne _ (foreign.ne_shared rfl), put, entry_replace_ne _ (foreign.ne_name mine),
    putHash, entry_write_ne _ foreign.ne_group]

omit foreign in
theorem entry_fieldPatched {A : Type} {k' : Key} (other : k ≠ k') (field : String)
    (encode : A → Val) (o : Option A) :
    (fieldPatched k' field encode s o).entry k = s.entry k := by
  cases o with
  | none => rfl
  | some a => exact entry_write_ne _ other _

theorem entry_groupPatched {g : Group} (mine : NameOf c gid g.name) (ttl : Option Nat)
    (sliding callout : Option Bool) :
    (groupPatched s gid g ttl sliding callout).entry k = s.entry k := by
  unfold groupPatched
  rw [entry_fieldPatched foreign.ne_group, entry_fieldPatched foreign.ne_group]
  cases ttl with
  | none => rfl
  | some n =>
    show (groupArmed _ gid g.name n).entry k = _
    rw [entry_groupArmed foreign mine, putHash, entry_write_ne _ foreign.ne_group]

theorem entry_routeStored {r : Route} (home : r.groupId = gid) (mine : RouteOf c gid r.id) :
    (routeStored s r).entry k = s.entry k := by
  subst home
  unfold routeStored
  rw [addMember, entry_write_ne _ (foreign.ne_shared rfl), addMember,
    entry_write_ne _ (foreign.ne_shared rfl), addMember,
    entry_write_ne _ (foreign.ne_names (by simp [Key.names])), put,
    entry_replace_ne _ (foreign.ne_names (by simp [Key.names])), putHash,
    entry_write_ne _ (foreign.ne_route mine)]

theorem entry_routeCounted (n : Int) : (routeCounted s gid n).entry k = s.entry k :=
  entry_write_ne _ (foreign.ne_names (by simp [Key.names])) _

theorem entry_routePatched {rid : String} (mine : RouteOf c gid rid) (patch : PatchRoute)
    (path : String) : (routePatched s rid patch path).entry k = s.entry k := by
  have other := foreign.ne_route mine
  have source : ∀ (t : Store) (o : Option (Option String)),
      (sourcePatched (.route rid) t o).entry k = t.entry k := by
    rintro t (_ | _ | src)
    · rfl
    · exact entry_dropField_ne _ other _
    · exact entry_write_ne _ other _
  unfold routePatched
  simp only [source, entry_fieldPatched other]

theorem entry_without {p : KeyPrefix} (mine : ∀ k, p.covers k = true → k.names gid = true) :
    (s.without p.covers).entry k = s.entry k := by
  have away : k ∉ s.entries.keys.filter p.covers := by
    intro member
    have covered := (List.mem_filter.mp member).2
    exact foreign.ne_names (mine k covered) rfl
  unfold Storage.without
  generalize s.entries.keys.filter p.covers = keys at away
  induction keys generalizing s with
  | nil => rfl
  | cons k' rest ih =>
    rw [List.mem_cons, not_or] at away
    rw [eraseAll_cons, ih away.2, entry_erase_ne _ away.1]

omit foreign in
theorem entry_dropFields {k' : Key} (other : k ≠ k') (fields : List String) :
    (s.dropFields k' fields).entry k = s.entry k := by
  unfold Storage.dropFields
  induction fields generalizing s with
  | nil => rfl
  | cons f rest ih => rw [List.foldl_cons, ih, entry_dropField_ne _ other]

theorem entry_indexesStripped {r : Route} (home : r.groupId = gid) :
    (indexesStripped s r).entry k = s.entry k := by
  subst home
  unfold indexesStripped
  rw [entry_dropMember_ne _ (foreign.ne_shared rfl), entry_dropMember_ne _ (foreign.ne_shared rfl),
    entry_dropMember_ne _ (foreign.ne_names (by simp [Key.names])),
    entry_erase_ne _ (foreign.ne_names (by simp [Key.names]))]

theorem entry_routeDeleted {r : Route} (home : r.groupId = gid) (mine : RouteOf c gid r.id) :
    (routeDeleted s r.id r).entry k = s.entry k := by
  unfold routeDeleted
  rw [entry_dropFields (foreign.ne_route mine), entry_without foreign,
    entry_indexesStripped foreign home]
  subst home
  intro k' covered
  cases k' <;> simp_all [KeyPrefix.covers, Key.names]

theorem entry_nameMoved {g : Group} (mine : NameOf c gid g.name) {newName : String}
    (free : NameOf c gid newName) : (nameMoved s gid g newName).entry k = s.entry k := by
  unfold nameMoved ttlArmed
  rw [entry_arm_ne _ (foreign.ne_name free), put, entry_replace_ne _ (foreign.ne_name free),
    entry_erase_ne _ (foreign.ne_name mine), putHash, entry_write_ne _ foreign.ne_group]

theorem entry_groupRenamed {g : Group} (mine : NameOf c gid g.name) {newName : String}
    (free : NameOf c gid newName) {routes : List Route}
    (all : ∀ r ∈ routes, RouteOf c gid r.id) :
    (groupRenamed s gid g newName routes).entry k = s.entry k := by
  have moved := entry_nameMoved foreign mine free (s := s)
  unfold groupRenamed
  generalize nameMoved s gid g newName = t at moved
  induction routes generalizing t with
  | nil => exact moved
  | cons r rest ih =>
    rw [List.foldl_cons]
    apply ih (fun q member => all q (List.mem_cons_of_mem r member))
    exact (entry_write_ne _ (foreign.ne_route (all r List.mem_cons_self)) _).trans moved

theorem entry_stateCleared : (stateCleared s gid).entry k = s.entry k := by
  unfold stateCleared
  rw [entry_without foreign, entry_without foreign] <;>
    · intro k' covered
      cases k' <;> simp_all [KeyPrefix.covers, Key.names]

theorem entry_journalCleared : (journalCleared s gid).entry k = s.entry k := by
  unfold journalCleared
  rw [entry_erase_ne _ (foreign.ne_names (by simp [Key.names])), entry_without foreign,
    entry_without foreign] <;>
    · intro k' covered
      cases k' <;> simp_all [KeyPrefix.covers, Key.names]

theorem entry_statePut {key : String → Key} (mine : ∀ x, (key x).names gid = true)
    (state : List (String × Bytes)) : (statePut key s state).entry k = s.entry k := by
  unfold statePut
  induction state generalizing s with
  | nil => rfl
  | cons e rest ih => rw [List.foldl_cons, ih, put, entry_replace_ne _ (foreign.ne_names (mine _))]

/-- Each route of the group goes, in a catalog that has lost the ones before it. -/
theorem entry_routesCascaded {u : Store} {d : Catalog} (rep : Represents u d) {ids : List String}
    (distinct : ids.Nodup)
    (live : ∀ rid ∈ ids, ∃ r, d.routes rid = some r ∧ r.id = rid ∧ r.groupId = gid)
    (mine : ∀ rid ∈ ids, RouteOf c gid rid) :
    (ids.foldl (fun t rid => routeCascaded gid rid t) u).entry k = u.entry k := by
  induction ids generalizing u d with
  | nil => rfl
  | cons rid rest ih =>
    have apart := List.nodup_cons.mp distinct
    obtain ⟨r, found, rfl, home⟩ := live rid List.mem_cons_self
    subst home
    have step := represents_removed rep found (removed_routeCascaded rep found)
    rw [List.foldl_cons, ih step apart.2 ?_
      (fun id member => mine id (List.mem_cons_of_mem _ member))]
    · simp only [routeCascaded, strippedIfRead, routeAnswer_of_live rep found]
      rw [entry_dropMember_ne _ (foreign.ne_shared rfl),
        entry_dropFields (foreign.ne_route (mine r.id List.mem_cons_self)),
        entry_without foreign, entry_indexesStripped foreign rfl]
      intro k' covered
      cases k' <;> simp_all [KeyPrefix.covers, Key.names]
    · intro id inRest
      obtain ⟨q, there, same, home⟩ := live id (List.mem_cons_of_mem r.id inRest)
      have differ : id ≠ r.id := fun h => apart.1 (h ▸ inRest)
      exact ⟨q, by simpa [Catalog.dropRoute, differ] using there, same, home⟩

theorem entry_groupCascaded (hold : Consistent s c) :
    (groupCascaded gid (c.groups gid) s).entry k = s.entry k := by
  have live := listed_live hold gid
  have mine : ∀ rid ∈ s.setAt (.routeInGroup gid), RouteOf c gid rid := by
    intro rid member r found
    obtain ⟨q, there, _, home⟩ := live rid member
    rw [there, Option.some.injEq] at found
    exact found ▸ home
  have namespaces : ∀ u : Store, (namespacesErased gid u).entry k = u.entry k := by
    intro u
    unfold namespacesErased
    rw [entry_erase_ne _ (foreign.ne_names (by simp [Key.names])), entry_without foreign,
      entry_without foreign, entry_without foreign,
      entry_erase_ne _ (foreign.ne_names (by simp [Key.names]))] <;>
      · intro k' covered
        cases k' <;> simp_all [KeyPrefix.covers, Key.names]
  unfold groupCascaded
  rw [entry_dropMember_ne _ (foreign.ne_shared rfl)]
  cases found : c.groups gid with
  | none =>
    show (namespacesErased gid _).entry k = _
    rw [namespaces, entry_routesCascaded foreign hold.represents (s.setAt_nodup _) live mine]
  | some g =>
    unfold recordCascaded
    rw [entry_dropFields foreign.ne_group, entry_dropMember_ne _ (foreign.ne_shared rfl),
      entry_erase_ne _ (foreign.ne_name (nameOf_live hold.sound found)), namespaces,
      entry_routesCascaded foreign hold.represents (s.setAt_nodup _) live mine]

end Operations

end WireMirage
