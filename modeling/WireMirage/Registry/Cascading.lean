import WireMirage.Calls

/-!
What the deletion of a group leaves behind. The fields it clears are listed by name,
and the lists lack the callout setting of a group and the source of a route; the
callbacks of the group and the state of routes deleted before it are passed over.
-/
namespace WireMirage
open Prog StepMachine

/-- What is stored under a key, where a collection without elements counts as absent. -/
def content (s : Store) (k : Key) : Option (MemValue Val) :=
  (s.lookup k).filter (fun v => ¬ v.isEmpty)

/-- The sets that list the groups and the routes of every owner. -/
def Key.shared : Key → Bool
  | .groupOwner _ => true
  | .groupAll => true
  | .routeAll => true
  | .routeByOwner _ => true
  | _ => false

/-- The keys with the id of a group in them. -/
def Key.names (gid : String) : Key → Bool
  | .group id => id = gid
  | .groupCounters id => id = gid
  | .routeInGroup id => id = gid
  | .routeByNumber id _ => id = gid
  | .kv id _ _ => id = gid
  | .gkv id _ => id = gid
  | .journal id _ => id = gid
  | .journalByNumber id _ => id = gid
  | .callback id _ => id = gid
  | .callbackByNumber id _ => id = gid
  | _ => false

/-- The keys of a group: those with its id, the records of its routes and its name. -/
inductive KeyOf (s : Store) (gid : String) : Key → Prop where
  | names {k : Key} (mine : k.names gid = true) : KeyOf s gid k
  | route {rid : String} (listed : rid ∈ s.setAt (.routeInGroup gid)) : KeyOf s gid (.route rid)
  | name {name : String} (leads : s.bytesAt (.groupByName name) = some (.text gid)) :
      KeyOf s gid (.groupByName name)

/-- Nothing of a group is left: none of its keys, and no mention of it or of its routes. -/
structure CascadeComplete (s t : Store) (gid : String) : Prop where
  keys : ∀ k, KeyOf s gid k → content t k = none
  groups : gid ∉ t.setAt .groupAll ∧ ∀ owner, gid ∉ t.setAt (.groupOwner owner)
  routes : ∀ rid ∈ s.setAt (.routeInGroup gid),
    rid ∉ t.setAt .routeAll ∧ ∀ owner, rid ∉ t.setAt (.routeByOwner owner)

/-- Everything that is not of the group is as it was. -/
structure OthersKept (s t : Store) (gid : String) : Prop where
  keys : ∀ k, ¬ KeyOf s gid k → k.shared = false → content t k = content s k
  groups : ∀ id, id ≠ gid → (id ∈ t.setAt .groupAll ↔ id ∈ s.setAt .groupAll) ∧
    ∀ owner, id ∈ t.setAt (.groupOwner owner) ↔ id ∈ s.setAt (.groupOwner owner)
  routes : ∀ rid, rid ∉ s.setAt (.routeInGroup gid) →
    (rid ∈ t.setAt .routeAll ↔ rid ∈ s.setAt .routeAll) ∧
      ∀ owner, rid ∈ t.setAt (.routeByOwner owner) ↔ rid ∈ s.setAt (.routeByOwner owner)

/-- A cascade that succeeds takes the whole group and nothing else, and a second one
    succeeds and finds nothing. -/
def CascadeClean (s : Store) (gid : String) : Prop :=
  ∀ n t, run (cascadeDeleteGroup gid) s = (.ok n, t) →
    CascadeComplete s t gid ∧ OthersKept s t gid ∧
      ∃ m u, run (cascadeDeleteGroup gid) t = (.ok m, u) ∧ ∀ k, content u k = content t k

/-- Every field that a hash has is on a list. -/
def Listed (h : Fields Val) (fields : List String) : Prop :=
  ∀ f, h.lookup f ≠ none → f ∈ fields

/-- The keys of a group that its deletion passes over. -/
def passedOver (s : Store) (gid : String) : Key → Prop
  | .callback id _ => id = gid
  | .callbackByNumber id _ => id = gid
  | .kv id rid _ => id = gid ∧ rid ∉ s.setAt (.routeInGroup gid)
  | _ => False

/-- The deletion reaches all there is of a group: its records have no field beyond the
    lists, and no key that is passed over is stored. -/
def Reaches (s : Store) (gid : String) : Prop :=
  Listed (s.hashAt (.group gid)) cascadedGroupFields ∧
    (∀ rid ∈ s.setAt (.routeInGroup gid), Listed (s.hashAt (.route rid)) cascadedRouteFields) ∧
    ∀ k, passedOver s gid k → content s k = none

/-- What is left of the record cannot be read, or the deletion reaches all there is. -/
def CascadeReaches (s : Store) (gid : String) : Prop :=
  (s.hashAt (.group gid) ≠ ∅ ∧ (s.hashAt (.group gid)).lookup "id" = none) ∨ Reaches s gid

section Content
variable {s : Store} {k : Key}

theorem content_hash (wk : s.WellKinded) (family : k.family = some .hash) :
    content s k = none ↔ s.hashAt k = ∅ := by
  unfold content Storage.hashAt
  cases found : s.lookup k with
  | none => simp [Storage.asHash]
  | some v =>
    have fits := wk k v .hash found (by simpa using family)
    cases v with
    | hash h =>
      simp only [Storage.asHash, MemValue.isEmpty, Option.filter_some]
      constructor
      · intro vacant
        apply Storage.hash_eq_empty_of_isEmpty
        by_contra full
        simp [full] at vacant
      · rintro rfl
        rfl
    | _ => simp [MemValue.kind] at fits

theorem content_bytes (wk : s.WellKinded) (family : k.family = some .bytes) :
    content s k = none ↔ s.bytesAt k = none := by
  unfold content Storage.bytesAt
  cases found : s.lookup k with
  | none => simp [Storage.asBytes]
  | some v =>
    have fits := wk k v .bytes found (by simpa using family)
    cases v with
    | bytes b => simp [Storage.asBytes, MemValue.isEmpty]
    | _ => simp [MemValue.kind] at fits

theorem content_of_lookup {t : Store} (same : t.lookup k = s.lookup k) :
    content t k = content s k := by
  unfold content
  rw [same]

theorem content_none (gone : s.lookup k = none) : content s k = none := by
  unfold content
  rw [gone]
  rfl

/-- Taking away a member that a set does not have changes nothing in it. -/
theorem content_dropMember (wk : s.WellKinded) (family : k.family = some .set) {x : String}
    (absent : x ∉ s.setAt k) (k' : Key) : content (s.dropMember k x) k' = content s k' := by
  by_cases other : k' ≠ k
  · exact content_of_lookup (Storage.lookup_dropMember_ne s x other)
  · rw [not_not] at other
    subst other
    unfold Storage.dropMember
    cases found : s.lookup k' with
    | none => simp
    | some v =>
      have fits := wk k' v .set found (by simpa using family)
      cases v with
      | set ms =>
        have members : s.membersAt k' = ms := by simp [Storage.membersAt, found, Storage.asSet]
        have same : ms.erase x = ms := by
          have absent : x ∉ ms.toList := by
            rw [← members]
            exact absent
          obtain ⟨l, nodup⟩ := ms
          simp only [Members.erase, Members.mk.injEq]
          exact List.erase_of_not_mem absent
        rw [if_neg (by simp), members, same]
        unfold content
        rw [Storage.lookup_writeBack_eq, found]
        split
        · rename_i vacant
          have empty : (MemValue.set ms : MemValue Val).isEmpty = true := vacant.2
          rw [Option.filter_some, if_neg (by simp [empty]), Option.filter_none]
        · rfl
      | _ => simp [MemValue.kind] at fits

end Content

theorem listed_iff {h : Fields Val} {fields : List String} :
    Listed h fields ↔ Storage.eraseFields h fields = ∅ := by
  constructor
  · intro listed
    apply Storage.hash_eq_empty_of_isEmpty
    by_contra full
    rw [List.isEmpty_iff] at full
    obtain ⟨e, rest, shape⟩ := List.exists_cons_of_ne_nil full
    have held : (Storage.eraseFields h fields).lookup e.1 ≠ none := by
      rw [Ne, AList.lookup_eq_none, not_not, AList.mem_keys, AList.keys, shape]
      exact List.mem_cons_self
    rw [Storage.lookup_eraseFields] at held
    split at held
    · exact held rfl
    · rename_i outside
      exact outside (listed e.1 held)
  · intro vacant f held
    have gone : (Storage.eraseFields h fields).lookup f = none := by
      rw [vacant]
      exact AList.lookup_empty f
    rw [Storage.lookup_eraseFields] at gone
    by_contra outside
    rw [if_neg outside] at gone
    exact held gone

/-! What each key holds after the deletion -/

section Routes
variable {s : Store} {c : Catalog}

theorem lookup_indexesStripped (s : Store) (r : Route) {k : Key} (apart : k.shared = false)
    (index : k ≠ .routeByNumber r.groupId r.number) (set : k ≠ .routeInGroup r.groupId) :
    (indexesStripped s r).lookup k = s.lookup k := by
  have away : ∀ k', k'.shared = true → k ≠ k' := by
    rintro k' shared rfl
    simp [apart] at shared
  unfold indexesStripped
  rw [Storage.lookup_dropMember_ne _ _ (away _ rfl), Storage.lookup_dropMember_ne _ _ (away _ rfl),
    Storage.lookup_dropMember_ne _ _ set, Storage.lookup_erase, if_neg index]

theorem lookup_routeCascaded (rep : Represents s c) {r : Route} (live : c.routes r.id = some r)
    {k : Key} (apart : k.shared = false) (record : k ≠ .route r.id)
    (index : ∀ n, k ≠ .routeByNumber r.groupId n) (set : k ≠ .routeInGroup r.groupId) :
    (routeCascaded r.groupId r.id s).lookup k =
      if (KeyPrefix.kvRoute r.groupId r.id).covers k then none else s.lookup k := by
  have read : routeAnswer s r.id = .ok r := routeAnswer_of_live rep live
  have away : k ≠ .routeAll := by
    rintro rfl
    simp [Key.shared] at apart
  simp only [routeCascaded, strippedIfRead, read]
  rw [Storage.lookup_dropMember_ne _ _ away, Storage.lookup_dropFields_ne _ _ record,
    Storage.lookup_without, lookup_indexesStripped s r apart (index _) set]

theorem hashAt_routeCascaded (rep : Represents s c) {r : Route} (live : c.routes r.id = some r) :
    (routeCascaded r.groupId r.id s).hashAt (.route r.id) =
      Storage.eraseFields (s.hashAt (.route r.id)) cascadedRouteFields := by
  have read : routeAnswer s r.id = .ok r := routeAnswer_of_live rep live
  simp [routeCascaded, strippedIfRead, read, indexesStripped, KeyPrefix.covers]

/-- The state of the routes is gone, their records lack the fields on the list. -/
theorem routesCascaded_keys (rep : Represents s c) {gid : String} {ids : List String}
    (distinct : ids.Nodup)
    (live : ∀ rid ∈ ids, ∃ r, c.routes rid = some r ∧ r.id = rid ∧ r.groupId = gid) :
    (∀ k : Key, k.shared = false → (∀ rid ∈ ids, k ≠ .route rid) →
        (∀ n, k ≠ .routeByNumber gid n) → k ≠ .routeInGroup gid →
        (ids.foldl (fun t rid => routeCascaded gid rid t) s).lookup k =
          if ∃ rid ∈ ids, (KeyPrefix.kvRoute gid rid).covers k = true then none else s.lookup k) ∧
      ∀ rid ∈ ids, (ids.foldl (fun t rid => routeCascaded gid rid t) s).hashAt (.route rid) =
        Storage.eraseFields (s.hashAt (.route rid)) cascadedRouteFields := by
  induction ids generalizing s c with
  | nil => exact ⟨fun k _ _ _ _ => by simp, by simp⟩
  | cons rid rest ih =>
    have apart := List.nodup_cons.mp distinct
    obtain ⟨r, found, rfl, rfl⟩ := live rid List.mem_cons_self
    have gone := removed_routeCascaded rep found
    have step := represents_removed rep found gone
    obtain ⟨keys, records⟩ := ih step apart.2 (by
      intro id inRest
      obtain ⟨q, there, same, home⟩ := live id (List.mem_cons_of_mem r.id inRest)
      have differ : id ≠ r.id := fun h => apart.1 (h ▸ inRest)
      exact ⟨q, by simpa [Catalog.dropRoute, differ] using there, same, home⟩)
    simp only [List.foldl_cons]
    refine ⟨?_, ?_⟩
    · intro k shared record index set
      rw [keys k shared (fun id member => record id (List.mem_cons_of_mem _ member)) index set,
        lookup_routeCascaded rep found shared (record r.id List.mem_cons_self) index set]
      by_cases first : (KeyPrefix.kvRoute r.groupId r.id).covers k = true
      · simp [first]
      · simp [first]
    · intro id member
      by_cases inRest : id ∈ rest
      · have differ : id ≠ r.id := fun h => apart.1 (h ▸ inRest)
        rw [records id inRest, gone.hash id differ]
      · rcases List.mem_cons.mp member with rfl | later
        · have same := keys (.route r.id) rfl (fun x member same => inRest (by
            rw [Key.route.injEq] at same
            exact same ▸ member)) (by simp) (by simp)
          rw [if_neg (by simp [KeyPrefix.covers])] at same
          rw [Storage.hashAt, same]
          exact hashAt_routeCascaded rep found
        · exact absurd later inRest

/-- The keys that the deletion of a group erases whole. -/
def erasedWith (s : Store) (gid : String) : Key → Prop
  | .routeInGroup id => id = gid
  | .gkv id _ => id = gid
  | .journal id _ => id = gid
  | .journalByNumber id _ => id = gid
  | .groupCounters id => id = gid
  | .kv id rid _ => id = gid ∧ rid ∈ s.setAt (.routeInGroup gid)
  | _ => False

theorem listed_live (hold : Consistent s c) (gid : String) :
    ∀ rid ∈ s.setAt (.routeInGroup gid),
      ∃ r, c.routes rid = some r ∧ r.id = rid ∧ r.groupId = gid := by
  intro rid member
  obtain ⟨r, there, home⟩ := (hold.represents.routes.inGroup gid rid).mp member
  exact ⟨r, there, hold.sound.routeId there, home⟩

theorem lookup_recordCascaded (gid : String) (found : Option Group) (s : Store) {k : Key}
    (apart : k.shared = false) (record : k ≠ .group gid)
    (name : ∀ g ∈ found, k ≠ .groupByName g.name) :
    (recordCascaded gid s found).lookup k = s.lookup k := by
  cases found with
  | none => rfl
  | some g =>
    have away : k ≠ .groupOwner g.ownerId := by
      rintro rfl
      simp [Key.shared] at apart
    unfold recordCascaded
    rw [Storage.lookup_dropFields_ne _ _ record, Storage.lookup_dropMember_ne _ _ away,
      Storage.lookup_erase, if_neg (name g rfl)]

theorem lookup_namespacesErased (gid : String) (s : Store) (k : Key) :
    (namespacesErased gid s).lookup k =
      if k = .routeInGroup gid ∨ k = .groupCounters gid ∨ (KeyPrefix.gkv gid).covers k = true ∨
        (KeyPrefix.journal gid).covers k = true ∨ (KeyPrefix.journalByNumber gid).covers k = true
      then none else s.lookup k := by
  unfold namespacesErased
  simp only [Storage.lookup_erase, Storage.lookup_without]
  split_ifs <;> simp_all

theorem erasedWith_iff (s : Store) (gid : String) (k : Key) :
    erasedWith s gid k ↔
      (k = .routeInGroup gid ∨ k = .groupCounters gid ∨ (KeyPrefix.gkv gid).covers k = true ∨
        (KeyPrefix.journal gid).covers k = true ∨
        (KeyPrefix.journalByNumber gid).covers k = true) ∨
      ∃ rid ∈ s.setAt (.routeInGroup gid), (KeyPrefix.kvRoute gid rid).covers k = true := by
  cases k <;> simp [erasedWith, KeyPrefix.covers] <;> grind

/-- Every other key is erased whole, or holds what it did. -/
theorem lookup_groupCascaded (hold : Consistent s c) (gid : String) (found : Option Group)
    {k : Key} (apart : k.shared = false) (record : k ≠ .group gid)
    (route : ∀ rid ∈ s.setAt (.routeInGroup gid), k ≠ .route rid)
    (index : ∀ n, k ≠ .routeByNumber gid n) (name : ∀ g ∈ found, k ≠ .groupByName g.name) :
    (erasedWith s gid k → (groupCascaded gid found s).lookup k = none) ∧
      (¬ erasedWith s gid k → (groupCascaded gid found s).lookup k = s.lookup k) := by
  obtain ⟨keys, _⟩ := routesCascaded_keys hold.represents (s.setAt_nodup _) (listed_live hold gid)
  have away : k ≠ .groupAll := by
    rintro rfl
    simp [Key.shared] at apart
  unfold groupCascaded
  rw [Storage.lookup_dropMember_ne _ _ away, lookup_recordCascaded gid found _ apart record name,
    lookup_namespacesErased]
  rw [erasedWith_iff]
  by_cases namespaced : k = .routeInGroup gid ∨ k = .groupCounters gid ∨
      (KeyPrefix.gkv gid).covers k = true ∨ (KeyPrefix.journal gid).covers k = true ∨
      (KeyPrefix.journalByNumber gid).covers k = true
  · rw [if_pos namespaced]
    exact ⟨fun _ => rfl, fun kept => absurd (.inl namespaced) kept⟩
  · rw [if_neg namespaced, keys k apart route index (fun set => namespaced (.inl set))]
    by_cases state : ∃ rid ∈ s.setAt (.routeInGroup gid),
        (KeyPrefix.kvRoute gid rid).covers k = true
    · rw [if_pos state]
      exact ⟨fun _ => rfl, fun kept => absurd (.inr state) kept⟩
    · rw [if_neg state]
      exact ⟨fun gone => absurd gone (not_or.mpr ⟨namespaced, state⟩), fun _ => rfl⟩

theorem lookup_notErased (hold : Consistent s c) (gid : String) {k : Key}
    (kept : ¬ erasedWith s gid k) (apart : k.shared = false) (record : k ≠ .group gid)
    (route : ∀ rid ∈ s.setAt (.routeInGroup gid), k ≠ .route rid)
    (index : ∀ n, k ≠ .routeByNumber gid n)
    (name : ∀ g ∈ c.groups gid, k ≠ .groupByName g.name) :
    (groupCascaded gid (c.groups gid) s).lookup k = s.lookup k :=
  (lookup_groupCascaded hold gid _ apart record route index name).2 kept

theorem hashAt_groupCascaded (hold : Consistent s c) (gid : String) (found : Option Group) :
    (groupCascaded gid found s).hashAt (.group gid) =
      found.elim (s.hashAt (.group gid))
        (fun _ => Storage.eraseFields (s.hashAt (.group gid)) cascadedGroupFields) := by
  obtain ⟨keys, _⟩ := routesCascaded_keys hold.represents (s.setAt_nodup _) (listed_live hold gid)
  have same : (namespacesErased gid ((s.setAt (.routeInGroup gid)).foldl
      (fun t rid => routeCascaded gid rid t) s)).hashAt (.group gid) = s.hashAt (.group gid) := by
    have fold := keys (.group gid) rfl (by simp) (by simp) (by simp)
    rw [if_neg (by simp [KeyPrefix.covers])] at fold
    rw [Storage.hashAt, lookup_namespacesErased, if_neg (by simp [KeyPrefix.covers]), fold]
    rfl
  unfold groupCascaded
  cases found with
  | none =>
    simp only [recordCascaded, Storage.hashAt_dropMember, Option.elim]
    simp [same]
  | some g => simp [recordCascaded, same]

theorem hashAt_routeOfCascaded (hold : Consistent s c) (gid : String) {rid : String}
    (listed : rid ∈ s.setAt (.routeInGroup gid)) (found : Option Group) :
    (groupCascaded gid found s).hashAt (.route rid) =
      Storage.eraseFields (s.hashAt (.route rid)) cascadedRouteFields := by
  obtain ⟨_, records⟩ := routesCascaded_keys hold.represents (s.setAt_nodup _)
    (listed_live hold gid)
  have lookup : (groupCascaded gid found s).lookup (.route rid) =
      ((s.setAt (.routeInGroup gid)).foldl (fun t rid => routeCascaded gid rid t) s).lookup
        (.route rid) := by
    unfold groupCascaded
    rw [Storage.lookup_dropMember_ne _ _ (by simp),
      lookup_recordCascaded gid found _ rfl (by simp) (by simp), lookup_namespacesErased,
      if_neg (by simp [KeyPrefix.covers])]
  rw [← records rid listed, Storage.hashAt, lookup]
  rfl

/-- The keys that the deletion of a group takes whole, and those it passes over. -/
theorem names_cases {k : Key} {gid : String} (mine : k.names gid = true) :
    k = .group gid ∨ (∃ n, k = .routeByNumber gid n) ∨ erasedWith s gid k ∨
      passedOver s gid k := by
  cases k <;> simp [Key.names, erasedWith, passedOver] at mine ⊢ <;> subst mine <;> try tauto

theorem content_erased (hold : Consistent s c) {gid : String} {k : Key}
    (gone : erasedWith s gid k) :
    content (groupCascaded gid (c.groups gid) s) k = none := by
  apply content_none
  refine (lookup_groupCascaded hold gid (c.groups gid) (k := k) ?_ ?_ ?_ ?_ ?_).1 gone <;>
    cases k <;> simp_all [erasedWith, Key.shared]

theorem content_passedOver (hold : Consistent s c) {gid : String} {k : Key}
    (passed : passedOver s gid k) :
    content (groupCascaded gid (c.groups gid) s) k = content s k := by
  apply content_of_lookup
  refine lookup_notErased hold gid ?_ ?_ ?_ ?_ ?_ ?_ <;>
    cases k <;> simp_all [passedOver, erasedWith, Key.shared]

section Whole
variable (hold : Consistent s c) (gid : String)
include hold

theorem consistent_groupCascaded :
    Consistent (groupCascaded gid (c.groups gid) s) (c.dropGroup gid) :=
  ⟨represents_groupCascaded hold.represents hold.sound rfl, Catalog.sound_dropGroup hold.sound gid⟩

theorem content_group (readable : c.groups gid = none → s.hashAt (.group gid) = ∅) :
    content (groupCascaded gid (c.groups gid) s) (.group gid) = none ↔
      Listed (s.hashAt (.group gid)) cascadedGroupFields := by
  have after := consistent_groupCascaded hold gid
  rw [content_hash after.represents.kinded rfl, hashAt_groupCascaded hold, listed_iff]
  cases live : c.groups gid with
  | some g => rfl
  | none =>
    have bare := readable live
    simp only [Option.elim, bare, true_iff]
    rw [← listed_iff]
    intro f held
    exact absurd (AList.lookup_empty f) held

theorem content_route {rid : String} (listed : rid ∈ s.setAt (.routeInGroup gid)) :
    content (groupCascaded gid (c.groups gid) s) (.route rid) = none ↔
      Listed (s.hashAt (.route rid)) cascadedRouteFields := by
  have after := consistent_groupCascaded hold gid
  rw [content_hash after.represents.kinded rfl, hashAt_routeOfCascaded hold gid listed, listed_iff]

/-- The index of numbers keeps no entry of the group. -/
theorem content_number (n : Nat) :
    content (groupCascaded gid (c.groups gid) s) (.routeByNumber gid n) = none := by
  have after := consistent_groupCascaded hold gid
  rw [content_bytes after.represents.kinded rfl]
  cases found : (groupCascaded gid (c.groups gid) s).bytesAt (.routeByNumber gid n) with
  | none => rfl
  | some v =>
    obtain ⟨rid, r, _, live, home, _⟩ := after.represents.routes.byNumber gid n v found
    exact absurd home (Catalog.dropGroup_routes.mp live).2

/-- The deletion leaves nothing of the group exactly where it reaches all there is. -/
theorem cascade_complete_iff (readable : c.groups gid = none → s.hashAt (.group gid) = ∅) :
    CascadeComplete s (groupCascaded gid (c.groups gid) s) gid ↔ Reaches s gid := by
  have after := consistent_groupCascaded hold gid
  constructor
  · intro complete
    refine ⟨?_, ?_, ?_⟩
    · exact (content_group hold gid readable).mp
        (complete.keys _ (.names (by simp [Key.names])))
    · intro rid listed
      exact (content_route hold gid listed).mp (complete.keys _ (.route listed))
    · intro k passed
      rw [← content_passedOver hold passed]
      apply complete.keys k (.names ?_)
      cases k <;> simp_all [passedOver, Key.names]
  · rintro ⟨group, routes, passed⟩
    refine ⟨?_, ⟨?_, ?_⟩, ?_⟩
    · intro k mine
      cases mine with
      | names mine =>
        rcases names_cases (s := s) mine with rfl | ⟨n, rfl⟩ | gone | skipped
        · exact (content_group hold gid readable).mpr group
        · exact content_number hold gid n
        · exact content_erased hold gone
        · exact (content_passedOver hold skipped).trans (passed k skipped)
      | route listed => exact (content_route hold gid listed).mpr (routes _ listed)
      | name leads =>
        rename_i name
        rw [content_bytes after.represents.kinded rfl]
        cases found : (groupCascaded gid (c.groups gid) s).bytesAt (.groupByName name) with
        | none => rfl
        | some v =>
          obtain ⟨id, g, live, named, rfl⟩ := (after.represents.groups.byName name v).mp found
          obtain ⟨before, other⟩ := Catalog.dropGroup_groups.mp live
          have own := (hold.represents.groups.byName name _).mpr ⟨id, g, before, named, rfl⟩
          rw [leads, Option.some.injEq, Val.text.injEq] at own
          exact absurd own.symm other
    · rw [after.represents.groups.all]
      rintro ⟨g, live⟩
      exact (Catalog.dropGroup_groups.mp live).2 rfl
    · intro owner
      rw [after.represents.groups.owner]
      rintro ⟨g, live, _⟩
      exact (Catalog.dropGroup_groups.mp live).2 rfl
    · intro rid listed
      obtain ⟨r, before, home⟩ := (hold.represents.routes.inGroup gid rid).mp listed
      have gone : (c.dropGroup gid).routes rid = none := by
        cases there : (c.dropGroup gid).routes rid with
        | none => rfl
        | some q =>
          obtain ⟨same, other⟩ := Catalog.dropGroup_routes.mp there
          rw [before, Option.some.injEq] at same
          exact absurd (same ▸ home) other
      refine ⟨?_, ?_⟩
      · rw [after.represents.routes.all]
        simp [gone]
      · intro owner
        rw [after.represents.routes.byOwner]
        simp [gone]

/-- The deletion of a group leaves the others alone. -/
theorem cascade_othersKept : OthersKept s (groupCascaded gid (c.groups gid) s) gid := by
  have after := consistent_groupCascaded hold gid
  have rep := hold.represents
  constructor
  · intro k other apart
    apply content_of_lookup
    apply lookup_notErased hold gid _ apart
    · rintro rfl
      exact other (.names (by simp [Key.names]))
    · rintro rid listed rfl
      exact other (.route listed)
    · rintro n rfl
      exact other (.names (by simp [Key.names]))
    · rintro g found rfl
      exact other (.name ((rep.groups.byName g.name _).mpr ⟨gid, g, found, rfl, rfl⟩))
    · intro gone
      apply other (.names _)
      cases k <;> simp_all [erasedWith, Key.names]
  · intro id differ
    have same : ∀ g, (c.dropGroup gid).groups id = some g ↔ c.groups id = some g := fun g =>
      ⟨fun live => (Catalog.dropGroup_groups.mp live).1,
        fun live => Catalog.dropGroup_groups.mpr ⟨live, differ⟩⟩
    refine ⟨?_, ?_⟩
    · rw [after.represents.groups.all, rep.groups.all]
      simp only [same]
    · intro owner
      rw [after.represents.groups.owner, rep.groups.owner]
      simp only [same]
  · intro rid outside
    have same : ∀ r, (c.dropGroup gid).routes rid = some r ↔ c.routes rid = some r := by
      intro r
      refine ⟨fun live => (Catalog.dropGroup_routes.mp live).1, fun live => ?_⟩
      refine Catalog.dropGroup_routes.mpr ⟨live, ?_⟩
      intro home
      exact outside ((rep.routes.inGroup gid rid).mpr ⟨r, live, home⟩)
    refine ⟨?_, ?_⟩
    · rw [after.represents.routes.all, rep.routes.all]
      simp only [same]
    · intro owner
      rw [after.represents.routes.byOwner, rep.routes.byOwner]
      simp only [same]

/-- The deletion runs unless there are fields of a record but no id among them. -/
theorem run_cascade_readable (readable : c.groups gid = none → s.hashAt (.group gid) = ∅) :
    ∃ n, run (cascadeDeleteGroup gid) s = (.ok n, groupCascaded gid (c.groups gid) s) := by
  cases live : c.groups gid with
  | some g => exact ⟨_, cascade_of_live hold live⟩
  | none =>
    have answer : groupAnswer s gid = .error .notFound := by
      unfold groupAnswer
      rw [readable live]
      rfl
    exact ⟨_, by rw [run_cascadeDeleteGroup hold.represents.kinded, answer]⟩

theorem run_cascade_unreadable (full : s.hashAt (.group gid) ≠ ∅)
    (vacant : (s.hashAt (.group gid)).lookup "id" = none) :
    ∃ e, run (cascadeDeleteGroup gid) s = (.error e, s) := by
  have malformed : ∃ msg, groupAnswer s gid = .error (.malformed msg) := by
    unfold groupAnswer
    rw [if_neg (fun empty => full (Storage.hash_eq_empty_of_isEmpty empty))]
    unfold decodeGroup utf8
    rw [vacant]
    exact ⟨_, rfl⟩
  obtain ⟨msg, answer⟩ := malformed
  exact ⟨_, by rw [run_cascadeDeleteGroup hold.represents.kinded, answer]⟩

omit hold in
/-- Where nothing of a group is left, its deletion finds nothing. -/
theorem cascade_again {s t : Store} {d : Catalog} (after : Consistent t d)
    (complete : CascadeComplete s t gid) :
    ∃ m u, run (cascadeDeleteGroup gid) t = (.ok m, u) ∧ ∀ k, content u k = content t k := by
  have wk := after.represents.kinded
  have names : ∀ k : Key, k.names gid = true → content t k = none :=
    fun k mine => complete.keys k (.names mine)
  have bare : t.hashAt (.group gid) = ∅ :=
    (content_hash wk rfl).mp (names _ (by simp [Key.names]))
  have answer : groupAnswer t gid = .error .notFound := by
    unfold groupAnswer
    rw [bare]
    rfl
  have routeless : t.setAt (.routeInGroup gid) = [] := by
    rw [List.eq_nil_iff_forall_not_mem]
    intro rid member
    have vacant := names (.routeInGroup gid) (by simp [Key.names])
    unfold content at vacant
    unfold Storage.setAt Storage.membersAt at member
    cases found : t.lookup (.routeInGroup gid) with
    | none => simp [found, Storage.asSet, Members.none] at member
    | some v =>
      rw [found] at vacant member
      cases v with
      | set ms =>
        have full : ms.toList ≠ [] := List.ne_nil_of_mem member
        simp [MemValue.isEmpty, full] at vacant
      | _ => simp [Storage.asSet, Members.none] at member
  refine ⟨_, _, by rw [run_cascadeDeleteGroup wk, answer], ?_⟩
  intro k
  have wkn := wellKinded_namespacesErased wk gid
  have absent : gid ∉ (namespacesErased gid t).setAt .groupAll := by
    have same : (namespacesErased gid t).setAt .groupAll = t.setAt .groupAll := by
      simp [namespacesErased, KeyPrefix.covers]
    rw [same]
    exact complete.groups.1
  unfold groupCascaded
  rw [routeless, List.foldl_nil]
  show content ((namespacesErased gid t).dropMember .groupAll gid) k = content t k
  rw [content_dropMember wkn rfl absent]
  by_cases mine : k.names gid = true
  · rw [names k mine]
    have gone := names k mine
    unfold content at gone ⊢
    rw [lookup_namespacesErased]
    split
    · rfl
    · exact gone
  · apply content_of_lookup
    rw [lookup_namespacesErased, if_neg]
    rintro (rfl | rfl | covered | covered | covered)
    · simp [Key.names] at mine
    · simp [Key.names] at mine
    all_goals cases k <;> simp_all [Key.names, KeyPrefix.covers]

theorem cascade_clean_iff : CascadeClean s gid ↔ CascadeReaches s gid := by
  by_cases stray : s.hashAt (.group gid) ≠ ∅ ∧ (s.hashAt (.group gid)).lookup "id" = none
  · obtain ⟨e, failed⟩ := run_cascade_unreadable hold gid stray.1 stray.2
    refine ⟨fun _ => .inl stray, fun _ n t ran => ?_⟩
    rw [failed] at ran
    cases ran
  · have readable : c.groups gid = none → s.hashAt (.group gid) = ∅ := by
      intro gone
      by_contra full
      exact stray ⟨full, hold.represents.groups.rest gid gone⟩
    obtain ⟨n, ran⟩ := run_cascade_readable hold gid readable
    constructor
    · intro clean
      exact .inr ((cascade_complete_iff hold gid readable).mp (clean n _ ran).1)
    · rintro (unreadable | reaches)
      · exact absurd unreadable stray
      · intro m t did
        rw [ran] at did
        cases did
        have complete := (cascade_complete_iff hold gid readable).mpr reaches
        exact ⟨complete, cascade_othersKept hold gid,
          cascade_again gid (consistent_groupCascaded hold gid) complete⟩

end Whole

end Routes

/-- In every state that calls lead to, the deletion of a group is complete and idempotent
    exactly where it reaches all there is of it. -/
theorem cascade_delete_clean [UlidText] (s : CallState)
    (reached : Reached calls (fun _ _ => True) s)
    (gid : String) : CascadeClean s.store gid ↔ CascadeReaches s.store gid := by
  obtain ⟨c, held⟩ := calls_stored reached
  exact cascade_clean_iff held.consistent gid

namespace Sample

def oneGroup : List Call := [.mutation (.createGroup (group "shop" "ann") idA 0 draw)]

end Sample

theorem cascade_delete_clean_shop : ∃ s : CallState, Reached calls (fun _ _ => True) s ∧
    contains (s.store.hashAt (.group Sample.idA)) "id" = true ∧
      (CascadeClean s.store Sample.idA ↔ CascadeReaches s.store Sample.idA) := by
  have ran : ((exec calls ⟨Storage.empty .inMemory, []⟩ Sample.oneGroup).map
      (fun s => contains (s.store.hashAt (.group Sample.idA)) "id")) = some true := by
    decide +kernel
  obtain ⟨s, done, live⟩ := Option.map_eq_some_iff.mp ran
  have reached := reached_of_exec (m := calls) Sample.oneGroup ⟨.inMemory, rfl⟩ done
  exact ⟨s, reached, live, cascade_delete_clean s reached Sample.idA⟩

/-- The callout setting of a group outlives the deletion of the group. -/
theorem cascade_leaves_callout : ∃ s : CallState, Reached calls (fun _ _ => True) s ∧
    ¬ CascadeClean s.store Sample.idA := by
  have ran : ((exec calls ⟨Storage.empty .inMemory, []⟩ Sample.oneGroup).map (fun s =>
      ((run (cascadeDeleteGroup Sample.idA) s.store).1.toOption.isSome,
        (content (run (cascadeDeleteGroup Sample.idA) s.store).2 (.group Sample.idA)).isSome))) =
      some (true, true) := by
    decide +kernel
  obtain ⟨s, done, shows⟩ := Option.map_eq_some_iff.mp ran
  refine ⟨s, reached_of_exec Sample.oneGroup ⟨.inMemory, rfl⟩ done, ?_⟩
  intro clean
  cases deleted : run (cascadeDeleteGroup Sample.idA) s.store with
  | mk answer after =>
    rw [deleted] at shows
    cases answer with
    | error e => simp [Except.toOption] at shows
    | ok n =>
      have gone := (clean n after deleted).1.keys (.group Sample.idA) (.names (by simp [Key.names]))
      simp [gone] at shows

end WireMirage
