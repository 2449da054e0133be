import WireMirage.Registry.Changes

/-!
What each operation of the registry may write, as a condition on single commands.
-/
namespace WireMirage
open Prog

section Writes
variable {ok : Command Key Val → Prop} {k : Key}

theorem acts_armGroupTtl {ttl : Nat} (allowed : ok (.arm k ttl)) : Acts ok (armGroupTtl k ttl) :=
  acts_command (c := .arm k ttl) trivial allowed

theorem acts_deleteWithPrefix {p : KeyPrefix} (allowed : ∀ k, p.covers k → ok (.erase k)) :
    Acts ok (Bucket.deleteWithPrefix p : Reg Nat) := by
  intro s _
  refine ⟨.inl rfl, ?_⟩
  show Acts ok (forEach (s.entries.keys.filter p.covers) (fun k => (Bucket.delete k : Reg Unit)) >>=
    fun _ => pure (s.entries.keys.filter p.covers).length)
  apply acts_bind
  · apply acts_forEach
    intro k member
    exact acts_delete (allowed k (List.mem_filter.mp member).2)
  · intro _
    trivial

theorem acts_clearFields {fields : List String} (family : k.family = some .hash)
    (allowed : ∀ f ∈ fields, ok (.dropField k f)) : Acts ok (clearFields k fields) :=
  acts_forEach _ _ (fun f member => acts_hashDelete family (allowed f member))

end Writes

/-! Reading a record is one command -/

theorem single_readGroup (gid : String) : Single (readGroup gid) := by
  unfold readGroup Bucket.hashGetAll Bucket.command
  apply single_bind (single_atomic _)
  intro fields
  split
  · trivial
  · cases decodeGroup fields <;> trivial

theorem single_readRoute (rid : String) : Single (readRoute rid) := by
  unfold readRoute Bucket.hashGetAll Bucket.command
  apply single_bind (single_atomic _)
  intro fields
  split
  · trivial
  · cases decodeRoute fields <;> trivial

/-! What the operations of the registry may do -/

section Operations
variable {ok : Command Key Val → Prop}

theorem acts_resolveByName (name : String) : Acts ok (resolveByName name) := by
  apply acts_bind _ _ (acts_get rfl)
  rintro (_ | v)
  · trivial
  · dsimp only
    cases v.utf8 <;> trivial

theorem acts_resolveGroup [UlidText] (reference : String) : Acts ok (resolveGroup reference) := by
  unfold resolveGroup
  split
  · apply acts_bind _ _ (acts_hashGetAll rfl)
    intro fields
    split
    · trivial
    · exact acts_resolveByName reference
  · exact acts_resolveByName reference

theorem acts_resolved [UlidText] (reference : String) : Acts ok (resolved reference) := by
  apply acts_bind _ _ (acts_resolveGroup reference)
  rintro (_ | id) <;> trivial

theorem acts_readGroup (gid : String) : Acts ok (readGroup gid) := by
  apply acts_bind _ _ (acts_hashGetAll rfl)
  intro fields
  split
  · trivial
  · exact acts_ofExcept _

theorem acts_readRoute (rid : String) : Acts ok (readRoute rid) := by
  apply acts_bind _ _ (acts_hashGetAll rfl)
  intro fields
  split
  · trivial
  · exact acts_ofExcept _

theorem acts_listRoutesFrom {k : Key} (family : k.family = some .set) :
    Acts ok (listRoutesFrom k) :=
  acts_bind _ _ (acts_setMembers family) (fun _ => acts_collect _ _ acts_readRoute)

theorem acts_scanPatternConflict (gid : String) (methods : Methods) (pattern : Pattern)
    (excluded : Option String) : Acts ok (scanPatternConflict gid methods pattern excluded) :=
  acts_bind _ _ (acts_listRoutesFrom rfl) (fun _ => acts_ofExcept _)

theorem acts_routeIdBySlug [UlidText] (groupRef : String) (number : Nat) :
    Acts ok (routeIdBySlug groupRef number) := by
  apply acts_bind _ _ (acts_resolved groupRef)
  intro gid
  apply acts_bind _ _ (acts_get rfl)
  rintro (_ | v)
  · trivial
  · dsimp only
    cases v.utf8 <;> trivial

end Operations

/-- The commands that write a group's record, its indexes and their expiry. -/
def WritesGroup (gid : String) : Command Key Val → Prop
  | .setField k _ _ => k = .group gid
  | .put (.groupByName _) v => v = .text gid
  | .addMember (.groupOwner _) x => x = gid
  | .addMember .groupAll x => x = gid
  | .arm k _ => k = .group gid ∨ ∃ name, k = .groupByName name
  | _ => False

theorem acts_armGroupTtls (gid name : String) (ttl : Nat) :
    Acts (WritesGroup gid) (armGroupTtls gid name ttl) :=
  acts_bind _ _ (acts_armGroupTtl (.inl rfl)) (fun _ => acts_armGroupTtl (.inr ⟨name, rfl⟩))

theorem acts_storeGroup (g : Group) : Acts (WritesGroup g.id) (storeGroup g) := by
  have writes : Acts (WritesGroup g.id) (writeGroup g) :=
    acts_bind _ _ (acts_hashSet rfl rfl) fun _ => acts_bind _ _ (acts_hashSet rfl rfl) fun _ =>
      acts_bind _ _ (acts_hashSet rfl rfl) fun _ => acts_bind _ _ (acts_hashSet rfl rfl) fun _ =>
      acts_bind _ _ (acts_hashSet rfl rfl) fun _ => acts_bind _ _ (acts_hashSet rfl rfl) fun _ =>
      acts_bind _ _ (acts_hashSet rfl rfl) fun _ => acts_bind _ _ (acts_hashSet rfl rfl) fun _ =>
      acts_bind _ _ (acts_set rfl rfl) fun _ => acts_bind _ _ (acts_setAdd rfl rfl) fun _ =>
      acts_setAdd rfl rfl
  exact acts_bind _ _ writes (fun _ => acts_bind _ _ (acts_armGroupTtls _ _ _) (fun _ => trivial))

theorem acts_generateGroupName {ok : Command Key Val → Prop} (draw : Nat → Draw) :
    Acts ok (generateGroupName draw) := by
  have names : ∀ draws, Acts ok (firstFreeName draws) := by
    intro draws
    induction draws with
    | nil => trivial
    | cons d rest ih =>
      apply acts_bind _ _ (acts_get rfl)
      rintro (_ | v)
      · trivial
      · exact ih
  have numbers : ∀ fuel base n, Acts ok (firstFreeNumber base fuel n) := by
    intro fuel base
    induction fuel with
    | zero => exact fun n => trivial
    | succ fuel ih =>
      intro n
      apply acts_bind _ _ (acts_get rfl)
      rintro (_ | v)
      · trivial
      · exact ih (n + 1)
  apply acts_bind _ _ (names _)
  rintro (_ | name)
  · exact numbers _ _ _
  · trivial

theorem acts_newGroupName {ok : Command Key Val → Prop} (name : String) (draw : Nat → Draw) :
    Acts ok (newGroupName name draw) := by
  unfold newGroupName
  split
  · exact acts_generateGroupName draw
  · split
    · trivial
    · apply acts_bind _ _ (acts_get rfl)
      rintro (_ | v) <;> trivial

theorem acts_createGroup (params : NewGroup) (id : String) (now : Time) (draw : Nat → Draw) :
    Acts (WritesGroup id) (createGroup params id now draw) :=
  acts_bind _ _ (acts_newGroupName _ _) fun name => acts_bind _ _ (acts_ofExcept _) fun ttl =>
    acts_storeGroup (explicitGroup params name ttl id now)

theorem acts_createImplicitGroup (owner id : String) (now : Time) (draw : Nat → Draw) :
    Acts (WritesGroup id) (createImplicitGroup owner id now draw) :=
  acts_bind _ _ (acts_generateGroupName draw) fun name =>
    acts_storeGroup (implicitGroup owner name id now)

theorem acts_patchGroup (gid : String) (ttl : Option Nat) (sliding callout : Option Bool) :
    Acts (WritesGroup gid) (patchGroup gid ttl sliding callout) := by
  apply acts_bind _ _ (acts_readGroup gid)
  intro g
  refine acts_bind _ _ ?_ (fun g => acts_bind _ _ ?_ (fun g => ?_))
  · cases ttl with
    | none => trivial
    | some n =>
      refine acts_bind _ _ (acts_ofExcept _) (fun n => ?_)
      exact acts_bind _ _ (acts_hashSet rfl rfl) (fun _ =>
        acts_bind _ _ (acts_armGroupTtls _ _ _) (fun _ => trivial))
  · cases sliding with
    | none => trivial
    | some flag => exact acts_bind _ _ (acts_hashSet rfl rfl) (fun _ => trivial)
  · cases callout with
    | none => trivial
    | some flag => exact acts_bind _ _ (acts_hashSet rfl rfl) (fun _ => trivial)

/-- The commands that a new route is stored with, of an id drawn for it. -/
def WritesRoute (rid : String) : Command Key Val → Prop
  | .setField (.route r) f v => r = rid ∧ (f = "id" → v = .text rid)
  | .setField (.groupCounters _) f _ => f = "next_route_number"
  | .dropField (.route r) f => r = rid ∧ f = "source"
  | .put (.routeByNumber _ _) v => v = .text rid
  | .addMember (.routeInGroup _) x => x = rid
  | .addMember .routeAll x => x = rid
  | .addMember (.routeByOwner _) x => x = rid
  | _ => False

theorem acts_storeRoute (r : Route) : Acts (WritesRoute r.id) (storeRoute r) := by
  have field : ∀ f v, f ≠ "id" → Acts (WritesRoute r.id)
      (Bucket.hashSet (.route r.id) f v : Reg Unit) :=
    fun f v other => acts_hashSet rfl ⟨rfl, fun same => absurd same other⟩
  have writes : Acts (WritesRoute r.id) (writeRoute r) := by
    unfold writeRoute
    refine acts_bind _ _ (acts_hashSet rfl ⟨rfl, fun _ => rfl⟩) fun _ =>
      acts_bind _ _ (field _ _ (by decide)) fun _ => acts_bind _ _ (field _ _ (by decide)) fun _ =>
      acts_bind _ _ (field _ _ (by decide)) fun _ => acts_bind _ _ (field _ _ (by decide)) fun _ =>
      acts_bind _ _ (field _ _ (by decide)) fun _ => acts_bind _ _ (field _ _ (by decide)) fun _ =>
      acts_bind _ _ (field _ _ (by decide)) fun _ => acts_bind _ _
        (field _ _ (by decide)) fun _ => ?_
    have last := acts_bind _ _ (field "created_at" (.time r.createdAt) (by decide))
      (fun _ => field "owner_id" (.text r.ownerId) (by decide))
    cases r.source with
    | none => exact acts_bind _ _ (acts_hashDelete rfl ⟨rfl, rfl⟩) (fun _ => last)
    | some src => exact acts_bind _ _ (field _ _ (by decide)) (fun _ => last)
  exact acts_bind _ _ writes fun _ => acts_bind _ _ (acts_set rfl rfl) fun _ =>
    acts_bind _ _ (acts_setAdd rfl rfl) fun _ => acts_bind _ _ (acts_setAdd rfl rfl) fun _ =>
    acts_setAdd rfl rfl

/-- What the creation of a route may write: the route, and a group of its own. -/
def CreatesRoute (ids : NewIds) (c : Command Key Val) : Prop :=
  WritesRoute ids.route c ∨ WritesGroup ids.group c

theorem acts_createRoute [UlidText] (params : NewRoute) (ids : NewIds) (now : Time)
    (draw : Nat → Draw) : Acts (CreatesRoute ids) (createRoute params ids now draw) := by
  refine acts_bind _ _ (acts_ofExcept _) fun pattern => acts_bind _ _
    (acts_ofExcept _) fun methods =>
    acts_bind _ _ ?_ fun group => acts_bind _ _ (acts_scanPatternConflict _ _ _ _) fun _ =>
    acts_bind _ _ (acts_hashIncr rfl (fun _ => .inl rfl)) fun count =>
    acts_bind _ _ (acts_mono (fun c => .inl) _ (acts_storeRoute _)) fun _ => trivial
  unfold targetGroup
  split
  · exact acts_bind _ _ (acts_resolved _) (fun gid => acts_readGroup gid)
  · exact acts_mono (fun c => .inr) _ (acts_createImplicitGroup _ _ _ _)

/-- What the deletion of a route may write. -/
def DeletesRoute : Command Key Val → Prop
  | .erase (.routeByNumber _ _) => True
  | .erase (.kv _ _ _) => True
  | .dropMember _ _ => True
  | .dropField (.route _) f => f ∈ deletedRouteFields
  | _ => False

theorem acts_stripRouteIndexes {ok : Command Key Val → Prop} (r : Route)
    (number : ok (.erase (.routeByNumber r.groupId r.number)))
    (member : ∀ k x, ok (.dropMember k x)) : Acts ok (stripRouteIndexes r) :=
  acts_bind _ _ (acts_delete number) fun _ => acts_bind _ _
    (acts_setRemove rfl (member _ _)) fun _ =>
    acts_bind _ _ (acts_setRemove rfl (member _ _)) fun _ => acts_setRemove rfl (member _ _)

theorem acts_deleteRoute [UlidText] (groupRef : String) (number : Nat) :
    Acts DeletesRoute (deleteRoute groupRef number) := by
  refine acts_bind _ _ (acts_routeIdBySlug groupRef number) fun rid =>
    acts_bind _ _ (acts_readRoute rid) fun r =>
    acts_bind _ _ (acts_stripRouteIndexes r trivial (fun _ _ => trivial)) fun _ =>
    acts_bind _ _ (acts_deleteWithPrefix ?_) fun _ =>
    acts_clearFields rfl (fun f member => member)
  intro k covered
  cases k <;> simp_all [KeyPrefix.covers, DeletesRoute]

/-- What the deletion of a group may write. -/
def CascadesGroup (gid : String) : Command Key Val → Prop
  | .erase (.group _) => False
  | .erase (.route _) => False
  | .erase _ => True
  | .dropMember _ _ => True
  | .dropField (.route _) f => f ∈ cascadedRouteFields
  | .dropField (.group g) f => g = gid ∧ f ∈ cascadedGroupFields
  | _ => False

theorem acts_cascadeDeleteGroup (gid : String) :
    Acts (CascadesGroup gid) (cascadeDeleteGroup gid) := by
  have covers : ∀ (p : KeyPrefix) (k : Key), p.covers k → CascadesGroup gid (.erase k) := by
    intro p k covered
    cases p <;> cases k <;> simp_all [KeyPrefix.covers, CascadesGroup]
  have routes : ∀ rid, Acts (CascadesGroup gid) (cascadeRoute gid rid) := by
    intro rid
    refine acts_bind _ _ ?_ fun _ => acts_bind _ _ (acts_deleteWithPrefix (covers _)) fun _ =>
      acts_bind _ _ (acts_clearFields rfl (fun f member => member)) fun _ =>
        acts_setRemove rfl trivial
    apply acts_bind _ _ (acts_attempt _ (acts_readRoute rid))
    rintro (e | r)
    · trivial
    · exact acts_stripRouteIndexes r trivial (fun _ _ => trivial)
  have record : ∀ found, Acts (CascadesGroup gid) (cascadeRecord gid found) := by
    rintro (_ | g)
    · trivial
    · exact acts_bind _ _ (acts_delete trivial) fun _ =>
        acts_bind _ _ (acts_setRemove rfl trivial) fun _ =>
        acts_clearFields rfl (fun f member => ⟨rfl, member⟩)
  have read : Acts (CascadesGroup gid) (readGroupIfAny gid) := by
    apply acts_bind _ _ (acts_attempt _ (acts_readGroup gid))
    rintro (e | g)
    · cases e <;> trivial
    · trivial
  exact acts_bind _ _ read fun found => acts_bind _ _ (acts_setMembers rfl) fun rids =>
    acts_bind _ _ (acts_forEach _ _ (fun rid _ => routes rid)) fun _ =>
    acts_bind _ _ (acts_delete trivial) fun _ =>
    acts_bind _ _ (acts_deleteWithPrefix (covers _)) fun _ =>
    acts_bind _ _ (acts_deleteWithPrefix (covers _)) fun _ =>
    acts_bind _ _ (acts_deleteWithPrefix (covers _)) fun _ =>
    acts_bind _ _ (acts_delete trivial) fun _ => acts_bind _ _ (record found) fun _ =>
    acts_bind _ _ (acts_setRemove rfl trivial) fun _ => trivial

end WireMirage
