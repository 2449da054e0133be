import WireMirage.Api.Operations
import WireMirage.Registry.Foreign

/-!
What a user's operations on their own groups leave: the groups of others as they were, and
every route still with the owner of its group or an admin.
-/
namespace WireMirage
open Prog StepMachine

/-- A route belongs to the owner of its group, or an admin has put it there. -/
def Owned (admins : String → Bool) (c : Catalog) : Prop :=
  ∀ rid r g, c.routes rid = some r → c.groups r.groupId = some g →
    r.ownerId = g.ownerId ∨ admins r.ownerId = true

/-- A group that the user may change: their own, or any for an admin. -/
def Mine (auth : AuthContext) (c : Catalog) (gid : String) : Prop :=
  auth.isAdmin = false → ∀ g, c.groups gid = some g → g.ownerId = auth.userId

/-- No group changes its owner, and a new one is the user's. -/
def OwnersKept (auth : AuthContext) (c d : Catalog) : Prop :=
  ∀ gid h, d.groups gid = some h →
    (∃ g, c.groups gid = some g ∧ g.ownerId = h.ownerId) ∨ h.ownerId = auth.userId

/-- The user is an admin or not, as in every request so far. -/
structure Roles (admins : String → Bool) (auth : AuthContext) (c : Catalog) : Prop where
  owned : Owned admins c
  agree : auth.isAdmin = admins auth.userId

/-- What a request of a user leaves: a catalog in which no group has another owner, and, as
    long as roles stay, the groups of others untouched unless the user is an admin. -/
structure Contained (admins : String → Bool) (auth : AuthContext) (ids : List String) (s : Store)
    (c : Catalog) (t : Store) (d : Catalog) : Prop where
  consistent : Consistent t d
  owners : OwnersKept auth c d
  minted : ∀ id ∈ d.minted, id ∈ ids ++ c.minted
  owned : Roles admins auth c → Owned admins d
  untouched : Roles admins auth c → auth.isAdmin = false →
    ∀ gid g, c.groups gid = some g → g.ownerId ≠ auth.userId → Untouched s t gid

/-! Catalogs that stay owned -/

section Owned
variable {admins : String → Bool} {c d : Catalog}

theorem owned_empty : Owned admins Catalog.empty := by
  intro rid r g found
  cases found

theorem owned_setGroup (sound : c.Sound) (owned : Owned admins c) {g : Group}
    (new : g.id ∉ c.minted) : Owned admins ((c.mint g.id).setGroup g) := by
  intro rid r h found record
  have live : c.routes rid = some r := found
  obtain ⟨x, there, _⟩ := sound.parent live
  have other : r.groupId ≠ g.id := by
    intro same
    rw [same, sound.absent_group new] at there
    cases there
  have same : (if r.groupId = g.id then some g else c.groups r.groupId) = some h := record
  rw [if_neg other] at same
  exact owned rid r h live same

theorem owned_setRoute (owned : Owned admins c) {r : Route}
    (mine : ∀ g, c.groups r.groupId = some g → r.ownerId = g.ownerId ∨ admins r.ownerId = true) :
    Owned admins (c.setRoute r) := by
  intro rid q g found record
  have here : (if rid = r.id then some r else c.routes rid) = some q := found
  split at here
  · cases here
    exact mine g record
  · exact owned rid q g here record

theorem owned_dropRoute (owned : Owned admins c) (rid : String) :
    Owned admins (c.dropRoute rid) := by
  intro id r g found record
  have here : (if id = rid then none else c.routes id) = some r := found
  split at here
  · cases here
  · exact owned id r g here record

theorem owned_dropGroup (owned : Owned admins c) (gid : String) :
    Owned admins (c.dropGroup gid) := by
  intro id r g found record
  exact owned id r g (Catalog.dropGroup_routes.mp found).1 (Catalog.dropGroup_groups.mp record).1

theorem owned_renameGroup (owned : Owned admins c) (gid newName : String) :
    Owned admins (c.renameGroup gid newName) := by
  intro id r g found record
  obtain ⟨q, before, rfl⟩ := Option.map_eq_some_iff.mp found
  obtain ⟨h, live, rfl⟩ := Option.map_eq_some_iff.mp record
  have home : (Catalog.renamedRoute gid newName q).groupId = q.groupId := by
    unfold Catalog.renamedRoute
    split <;> rfl
  have mine : (Catalog.renamedRoute gid newName q).ownerId = q.ownerId := by
    unfold Catalog.renamedRoute
    split <;> rfl
  rw [home] at live ⊢
  have owner : (Catalog.renamedGroup gid newName q.groupId h).ownerId = h.ownerId := by
    unfold Catalog.renamedGroup
    split <;> rfl
  rw [mine, owner]
  exact owned id q h before live

theorem owned_alike (owned : Owned admins c) (alike : Alike c d) : Owned admins d := by
  intro rid r g found record
  obtain ⟨q, before, routes⟩ := alike.route found
  obtain ⟨h, live, groups⟩ := alike.group record
  have route := same_route routes
  rw [← route.ownerId, ← (same_group groups).ownerId]
  exact owned rid q h before (route.groupId.symm ▸ live)

end Owned

section Owners
variable {auth : AuthContext} {c d : Catalog}

theorem ownersKept_groups (same : d.groups = c.groups) : OwnersKept auth c d :=
  fun _ h found => .inl ⟨h, same ▸ found, rfl⟩

theorem ownersKept_setGroup {g : Group} (mine : g.ownerId = auth.userId) :
    OwnersKept auth c ((c.mint g.id).setGroup g) := by
  intro gid h found
  have here : (if gid = g.id then some g else c.groups gid) = some h := found
  split at here
  · cases here
    exact .inr mine
  · exact .inl ⟨h, here, rfl⟩

theorem ownersKept_dropGroup (gid : String) : OwnersKept auth c (c.dropGroup gid) :=
  fun _ h found => .inl ⟨h, (Catalog.dropGroup_groups.mp found).1, rfl⟩

theorem ownersKept_renameGroup (gid newName : String) :
    OwnersKept auth c (c.renameGroup gid newName) := by
  intro id h found
  obtain ⟨g, live, rfl⟩ := Option.map_eq_some_iff.mp found
  refine .inl ⟨g, live, ?_⟩
  unfold Catalog.renamedGroup
  split <;> rfl

theorem ownersKept_alike (alike : Alike c d) : OwnersKept auth c d := by
  intro gid h found
  obtain ⟨g, live, same⟩ := alike.group found
  exact .inl ⟨g, live, (same_group same).ownerId⟩

theorem mine_kept (kept : OwnersKept auth c d) {gid : String} (mine : Mine auth c gid) :
    Mine auth d gid := by
  intro member h found
  rcases kept gid h found with ⟨g, live, same⟩ | own
  · exact same.symm.trans (mine member g live)
  · exact own

theorem mine_new (sound : c.Sound) {gid : String} (new : gid ∉ c.minted) : Mine auth c gid := by
  intro _ g live
  rw [sound.absent_group new] at live
  cases live

end Owners

/-! What the operations of the registry leave, on a group of one's own -/

section Operations
variable {admins : String → Bool} {auth : AuthContext} {ids : List String} {s t : Store}
  {c d : Catalog}

theorem contained_refl (hold : Consistent s c) :
    Contained admins auth ids s c s c where
  consistent := hold
  owners := ownersKept_groups rfl
  minted := fun _ member => List.mem_append_right ids member
  owned := Roles.owned
  untouched := fun _ _ _ _ _ _ _ _ => rfl

theorem contained_frame (hold : Consistent s c) {gid : String}
    (mine : Roles admins auth c → Mine auth c gid) (after : Consistent t d)
    (owned : Roles admins auth c → Owned admins d) (owners : OwnersKept auth c d)
    (minted : ∀ id ∈ d.minted, id ∈ ids ++ c.minted)
    (same : ∀ k, Foreign c gid k → t.entry k = s.entry k) : Contained admins auth ids s c t d where
  consistent := after
  owners := owners
  minted := minted
  owned := owned
  untouched := by
    intro roles member id g live other
    apply untouched_of_foreign hold _ same
    rintro rfl
    exact other (mine roles member g live)

theorem Contained.roles (one : Contained admins auth ids s c t d) (roles : Roles admins auth c) :
    Roles admins auth d :=
  ⟨one.owned roles, roles.agree⟩

theorem contained_trans {u : Store} {e : Catalog} {more : List String} (hold : Consistent s c)
    (one : Contained admins auth ids s c t d) (two : Contained admins auth more t d u e) :
    Contained admins auth (more ++ ids) s c u e where
  consistent := two.consistent
  owners := by
    intro gid h found
    rcases two.owners gid h found with ⟨g, there, same⟩ | own
    · rcases one.owners gid g there with ⟨x, live, before⟩ | own
      · exact .inl ⟨x, live, before.trans same⟩
      · exact .inr (same.symm.trans own)
    · exact .inr own
  minted := by
    intro id member
    rw [List.append_assoc, List.mem_append]
    exact (List.mem_append.mp (two.minted id member)).imp_right (one.minted id)
  owned := fun roles => two.owned (one.roles roles)
  untouched := by
    intro roles member gid g live other k key
    have kept := one.untouched roles member gid g live other
    have there := (untouched_live hold one.consistent kept g).mpr live
    have later := two.untouched (one.roles roles) member gid g there other k
      ((untouched_keys hold one.consistent kept k).mpr key)
    exact later.trans (kept k key)

theorem contained_weaken {more : List String} (within : ∀ id ∈ ids, id ∈ more)
    (contained : Contained admins auth ids s c t d) : Contained admins auth more s c t d where
  consistent := contained.consistent
  owners := contained.owners
  minted := by
    intro id member
    rw [List.mem_append]
    exact (List.mem_append.mp (contained.minted id member)).imp_left (within id)
  owned := contained.owned
  untouched := contained.untouched

variable (hold : Consistent s c)
include hold

theorem contained_created {g : Group} (new : g.id ∉ c.minted) (own : g.ownerId = auth.userId)
    (free : s.bytesAt (.groupByName g.name) = none)
    (after : Consistent (groupCreated s g) ((c.mint g.id).setGroup g)) :
    Contained admins auth [g.id] s c (groupCreated s g) ((c.mint g.id).setGroup g) := by
  apply contained_frame hold (fun _ => mine_new hold.sound new) after
    (fun roles => owned_setGroup hold.sound roles.owned new) (ownersKept_setGroup own)
  · exact fun id member => member
  · exact fun k foreign =>
      entry_groupCreated foreign rfl (nameOf_free hold.represents free)

theorem contained_createGroup (params : NewGroup) (owner : params.ownerId = auth.userId)
    (id : String) (now : Time) (draw : Nat → Draw) (new : id ∉ c.minted) :
    (∃ e, run (createGroup params id now draw) s = (.error e, s)) ∨
      ∃ g t d, run (createGroup params id now draw) s = (.ok g, t) ∧
        Contained admins auth [id] s c t d ∧ Mine auth d g.id := by
  rcases createGroup_step hold params id now draw new with failed | ⟨g, ran, rfl, own, free, after⟩
  · exact .inl failed
  · have contained : Contained admins auth [g.id] s c _ _ :=
      contained_created hold new (own.trans owner) free after
    exact .inr ⟨g, _, _, ran, contained, mine_kept contained.owners (mine_new hold.sound new)⟩

/-- A route goes into a group of one's own, or into a group created for it. -/
theorem contained_createRoute [UlidText] (params : NewRoute) (drawn : NewIds) (now : Time)
    (draw : Nat → Draw)
    (owner : params.ownerId = auth.userId)
    (gate : ∀ reference, params.group = some reference →
      ∀ gid, resolvedAnswer s reference = .ok gid → Mine auth c gid)
    (newGroup : drawn.group ∉ c.minted) (newRoute_ : drawn.route ∉ c.minted)
    (differ : drawn.group ≠ drawn.route) :
    (∃ e, run (createRoute params drawn now draw) s = (.error e, s)) ∨
      ∃ r t d, run (createRoute params drawn now draw) s = (.ok r, t) ∧
        Contained admins auth [drawn.group, drawn.route] s c t d := by
  rcases createRoute_step hold params drawn now draw newGroup newRoute_ differ with
    failed | ⟨r, t, d, ran, created, added, after⟩
  · exact .inl failed
  right
  refine ⟨r, t, (d.mint drawn.route).setRoute r, ran, ?_⟩
  obtain ⟨pattern, g, u, n, _, _, target, _, _, made, rfl⟩ := created.made
  have home : r.groupId = g.id := made ▸ rfl
  have newId : r.id ∉ c.minted := added.id ▸ newRoute_
  rcases added.group with ⟨reference, named, resolved, rfl⟩ | ⟨h, unnamed, home', id, mine, rfl⟩
  · have may := gate reference named r.groupId resolved
    have owned : Roles admins auth d → Owned admins ((d.mint drawn.route).setRoute r) := by
      intro roles
      apply owned_setRoute (c := d.mint drawn.route) roles.owned
      intro x live
      by_cases admin : auth.isAdmin = true
      · exact .inr (by rw [added.owner, owner, ← roles.agree, admin])
      · exact .inl (by rw [added.owner, owner, may (by simpa using admin) x live])
    cases target with
    | existing _ found record =>
      apply contained_frame hold (fun _ => may) after owned (ownersKept_groups rfl)
      · intro id member
        have drawnOrOld : id = drawn.route ∨ id ∈ d.minted := List.mem_cons.mp member
        rcases drawnOrOld with rfl | old
        · simp
        · simp [old]
      · intro k foreign
        rw [entry_routeStored foreign rfl (routeOf_new hold.sound newId)]
        rw [home] at foreign
        exact entry_routeCounted foreign n
    | implicit none _ => rw [named] at none; cases none
  · cases target with
    | existing named _ _ => rw [unnamed] at named; cases named
    | implicit _ fresh =>
      have same : g.id = h.id := home.symm.trans home'
      have new : g.id ∉ c.minted := by rw [same, id]; exact newGroup
      refine contained_frame hold (fun _ => mine_new hold.sound new) after ?_
        (ownersKept_setGroup (mine.trans owner)) ?_ ?_
      · intro roles
        have grown := owned_setGroup hold.sound roles.owned (g := h) (same ▸ new)
        apply owned_setRoute (c := ((c.mint h.id).setGroup h).mint drawn.route) grown
        intro x live
        have here : (if r.groupId = h.id then some h else c.groups r.groupId) = some x := live
        rw [if_pos home', Option.some.injEq] at here
        exact .inl (by rw [added.owner, ← here, mine])
      · intro x member
        have drawnOrOld : x = drawn.route ∨ x = h.id ∨ x ∈ c.minted := by
          simpa [Catalog.mint, Catalog.setGroup, Catalog.setRoute] using member
        rcases drawnOrOld with rfl | rfl | old
        · simp
        · simp [id]
        · simp [old]
      · intro k foreign
        rw [entry_routeStored foreign home (routeOf_new hold.sound newId),
          entry_routeCounted foreign, entry_groupCreated foreign rfl]
        exact nameOf_free hold.represents fresh.free

/-- The route behind a slug is in a group of one's own. -/
def MineBySlug [UlidText] (admins : String → Bool) (auth : AuthContext) (s : Store) (c : Catalog)
    (groupRef : String) (number : Nat) : Prop :=
  ∀ rid r, slugAnswer s groupRef number = .ok rid → c.routes rid = some r →
    Roles admins auth c → Mine auth c r.groupId

theorem contained_updateRoute [UlidText] (groupRef : String) (number : Nat) (patch : PatchRoute)
    (mine : MineBySlug admins auth s c groupRef number) :
    ∃ d, Contained admins auth [] s c (run (updateRoute groupRef number patch) s).2 d := by
  rcases updateRoute_step hold groupRef number patch with
    ⟨e, ran⟩ | ⟨old, r, t, ran, updated, after, _⟩
  · rw [ran]
    exact ⟨c, contained_refl hold⟩
  rcases updateRoute_cases hold.represents.kinded groupRef number patch with
    ⟨e, ran'⟩ | ⟨r', t', ran', checked⟩
  · rw [ran] at ran'
    cases ran'
  rw [ran, Prod.mk.injEq, Except.ok.injEq] at ran'
  obtain ⟨rfl, rfl⟩ := ran'
  obtain ⟨rid, q, _, path, slug, record, _, _, _, made, left⟩ := checked.made
  have live := (hold.represents.routes.record rid q).mp record
  have id := hold.sound.routeId live
  subst id
  have same : r.groupId = q.groupId ∧ r.ownerId = q.ownerId := by rw [made]; exact ⟨rfl, rfl⟩
  rw [ran, left]
  refine ⟨c.setRoute r, contained_frame hold (mine q.id q slug live) (left ▸ after) ?_
    (ownersKept_groups rfl) ?_ ?_⟩
  · intro roles
    apply owned_setRoute roles.owned
    intro g there
    rw [same.2]
    exact roles.owned q.id q g live (same.1 ▸ there)
  · exact fun _ member => member
  · exact fun k foreign => entry_routePatched foreign (routeOf_live live) patch path

theorem contained_deleteRoute [UlidText] (groupRef : String) (number : Nat)
    (mine : MineBySlug admins auth s c groupRef number) :
    ∃ d, Contained admins auth [] s c (run (deleteRoute groupRef number) s).2 d := by
  rcases deleteRoute_step hold groupRef number with ⟨e, ran⟩ | ⟨r, ran, slug, live, after⟩
  · rw [ran]
    exact ⟨c, contained_refl hold⟩
  · rw [ran]
    dsimp only
    exact ⟨_, contained_frame hold (mine r.id r slug live) after
      (fun roles => owned_dropRoute roles.owned r.id) (ownersKept_groups rfl)
      (fun _ member => member)
      (fun k foreign => entry_routeDeleted foreign rfl (routeOf_live live))⟩

theorem contained_setRouteState [UlidText] (groupRef : String) (number : Nat)
    (state : List (String × Bytes)) (mine : MineBySlug admins auth s c groupRef number) :
    ∃ d, Contained admins auth [] s c (run (setRouteState groupRef number state) s).2 d := by
  have after := setRouteState_step hold groupRef number state
  rcases setRouteState_cases hold.represents.kinded groupRef number state with
    ⟨e, ran⟩ | ⟨rid, r, ran, slug, record⟩
  · rw [ran]
    exact ⟨c, contained_refl hold⟩
  · have live := (hold.represents.routes.record rid r).mp record
    rw [ran] at after ⊢
    exact ⟨c, contained_frame hold (mine rid r slug live) after Roles.owned (ownersKept_groups rfl)
      (fun _ member => member)
      (fun k foreign => entry_statePut foreign (fun x => by simp [Key.names]) state)⟩

theorem contained_clearRouteState [UlidText] (groupRef : String) (number : Nat)
    (mine : MineBySlug admins auth s c groupRef number) :
    ∃ d, Contained admins auth [] s c (run (clearRouteState groupRef number) s).2 d := by
  have after := clearRouteState_step hold groupRef number
  rcases clearRouteState_cases hold.represents.kinded groupRef number with
    ⟨e, ran⟩ | ⟨rid, r, n, ran, slug, record⟩
  · rw [ran]
    exact ⟨c, contained_refl hold⟩
  · have live := (hold.represents.routes.record rid r).mp record
    rw [ran] at after ⊢
    refine ⟨c, contained_frame hold (mine rid r slug live) after Roles.owned (ownersKept_groups rfl)
      (fun _ member => member) ?_⟩
    intro k foreign
    apply entry_without foreign
    intro k' covered
    cases k' <;> simp_all [KeyPrefix.covers, Key.names]

variable {gid : String} (mine : Roles admins auth c → Mine auth c gid)
include mine

theorem contained_renameGroup [UlidText] (groupRef newName : String)
    (leads : ∀ id, resolvedAnswer s groupRef = .ok id → id = gid) :
    ∃ d, Contained admins auth [] s c (run (renameGroup groupRef newName) s).2 d := by
  rcases renameGroup_step hold groupRef newName with
    ⟨e, ran⟩ | ⟨g, ran, _⟩ | ⟨old, t, ran, resolved, live, _, _, free, after⟩
  · rw [ran]
    exact ⟨c, contained_refl hold⟩
  · rw [ran]
    exact ⟨c, contained_refl hold⟩
  obtain rfl := leads old.id resolved
  rcases renameGroup_cases hold.represents.kinded groupRef newName with
    ⟨e, ran'⟩ | ⟨_, _, e, ran', _⟩ | ⟨id, g, ran', found, record, same⟩ | ⟨g, t', ran', renamed⟩
  · rw [ran] at ran'
    cases ran'
  · rw [ran] at ran'
    cases ran'
  · rw [ran, Prod.mk.injEq] at ran'
    rw [ran, ran'.2]
    exact ⟨c, contained_refl hold⟩
  rw [ran, Prod.mk.injEq] at ran'
  obtain ⟨id, q, routes, found, record, _, _, _, listed, _, left⟩ := renamed.made
  obtain rfl := leads id found
  have there := (hold.represents.groups.record old.id q).mp record
  rw [live, Option.some.injEq] at there
  subst there
  have moved := represents_nameMoved hold.represents hold.sound live free
  rw [group_routes_answer moved] at listed
  cases listed
  rw [ran, ran'.2, left]
  refine ⟨c.renameGroup old.id newName, contained_frame hold mine (left ▸ ran'.2 ▸ after)
    (fun roles => owned_renameGroup roles.owned _ _) (ownersKept_renameGroup _ _)
    (fun _ member => member) ?_⟩
  intro k foreign
  apply entry_groupRenamed foreign (nameOf_live hold.sound live)
    (nameOf_free hold.represents free)
  intro r member
  obtain ⟨rid, there, home⟩ := (mem_group_routes moved).mp member
  have listed : c.routes rid = some r := there
  have id := hold.sound.routeId listed
  subst id
  exact home ▸ routeOf_live listed

theorem contained_patchGroup (ttl : Option Nat) (sliding callout : Option Bool) :
    ∃ d, Contained admins auth [] s c (run (patchGroup gid ttl sliding callout) s).2 d := by
  obtain ⟨d, after, alike⟩ := patchGroup_step hold gid ttl sliding callout
  rcases patchGroup_cases hold.represents.kinded gid ttl sliding callout with
    ⟨e, ran⟩ | ⟨g, g', ran, record, _⟩
  · rw [ran]
    exact ⟨c, contained_refl hold⟩
  · have live := (hold.represents.groups.record gid g).mp record
    rw [ran] at after ⊢
    exact ⟨d, contained_frame hold mine after (fun roles => owned_alike roles.owned alike)
      (ownersKept_alike alike)
      (fun _ member => alike.minted ▸ member)
      (fun k foreign => entry_groupPatched foreign (nameOf_live hold.sound live) ttl sliding
        callout)⟩

theorem contained_refreshGroup :
    ∃ d, Contained admins auth [] s c (run (refreshGroup gid) s).2 d := by
  have after := refreshGroup_step hold gid
  rcases refreshGroup_cases hold.represents.kinded gid with ⟨e, ran⟩ | ⟨g, ran, record⟩
  · rw [ran]
    exact ⟨c, contained_refl hold⟩
  · have live := (hold.represents.groups.record gid g).mp record
    rw [ran] at after ⊢
    exact ⟨c, contained_frame hold mine after Roles.owned (ownersKept_groups rfl)
      (fun _ member => member)
      (fun k foreign => entry_groupArmed foreign (nameOf_live hold.sound live) g.ttlSeconds)⟩

theorem contained_setGroupState (state : List (String × Bytes)) :
    ∃ d, Contained admins auth [] s c (run (setGroupState gid state) s).2 d := by
  have after := setGroupState_step hold gid state
  rw [run_setGroupState] at after ⊢
  exact ⟨c, contained_frame hold mine after Roles.owned (ownersKept_groups rfl)
      (fun _ member => member)
    (fun k foreign => entry_statePut foreign (fun x => by simp [Key.names]) state)⟩

theorem contained_clearGroupState :
    ∃ d, Contained admins auth [] s c (run (clearGroupState gid) s).2 d := by
  have after := clearGroupState_step hold gid
  rw [(leads_clearGroupState gid).run_eq hold.represents.kinded] at after ⊢
  exact ⟨c, contained_frame hold mine after Roles.owned (ownersKept_groups rfl)
      (fun _ member => member)
    (fun k foreign => entry_stateCleared foreign)⟩

theorem contained_clearGroupJournal :
    ∃ d, Contained admins auth [] s c (run (clearGroupJournal gid) s).2 d := by
  have after := clearGroupJournal_step hold gid
  rw [(leads_clearGroupJournal gid).run_eq hold.represents.kinded] at after ⊢
  exact ⟨c, contained_frame hold mine after Roles.owned (ownersKept_groups rfl)
      (fun _ member => member)
    (fun k foreign => entry_journalCleared foreign)⟩

theorem contained_cascadeDeleteGroup :
    ∃ d, Contained admins auth [] s c (run (cascadeDeleteGroup gid) s).2 d := by
  rcases cascadeDeleteGroup_step hold gid with ⟨e, ran⟩ | ⟨ran, after⟩
  · rw [ran]
    exact ⟨c, contained_refl hold⟩
  · rw [ran]
    exact ⟨_, contained_frame hold mine after (fun roles => owned_dropGroup roles.owned gid)
      (ownersKept_dropGroup gid) (fun _ member => member)
      (fun k foreign => entry_groupCascaded foreign hold)⟩

end Operations

end WireMirage
