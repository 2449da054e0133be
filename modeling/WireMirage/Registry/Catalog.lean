import WireMirage.Records

/-!
What the registry is for: a catalog of groups and of the routes in them. Names
belong to one group each, a route belongs to a group that exists and carries its
name, and no two routes of a group serve the same requests.
-/
namespace WireMirage

structure Catalog where
  routes : String → Option Route
  groups : String → Option Group
  minted : List String

/-- Two routes that no request can be ambiguous between, unless by a backstop. -/
def Apart (r q : Route) : Prop :=
  ∀ p p', Pattern.parse r.path = .ok p → Pattern.parse q.path = .ok p' →
    routesConflict r.methods p q.methods p' = false

theorem apart_symm {r q : Route} (apart : Apart r q) : Apart q r := by
  intro p p' hp hp'
  rw [routes_conflict_comm]
  exact apart p' p hp' hp

namespace Catalog

def empty : Catalog := ⟨fun _ => none, fun _ => none, []⟩

def mint (c : Catalog) (id : String) : Catalog := { c with minted := id :: c.minted }

def setRoute (c : Catalog) (r : Route) : Catalog :=
  { c with routes := fun id => if id = r.id then some r else c.routes id }

def setGroup (c : Catalog) (g : Group) : Catalog :=
  { c with groups := fun id => if id = g.id then some g else c.groups id }

def dropRoute (c : Catalog) (rid : String) : Catalog :=
  { c with routes := fun id => if id = rid then none else c.routes id }

def dropGroup (c : Catalog) (gid : String) : Catalog :=
  { c with
    routes := fun id => (c.routes id).filter (fun r => r.groupId != gid)
    groups := fun id => if id = gid then none else c.groups id }

def renamedRoute (gid newName : String) (r : Route) : Route :=
  if r.groupId = gid then { r with groupName := newName } else r

def renamedGroup (gid newName id : String) (g : Group) : Group :=
  if id = gid then { g with name := newName } else g

def renameGroup (c : Catalog) (gid newName : String) : Catalog :=
  { c with
    routes := fun id => (c.routes id).map (renamedRoute gid newName)
    groups := fun id => (c.groups id).map (renamedGroup gid newName id) }

structure Sound (c : Catalog) : Prop where
  routeId : ∀ {rid r}, c.routes rid = some r → r.id = rid
  groupId : ∀ {gid g}, c.groups gid = some g → g.id = gid
  parent : ∀ {rid r}, c.routes rid = some r →
    ∃ g, c.groups r.groupId = some g ∧ g.name = r.groupName
  names : ∀ {a b g h}, c.groups a = some g → c.groups b = some h → g.name = h.name → a = b
  mintedRoute : ∀ {rid r}, c.routes rid = some r → rid ∈ c.minted
  mintedGroup : ∀ {gid g}, c.groups gid = some g → gid ∈ c.minted
  path : ∀ {rid r}, c.routes rid = some r → ∃ p, Pattern.parse r.path = .ok p
  methods : ∀ {rid r}, c.routes rid = some r → ∀ m ∈ r.methods, validMethod m = true
  apart : ∀ {a b r q}, c.routes a = some r → c.routes b = some q → a ≠ b →
    r.groupId = q.groupId → Apart r q

theorem sound_empty : Sound empty := by
  constructor <;> intros <;> simp_all [empty]

section
variable {c : Catalog} (sound : c.Sound)
include sound

theorem Sound.absent_group {gid : String} (new : gid ∉ c.minted) : c.groups gid = none := by
  cases found : c.groups gid with
  | none => rfl
  | some g => exact absurd (sound.mintedGroup found) new

theorem Sound.absent_route {rid : String} (new : rid ∉ c.minted) : c.routes rid = none := by
  cases found : c.routes rid with
  | none => rfl
  | some r => exact absurd (sound.mintedRoute found) new

theorem sound_mint (id : String) : (c.mint id).Sound where
  routeId := sound.routeId
  groupId := sound.groupId
  parent := sound.parent
  names := sound.names
  mintedRoute := fun found => List.mem_cons_of_mem id (sound.mintedRoute found)
  mintedGroup := fun found => List.mem_cons_of_mem id (sound.mintedGroup found)
  path := sound.path
  methods := sound.methods
  apart := sound.apart

/-- A group is added, or its record changed, under a name no other group carries. -/
theorem sound_setGroup {g : Group} (minted : g.id ∈ c.minted)
    (name : ∀ gid h, c.groups gid = some h → h.name = g.name → gid = g.id)
    (kept : ∀ old, c.groups g.id = some old → old.name = g.name) : (c.setGroup g).Sound where
  routeId := sound.routeId
  groupId := by
    intro gid h found
    simp only [setGroup] at found
    split at found
    · cases found
      rename_i same
      exact same.symm
    · exact sound.groupId found
  parent := by
    intro rid r found
    obtain ⟨h, record, same⟩ := sound.parent (c := c) found
    by_cases here : r.groupId = g.id
    · refine ⟨g, by simp [setGroup, here], ?_⟩
      rw [← same, kept h (here ▸ record)]
    · exact ⟨h, by simpa [setGroup, here] using record, same⟩
  names := by
    intro a b x y foundA foundB same
    simp only [setGroup] at foundA foundB
    split at foundA <;> split at foundB
    · simp_all
    · rename_i here there
      cases foundA
      exact here.trans (name b y foundB same.symm).symm
    · rename_i there here
      cases foundB
      exact (name a x foundA same).trans here.symm
    · exact sound.names foundA foundB same
  mintedRoute := sound.mintedRoute
  mintedGroup := by
    intro gid h found
    simp only [setGroup] at found
    split at found
    · rename_i same
      exact same ▸ minted
    · exact sound.mintedGroup found
  path := sound.path
  methods := sound.methods
  apart := sound.apart

/-- A route is added, or its record changed, in a group where it is apart from the rest. -/
theorem sound_setRoute {r : Route} (minted : r.id ∈ c.minted)
    (parent : ∃ g, c.groups r.groupId = some g ∧ g.name = r.groupName)
    (path : ∃ p, Pattern.parse r.path = .ok p) (methods : ∀ m ∈ r.methods, validMethod m = true)
    (apart : ∀ rid q, c.routes rid = some q → rid ≠ r.id → q.groupId = r.groupId → Apart r q) :
    (c.setRoute r).Sound where
  routeId := by
    intro rid q found
    simp only [setRoute] at found
    split at found
    · cases found
      rename_i same
      exact same.symm
    · exact sound.routeId found
  groupId := sound.groupId
  parent := by
    intro rid q found
    simp only [setRoute] at found
    split at found
    · cases found
      exact parent
    · exact sound.parent found
  names := sound.names
  mintedRoute := by
    intro rid q found
    simp only [setRoute] at found
    split at found
    · rename_i same
      exact same ▸ minted
    · exact sound.mintedRoute found
  mintedGroup := sound.mintedGroup
  path := by
    intro rid q found
    simp only [setRoute] at found
    split at found
    · cases found
      exact path
    · exact sound.path found
  methods := by
    intro rid q found
    simp only [setRoute] at found
    split at found
    · cases found
      exact methods
    · exact sound.methods found
  apart := by
    intro a b x y foundA foundB differ same
    simp only [setRoute] at foundA foundB
    split at foundA <;> split at foundB
    · simp_all
    · cases foundA
      exact apart b y foundB (by simp_all) same.symm
    · cases foundB
      exact apart_symm (apart a x foundA (by simp_all) same)
    · exact sound.apart foundA foundB differ same

theorem sound_dropRoute (rid : String) : (c.dropRoute rid).Sound := by
  have old : ∀ {id r}, (c.dropRoute rid).routes id = some r → c.routes id = some r := by
    intro id r found
    simp only [dropRoute] at found
    split at found
    · cases found
    · exact found
  exact {
    routeId := fun found => sound.routeId (old found)
    groupId := sound.groupId
    parent := fun found => sound.parent (old found)
    names := sound.names
    mintedRoute := fun found => sound.mintedRoute (old found)
    mintedGroup := sound.mintedGroup
    path := fun found => sound.path (old found)
    methods := fun found => sound.methods (old found)
    apart := fun foundA foundB => sound.apart (old foundA) (old foundB) }

omit sound in
theorem dropGroup_routes {gid rid : String} {r : Route} :
    (c.dropGroup gid).routes rid = some r ↔ c.routes rid = some r ∧ r.groupId ≠ gid := by
  simp [dropGroup, Option.filter_eq_some_iff]

omit sound in
theorem dropGroup_groups {gid id : String} {g : Group} :
    (c.dropGroup gid).groups id = some g ↔ c.groups id = some g ∧ id ≠ gid := by
  simp only [dropGroup]
  split <;> simp_all

theorem sound_dropGroup (gid : String) : (c.dropGroup gid).Sound where
  routeId := fun found => sound.routeId (dropGroup_routes.mp found).1
  groupId := fun found => sound.groupId (dropGroup_groups.mp found).1
  parent := by
    intro rid r found
    obtain ⟨before, other⟩ := dropGroup_routes.mp found
    obtain ⟨g, record, same⟩ := sound.parent before
    exact ⟨g, dropGroup_groups.mpr ⟨record, other⟩, same⟩
  names := fun foundA foundB =>
    sound.names (dropGroup_groups.mp foundA).1 (dropGroup_groups.mp foundB).1
  mintedRoute := fun found => sound.mintedRoute (c := c) (dropGroup_routes.mp found).1
  mintedGroup := fun found => sound.mintedGroup (c := c) (dropGroup_groups.mp found).1
  path := fun found => sound.path (dropGroup_routes.mp found).1
  methods := fun found => sound.methods (dropGroup_routes.mp found).1
  apart := fun foundA foundB =>
    sound.apart (dropGroup_routes.mp foundA).1 (dropGroup_routes.mp foundB).1

omit sound in
theorem renameGroup_routes {gid newName rid : String} {r : Route} :
    (c.renameGroup gid newName).routes rid = some r ↔
      ∃ q, c.routes rid = some q ∧ renamedRoute gid newName q = r := by
  simp [renameGroup]

omit sound in
theorem renameGroup_groups {gid newName id : String} {g : Group} :
    (c.renameGroup gid newName).groups id = some g ↔
      ∃ h, c.groups id = some h ∧ renamedGroup gid newName id h = g := by
  simp [renameGroup]

omit sound in
/-- A rename changes neither what a route serves nor where it belongs. -/
theorem renamedRoute_same (gid newName : String) (q : Route) :
    (renamedRoute gid newName q).id = q.id ∧ (renamedRoute gid newName q).groupId = q.groupId ∧
      (renamedRoute gid newName q).path = q.path ∧
      (renamedRoute gid newName q).methods = q.methods := by
  unfold renamedRoute
  split <;> exact ⟨rfl, rfl, rfl, rfl⟩

omit sound in
theorem renamedRoute_place (gid newName : String) (q : Route) :
    (renamedRoute gid newName q).groupId = q.groupId ∧
      (renamedRoute gid newName q).number = q.number := by
  unfold renamedRoute
  split <;> exact ⟨rfl, rfl⟩

omit sound in
theorem renamedGroup_id (gid newName id : String) (g : Group) :
    (renamedGroup gid newName id g).id = g.id := by
  unfold renamedGroup
  split <;> rfl

theorem sound_renameGroup {gid newName : String}
    (free : ∀ id h, c.groups id = some h → h.name ≠ newName) :
    (c.renameGroup gid newName).Sound where
  routeId := by
    intro rid r found
    obtain ⟨q, before, rfl⟩ := renameGroup_routes.mp found
    rw [(renamedRoute_same gid newName q).1]
    exact sound.routeId before
  groupId := by
    intro id g found
    obtain ⟨h, before, rfl⟩ := renameGroup_groups.mp found
    rw [renamedGroup_id]
    exact sound.groupId before
  parent := by
    intro rid r found
    obtain ⟨q, before, rfl⟩ := renameGroup_routes.mp found
    obtain ⟨g, record, same⟩ := sound.parent before
    refine ⟨_, renameGroup_groups.mpr ⟨g, ?_, rfl⟩, ?_⟩
    · rw [(renamedRoute_same gid newName q).2.1]
      exact record
    · rw [(renamedRoute_same gid newName q).2.1]
      unfold renamedGroup renamedRoute
      split
      · rfl
      · exact same
  names := by
    intro a b x y foundA foundB same
    obtain ⟨g, recordA, rfl⟩ := renameGroup_groups.mp foundA
    obtain ⟨h, recordB, rfl⟩ := renameGroup_groups.mp foundB
    unfold renamedGroup at same
    split at same <;> split at same
    · simp_all
    · exact absurd same.symm (free b h recordB)
    · exact absurd same (free a g recordA)
    · exact sound.names recordA recordB same
  mintedRoute := by
    intro rid r found
    obtain ⟨q, before, rfl⟩ := renameGroup_routes.mp found
    exact sound.mintedRoute before
  mintedGroup := by
    intro id g found
    obtain ⟨h, before, rfl⟩ := renameGroup_groups.mp found
    exact sound.mintedGroup before
  path := by
    intro rid r found
    obtain ⟨q, before, rfl⟩ := renameGroup_routes.mp found
    rw [(renamedRoute_same gid newName q).2.2.1]
    exact sound.path before
  methods := by
    intro rid r found
    obtain ⟨q, before, rfl⟩ := renameGroup_routes.mp found
    rw [(renamedRoute_same gid newName q).2.2.2]
    exact sound.methods before
  apart := by
    intro a b r q foundA foundB differ same
    obtain ⟨r, beforeA, rfl⟩ := renameGroup_routes.mp foundA
    obtain ⟨q, beforeB, rfl⟩ := renameGroup_routes.mp foundB
    obtain ⟨_, homeA, pathA, methodsA⟩ := renamedRoute_same gid newName r
    obtain ⟨_, homeB, pathB, methodsB⟩ := renamedRoute_same gid newName q
    have apart := sound.apart beforeA beforeB differ (by rw [← homeA, ← homeB, same])
    intro p p' hp hp'
    rw [pathA] at hp
    rw [pathB] at hp'
    rw [methodsA, methodsB]
    exact apart p p' hp hp'

end
end Catalog
end WireMirage
