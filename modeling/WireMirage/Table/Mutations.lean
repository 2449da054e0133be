import WireMirage.Registry.OtherSteps
import WireMirage.Table.RouteTable

/-!
The changes an API call makes: what it commits to storage, with the refresh of the
route table that has to follow. One lemma says what each can do to the catalog.
-/
namespace WireMirage
open Prog

/-- A new id is one that was not drawn before, and reads as a ULID. -/
def Drawable [UlidText] (minted : List String) (id : String) : Prop :=
  id ∉ minted ∧ UlidText.fromString id = true ∧ id ≠ ""

instance [UlidText] (minted : List String) (id : String) : Decidable (Drawable minted id) :=
  inferInstanceAs (Decidable (_ ∧ _ ∧ _))

inductive Mutation where
  | createGroup (params : NewGroup) (id : String) (now : Time) (draw : Nat → Draw)
  | createRoute (params : NewRoute) (ids : NewIds) (now : Time) (draw : Nat → Draw)
  | updateRoute (groupRef : String) (number : Nat) (patch : PatchRoute)
  | deleteRoute (groupRef : String) (number : Nat)
  | renameGroup (groupRef newName : String)
  | deleteGroup (groupRef : String)

namespace Mutation

/-- The ids a mutation draws. -/
def draws : Mutation → List String
  | .createGroup _ id _ _ => [id]
  | .createRoute _ ids _ _ => [ids.group, ids.route]
  | _ => []

/-- The part of an API call that works on storage. -/
def commit [UlidText] : Mutation → Reg Refresh
  | .createGroup params id now draw => do
    let _ ← WireMirage.createGroup params id now draw
    return .none
  | .createRoute params ids now draw => do
    let route ← WireMirage.createRoute params ids now draw
    return .create route
  | .updateRoute groupRef number patch => do
    let updated ← WireMirage.updateRoute groupRef number patch
    return .update updated
  | .deleteRoute groupRef number => do
    let route ← getRouteBySlug groupRef number
    WireMirage.deleteRoute groupRef number
    return .delete route.groupId route.id
  | .renameGroup groupRef newName => do
    let group ← readGroupByRef groupRef
    let renamed ← WireMirage.renameGroup group.id newName
    return .rename group.id renamed.name
  | .deleteGroup groupRef => do
    let group ← readGroupByRef groupRef
    let _ ← cascadeDeleteGroup group.id
    return .cascade group.id

/-- The ids drawn are new, and differ from one another. -/
def Fresh (minted : List String) (m : Mutation) : Prop :=
  m.draws.Nodup ∧ ∀ id ∈ m.draws, id ∉ minted

end Mutation

/-- What a committed change does to the catalog, by the refresh it calls for. -/
inductive Committed (c : Catalog) : Refresh → Catalog → Prop where
  | group {g : Group} (new : g.id ∉ c.minted) : Committed c .none ((c.mint g.id).setGroup g)
  | route {r : Route} {d : Catalog}
      (place : d = c ∨ ∃ g : Group, g.id ∉ c.minted ∧ d = (c.mint g.id).setGroup g)
      (new : r.id ∉ d.minted) : Committed c (.create r) ((d.mint r.id).setRoute r)
  | update {old r : Route} (before : c.routes old.id = some old) (id : r.id = old.id)
      (home : r.groupId = old.groupId) (carried : r.groupName = old.groupName)
      (number : r.number = old.number) (owner : r.ownerId = old.ownerId) :
      Committed c (.update r) (c.setRoute r)
  | delete {r : Route} (live : c.routes r.id = some r) :
      Committed c (.delete r.groupId r.id) (c.dropRoute r.id)
  | rename {g : Group} {newName : String} (live : c.groups g.id = some g) :
      Committed c (.rename g.id newName) (c.renameGroup g.id newName)
  | keep {g : Group} (live : c.groups g.id = some g) : Committed c (.rename g.id g.name) c
  | cascade {g : Group} (live : c.groups g.id = some g) :
      Committed c (.cascade g.id) (c.dropGroup g.id)

theorem committed_delete {c d : Catalog} {gid rid : String}
    (committed : Committed c (.delete gid rid) d) : d = c.dropRoute rid := by
  cases committed
  rfl

/-- A group's own id resolves to it. -/
theorem resolved_own [UlidText] {s : Store} {gid : String} {g : Group} (record : GroupAt s gid g)
    (reads : UlidText.fromString gid = true) (text : gid ≠ "") :
    resolvedAnswer s gid = .ok gid := by
  have id : (s.hashAt (.group gid)).lookup "id" = some (.text g.id) := GroupFields.id record
  rw [resolved_ok_iff, if_pos ⟨reads, text, by simp [contains, id]⟩]

section Steps
variable [UlidText] {s : Store} {c : Catalog} (hold : Consistent s c)
include hold

theorem run_readGroupByRef_live (reference : String) :
    (∃ e, run (readGroupByRef reference) s = (.error e, s)) ∨
      ∃ g, run (readGroupByRef reference) s = (.ok g, s) ∧ c.groups g.id = some g ∧
        resolvedAnswer s reference = .ok g.id := by
  rw [run_readGroupByRef hold.represents.kinded]
  cases found : resolvedAnswer s reference with
  | error e => exact .inl ⟨e, rfl⟩
  | ok gid =>
    obtain ⟨g, live⟩ := resolved_live hold.represents found
    have id := hold.sound.groupId live
    subst id
    right
    refine ⟨g, ?_, live, rfl⟩
    show (groupAnswer s g.id, s) = _
    rw [groupAnswer_of_live hold.represents live]

theorem deleteRoute_commit (groupRef : String) (number : Nat) :
    (∃ e, run (Mutation.deleteRoute groupRef number).commit s = (.error e, s)) ∨
      ∃ r, run (Mutation.deleteRoute groupRef number).commit s =
          (.ok (.delete r.groupId r.id), routeDeleted s r.id r) ∧
        c.routes r.id = some r ∧ Consistent (routeDeleted s r.id r) (c.dropRoute r.id) := by
  unfold Mutation.commit
  rw [run_bind, run_getRouteBySlug hold.represents.kinded]
  rcases deleteRoute_step hold groupRef number with ⟨e, ran⟩ | ⟨r, ran, slug, live, step⟩
  · left
    cases slug : slugAnswer s groupRef number with
    | error e => exact ⟨e, rfl⟩
    | ok rid =>
      obtain ⟨q, liveQ, _⟩ := slug_live hold.represents slug
      have read : (Except.ok rid : Except RegistryError String).bind (routeAnswer s) = .ok q :=
        routeAnswer_of_live hold.represents liveQ
      exact ⟨e, by rw [read, andThen_ok, run_bind, ran, andThen_error]⟩
  · right
    have read : (Except.ok r.id : Except RegistryError String).bind (routeAnswer s) = .ok r :=
      routeAnswer_of_live hold.represents live
    refine ⟨r, ?_, live, step⟩
    rw [slug, read, andThen_ok, run_bind, ran, andThen_ok, run_pure]

theorem renameGroup_commit (ulids : ∀ id ∈ c.minted, UlidText.fromString id = true ∧ id ≠ "")
    (groupRef newName : String) :
    (∃ e, run (Mutation.renameGroup groupRef newName).commit s = (.error e, s)) ∨
      ∃ refresh t d, run (Mutation.renameGroup groupRef newName).commit s = (.ok refresh, t) ∧
        Committed c refresh d ∧ Consistent t d ∧ d.minted = c.minted := by
  unfold Mutation.commit
  rw [run_bind]
  rcases run_readGroupByRef_live hold groupRef with ⟨e, ran⟩ | ⟨g, ran, live, _⟩
  · exact .inl ⟨e, by rw [ran, andThen_error]⟩
  · rw [ran, andThen_ok, run_bind]
    obtain ⟨reads, text⟩ := ulids g.id (hold.sound.mintedGroup live)
    have own := resolved_own ((hold.represents.groups.record g.id g).mpr live) reads text
    rcases renameGroup_step hold g.id newName with
      ⟨e, ran⟩ | ⟨h, ran, leads, liveH, same⟩ | ⟨h, t, ran, leads, liveH, _, _, _, step⟩
    · exact .inl ⟨e, by rw [ran, andThen_error]⟩
    · right
      rw [own, Except.ok.injEq] at leads
      have is : g = h := by
        rw [← leads, live, Option.some.injEq] at liveH
        exact liveH
      subst is
      subst same
      exact ⟨_, _, c, by rw [ran, andThen_ok, run_pure], .keep live, hold, rfl⟩
    · right
      rw [own, Except.ok.injEq] at leads
      exact ⟨_, _, _, by rw [ran, andThen_ok, run_pure], .rename live, leads ▸ step, rfl⟩

theorem deleteGroup_commit (groupRef : String) :
    (∃ e, run (Mutation.deleteGroup groupRef).commit s = (.error e, s)) ∨
      ∃ g t, run (Mutation.deleteGroup groupRef).commit s = (.ok (.cascade g.id), t) ∧
        c.groups g.id = some g ∧ Consistent t (c.dropGroup g.id) := by
  unfold Mutation.commit
  rw [run_bind]
  rcases run_readGroupByRef_live hold groupRef with ⟨e, ran⟩ | ⟨g, ran, live, _⟩
  · exact .inl ⟨e, by rw [ran, andThen_error]⟩
  · right
    rw [ran, andThen_ok, run_bind]
    rcases cascadeDeleteGroup_step hold g.id with ⟨e, failed⟩ | ⟨ran, step⟩
    · rw [cascade_of_live hold live] at failed
      cases failed
    · exact ⟨g, _, by rw [ran, andThen_ok, run_pure], live, step⟩

/-- A mutation fails and leaves storage alone, or commits one change of the catalog. -/
theorem commit_step (ulids : ∀ id ∈ c.minted, UlidText.fromString id = true ∧ id ≠ "")
    (m : Mutation) (fresh : m.Fresh c.minted) :
    (∃ e, run m.commit s = (.error e, s)) ∨
      ∃ refresh t d, run m.commit s = (.ok refresh, t) ∧ Committed c refresh d ∧
        Consistent t d ∧ ∀ id ∈ d.minted, id ∈ m.draws ++ c.minted := by
  obtain ⟨distinct, new⟩ := fresh
  cases m with
  | createGroup params id now draw =>
    have unseen : id ∉ c.minted := new id (by simp [Mutation.draws])
    unfold Mutation.commit
    rw [run_bind]
    rcases createGroup_step hold params id now draw unseen with
      ⟨e, ran⟩ | ⟨g, ran, rfl, _, _, step⟩
    · exact .inl ⟨e, by rw [ran, andThen_error]⟩
    · right
      exact ⟨_, _, _, by rw [ran, andThen_ok, run_pure], .group unseen, step, by
        simp [Mutation.draws, Catalog.mint, Catalog.setGroup]⟩
  | createRoute params ids now draw =>
    have differ : ids.group ≠ ids.route := by
      simpa [Mutation.draws] using distinct
    have unseenGroup : ids.group ∉ c.minted := new _ (by simp [Mutation.draws])
    have unseenRoute : ids.route ∉ c.minted := new _ (by simp [Mutation.draws])
    unfold Mutation.commit
    rw [run_bind]
    rcases createRoute_step hold params ids now draw unseenGroup unseenRoute differ with
      ⟨e, ran⟩ | ⟨r, t, d, ran, _, added, step⟩
    · exact .inl ⟨e, by rw [ran, andThen_error]⟩
    · right
      obtain ⟨id, _, group⟩ := added
      rw [← id] at step differ
      rcases group with ⟨_, _, _, rfl⟩ | ⟨g, _, _, idG, _, rfl⟩
      · refine ⟨_, _, _, by rw [ran, andThen_ok, run_pure], .route (.inl rfl) (id ▸ unseenRoute),
          step, ?_⟩
        intro x held
        rcases List.mem_cons.mp held with rfl | old
        · simp [Mutation.draws, id]
        · exact List.mem_append_right _ old
      · refine ⟨_, _, _, by rw [ran, andThen_ok, run_pure],
          .route (.inr ⟨g, idG ▸ unseenGroup, rfl⟩) ?_, step, ?_⟩
        · intro held
          rcases List.mem_cons.mp held with same | old
          · exact differ (same.trans idG).symm
          · exact unseenRoute (id ▸ old)
        · intro x held
          rcases List.mem_cons.mp held with rfl | old
          · simp [Mutation.draws, id]
          · rcases List.mem_cons.mp old with rfl | old
            · simp [Mutation.draws, idG]
            · exact List.mem_append_right _ old
  | updateRoute groupRef number patch =>
    unfold Mutation.commit
    rw [run_bind]
    rcases updateRoute_step hold groupRef number patch with
      ⟨e, ran⟩ | ⟨old, r, t, ran, updated, step, _⟩
    · exact .inl ⟨e, by rw [ran, andThen_error]⟩
    · right
      obtain ⟨path, _, applied⟩ := updated.applied
      refine ⟨.update r, t, c.setRoute r, by rw [ran, andThen_ok, run_pure], ?_, step,
        by simp [Mutation.draws, Catalog.setRoute]⟩
      exact .update updated.before (by rw [applied]; rfl) (by rw [applied]; rfl)
        (by rw [applied]; rfl) (by rw [applied]; rfl) (by rw [applied]; rfl)
  | deleteRoute groupRef number =>
    rcases deleteRoute_commit hold groupRef number with failed | ⟨r, ran, live, step⟩
    · exact .inl failed
    · exact .inr ⟨_, _, _, ran, .delete live, step, by simp [Mutation.draws, Catalog.dropRoute]⟩
  | renameGroup groupRef newName =>
    rcases renameGroup_commit hold ulids groupRef newName with
      failed | ⟨refresh, t, d, ran, committed, step, minted⟩
    · exact .inl failed
    · exact .inr ⟨_, _, _, ran, committed, step, by simp [Mutation.draws, minted]⟩
  | deleteGroup groupRef =>
    rcases deleteGroup_commit hold groupRef with failed | ⟨g, t, ran, live, step⟩
    · exact .inl failed
    · exact .inr ⟨_, _, _, ran, .cascade live, step, by
        simp [Mutation.draws, Catalog.dropGroup]⟩

end Steps
end WireMirage
