import WireMirage.Calls

/-!
The directory of the registry, read off the store alone: the sets that list the
groups and routes, and the index of names, say what the records say.
-/
namespace WireMirage
open Prog StepMachine

/-- The records that read, under the ids that the sets of the registry list. -/
structure GroupDirectory (s : Store) : Prop where
  groups : ∀ gid, gid ∈ s.setAt .groupAll ↔ ∃ g, run (readGroup gid) s = (.ok g, s)
  ids : ∀ gid g, run (readGroup gid) s = (.ok g, s) → g.id = gid
  names : ∀ name v, s.bytesAt (.groupByName name) = some v ↔
    ∃ gid ∈ s.setAt .groupAll, ∃ g, run (readGroup gid) s = (.ok g, s) ∧ g.name = name ∧
      v = .text gid
  owners : ∀ owner gid, gid ∈ s.setAt (.groupOwner owner) ↔
    ∃ g, run (readGroup gid) s = (.ok g, s) ∧ g.ownerId = owner

structure RouteDirectory (s : Store) : Prop where
  routes : ∀ rid, rid ∈ s.setAt .routeAll ↔ ∃ r, run (readRoute rid) s = (.ok r, s)
  ids : ∀ rid r, run (readRoute rid) s = (.ok r, s) → r.id = rid
  inGroup : ∀ gid rid, rid ∈ s.setAt (.routeInGroup gid) ↔
    ∃ r, run (readRoute rid) s = (.ok r, s) ∧ r.groupId = gid
  byOwner : ∀ owner rid, rid ∈ s.setAt (.routeByOwner owner) ↔
    ∃ r, run (readRoute rid) s = (.ok r, s) ∧ r.ownerId = owner
  carried : ∀ rid r, run (readRoute rid) s = (.ok r, s) →
    ∃ g, run (readGroup r.groupId) s = (.ok g, s) ∧ g.name = r.groupName

section
variable {s : Store} {c : Catalog} (hold : Consistent s c)
include hold

theorem readGroup_live (gid : String) (g : Group) :
    run (readGroup gid) s = (.ok g, s) ↔ c.groups gid = some g := by
  rw [run_readGroup hold.represents.kinded, Prod.mk.injEq, groupAnswer_ok_iff,
    hold.represents.groups.record]
  simp

theorem readRoute_live (rid : String) (r : Route) :
    run (readRoute rid) s = (.ok r, s) ↔ c.routes rid = some r := by
  rw [run_readRoute hold.represents.kinded, Prod.mk.injEq, routeAnswer_ok_iff,
    hold.represents.routes.record]
  simp

theorem groupDirectory : GroupDirectory s where
  groups := by
    intro gid
    simp only [readGroup_live hold]
    exact hold.represents.groups.all gid
  ids := by
    intro gid g read
    exact hold.sound.groupId ((readGroup_live hold gid g).mp read)
  names := by
    intro name v
    simp only [readGroup_live hold]
    rw [hold.represents.groups.byName]
    constructor
    · rintro ⟨gid, g, live, named, same⟩
      exact ⟨gid, (hold.represents.groups.all gid).mpr ⟨g, live⟩, g, live, named, same⟩
    · rintro ⟨gid, _, g, live, named, same⟩
      exact ⟨gid, g, live, named, same⟩
  owners := by
    intro owner gid
    simp only [readGroup_live hold]
    exact hold.represents.groups.owner owner gid

theorem routeDirectory : RouteDirectory s where
  routes := by
    intro rid
    simp only [readRoute_live hold]
    exact hold.represents.routes.all rid
  ids := by
    intro rid r read
    exact hold.sound.routeId ((readRoute_live hold rid r).mp read)
  inGroup := by
    intro gid rid
    simp only [readRoute_live hold]
    exact hold.represents.routes.inGroup gid rid
  byOwner := by
    intro owner rid
    simp only [readRoute_live hold]
    exact hold.represents.routes.byOwner owner rid
  carried := by
    intro rid r read
    simp only [readGroup_live hold]
    exact hold.sound.parent ((readRoute_live hold rid r).mp read)

end

/-- Whatever calls were made, successful or not, the directory is in order. -/
theorem directory_in_order [UlidText] (s : CallState)
    (reached : Reached calls (fun _ _ => True) s) :
    GroupDirectory s.store ∧ RouteDirectory s.store := by
  obtain ⟨c, held⟩ := calls_stored reached
  exact ⟨groupDirectory held.consistent, routeDirectory held.consistent⟩

namespace Sample

/-- Two groups and a route; a rename that fails and one that goes through; a deletion. -/
def directoryCalls : List Call :=
  [.mutation (.createGroup (group "shop" "ann") idA 0 draw),
    .mutation (.createGroup (group "depot" "bob") idB 1 draw),
    .mutation (.createRoute (route "shop" "/a" "one" "ann") ⟨idC, idD⟩ 2 draw),
    .mutation (.renameGroup "shop" "depot"),
    .mutation (.renameGroup "shop" "store"),
    .mutation (.deleteGroup "depot")]

end Sample

theorem directory_in_order_shop : ∃ s : CallState, Reached calls (fun _ _ => True) s ∧
    s.store.bytesAt (.groupByName "store") = some (.text Sample.idA) ∧
      GroupDirectory s.store ∧ RouteDirectory s.store := by
  have ran : ((exec calls ⟨Storage.empty .valkey, []⟩ Sample.directoryCalls).map
      (fun s => s.store.bytesAt (.groupByName "store"))) = some (some (.text Sample.idA)) := by
    decide +kernel
  obtain ⟨s, done, named⟩ := Option.map_eq_some_iff.mp ran
  have reached := reached_of_exec (m := calls) Sample.directoryCalls ⟨.valkey, rfl⟩ done
  exact ⟨s, reached, named, directory_in_order s reached⟩

end WireMirage
