import WireMirage.Calls

/-!
The operations of the registry that write the record of a group or a route, by what they
answer. One that fails leaves storage as it was.
-/
namespace WireMirage
open Prog StepMachine

inductive Edit where
  | createGroup (params : NewGroup) (id : String) (now : Time) (draw : Nat → Draw)
  | createRoute (params : NewRoute) (ids : NewIds) (now : Time) (draw : Nat → Draw)
  | updateRoute (groupRef : String) (number : Nat) (patch : PatchRoute)
  | renameGroup (groupRef newName : String)
  | patchGroup (groupId : String) (ttlSeconds : Option Nat)
    (slidingTtl calloutEnabled : Option Bool)
  | refreshGroup (groupId : String)

/-- What an edit answers with. -/
inductive Record where
  | group (g : Group)
  | route (r : Route)
  deriving DecidableEq

namespace Edit

def perform [UlidText] : Edit → Reg Record
  | .createGroup params id now draw => Record.group <$> WireMirage.createGroup params id now draw
  | .createRoute params ids now draw => Record.route <$> WireMirage.createRoute params ids now draw
  | .updateRoute groupRef number patch =>
    Record.route <$> WireMirage.updateRoute groupRef number patch
  | .renameGroup groupRef newName => Record.group <$> WireMirage.renameGroup groupRef newName
  | .patchGroup groupId ttlSeconds slidingTtl calloutEnabled =>
    Record.group <$> WireMirage.patchGroup groupId ttlSeconds slidingTtl calloutEnabled
  | .refreshGroup groupId => Record.group <$> WireMirage.refreshGroup groupId

/-- The ids an edit draws. -/
def draws : Edit → List String
  | .createGroup _ id _ _ => [id]
  | .createRoute _ ids _ _ => [ids.group, ids.route]
  | _ => []

/-- The ids drawn are new, and differ from one another. -/
def Possible [UlidText] (minted : List String) (edit : Edit) : Prop :=
  edit.draws.Nodup ∧ ∀ id ∈ edit.draws, Drawable minted id

instance [UlidText] (minted : List String) (edit : Edit) : Decidable (edit.Possible minted) :=
  inferInstanceAs (Decidable (_ ∧ _))

end Edit

section
variable {A B : Type} {s t : Store} {e : RegistryError}

theorem map_failed {p : Reg A} {f : A → B} (failed : run (f <$> p) s = (.error e, t)) :
    run p s = (.error e, t) := by
  rw [run_map] at failed
  rcases ran : run p s with ⟨e' | a, u⟩
  · rw [ran] at failed
    cases failed
    rfl
  · rw [ran] at failed
    cases failed

theorem map_answered {p : Reg A} {f : A → B} {b : B} (ran : run (f <$> p) s = (.ok b, t)) :
    ∃ a, run p s = (.ok a, t) ∧ b = f a := by
  rw [run_map, andThen_ok_iff] at ran
  obtain ⟨a, u, first, last⟩ := ran
  cases last
  exact ⟨a, first, rfl⟩

/-- An operation that writes only once it can no longer fail. -/
theorem kept_of_cases {p : Reg A}
    (outcomes : (∃ e, run p s = (.error e, s)) ∨ ∃ a u, run p s = (.ok a, u))
    (failed : run p s = (.error e, t)) : t = s := by
  rcases outcomes with ⟨e', ran⟩ | ⟨a, u, ran⟩
  · rw [ran] at failed
    cases failed
    rfl
  · rw [ran] at failed
    cases failed

/-- Over a catalog no edit fails after its first write. -/
theorem edit_failed [UlidText] {c : Catalog} (hold : Consistent s c) {edit : Edit}
    (distinct : edit.draws.Nodup) (new : ∀ id ∈ edit.draws, id ∉ c.minted)
    (failed : run edit.perform s = (.error e, t)) : t = s := by
  have wk := hold.represents.kinded
  cases edit with
  | createGroup params id now draw =>
    refine kept_of_cases ?_ (map_failed failed)
    rcases createGroup_cases wk params id now draw with before | ⟨g, ran, _⟩
    · exact .inl before
    · exact .inr ⟨g, _, ran⟩
  | createRoute params ids now draw =>
    refine kept_of_cases ?_ (map_failed failed)
    have differ : ids.group ≠ ids.route := by simpa [Edit.draws] using distinct
    rcases createRoute_step hold params ids now draw (new _ (by simp [Edit.draws]))
      (new _ (by simp [Edit.draws])) differ with before | ⟨r, u, _, ran, _⟩
    · exact .inl before
    · exact .inr ⟨r, u, ran⟩
  | updateRoute groupRef number patch =>
    refine kept_of_cases ?_ (map_failed failed)
    rcases updateRoute_cases wk groupRef number patch with before | ⟨r, u, ran, _⟩
    · exact .inl before
    · exact .inr ⟨r, u, ran⟩
  | renameGroup groupRef newName =>
    refine kept_of_cases ?_ (map_failed failed)
    rcases renameGroup_step hold groupRef newName with before | ⟨g, ran, _⟩ | ⟨g, u, ran, _⟩
    · exact .inl before
    · exact .inr ⟨g, s, ran⟩
    · exact .inr ⟨_, u, ran⟩
  | patchGroup groupId ttlSeconds slidingTtl calloutEnabled =>
    refine kept_of_cases ?_ (map_failed failed)
    rcases patchGroup_cases wk groupId ttlSeconds slidingTtl calloutEnabled with
      before | ⟨_, g, ran, _⟩
    · exact .inl before
    · exact .inr ⟨g, _, ran⟩
  | refreshGroup groupId =>
    refine kept_of_cases ?_ (map_failed failed)
    rcases refreshGroup_cases wk groupId with before | ⟨g, ran, _⟩
    · exact .inl before
    · exact .inr ⟨g, _, ran⟩

end

/-- Whatever calls were made before, an edit that fails changes nothing. -/
theorem failed_edit_changes_nothing [UlidText] {s : CallState}
    (reached : Reached calls (fun _ _ => True) s) {edit : Edit} (possible : edit.Possible s.minted)
    {e : RegistryError} {t : Store} (failed : run edit.perform s.store = (.error e, t)) :
    t = s.store := by
  obtain ⟨c, held⟩ := calls_stored reached
  refine edit_failed held.consistent possible.1 ?_ failed
  intro id drawn inside
  exact (possible.2 id drawn).1 ((held.minted id).mp inside)

namespace Sample

/-- A group with a route, and a second group. -/
def twoGroups : List Call :=
  [.mutation (.createGroup (group "shop" "ann") idA 0 draw),
    .mutation (.createRoute (route "shop" "/a" "one" "ann") ⟨idB, idC⟩ 1 draw),
    .mutation (.createGroup (group "depot" "bob") idD 2 draw)]

/-- A name that is taken, for a group with a route. -/
def takenName : Edit := .renameGroup "shop" "depot"

end Sample

theorem failed_edit_changes_nothing_taken : ∃ (s : CallState) (e : RegistryError) (t : Store),
    Reached calls (fun _ _ => True) s ∧ s.store.backend = .inMemory ∧
      run Sample.takenName.perform s.store = (.error e, t) ∧ t = s.store := by
  have ran : ((exec calls ⟨Storage.empty .inMemory, []⟩ Sample.twoGroups).map
      (fun s => (s.store.backend, (run Sample.takenName.perform s.store).1.toOption))) =
      some (.inMemory, none) := by
    decide +kernel
  obtain ⟨s, done, facts⟩ := Option.map_eq_some_iff.mp ran
  obtain ⟨memory, failed⟩ := Prod.mk.inj facts
  have reached := reached_of_exec (m := calls) Sample.twoGroups ⟨.inMemory, rfl⟩ done
  rcases answer : run Sample.takenName.perform s.store with ⟨e | record, t⟩
  · exact ⟨s, e, t, reached, memory, answer,
      failed_edit_changes_nothing reached ⟨by simp [Sample.takenName, Edit.draws],
        by simp [Sample.takenName, Edit.draws]⟩ answer⟩
  · rw [answer] at failed
    cases failed

end WireMirage
