import WireMirage.Registry.Operations

/-!
What the commands and the reading operations of the registry answer, and the
states its writing operations leave, as total functions of the state before.
-/
namespace WireMirage
open Prog

/-! Commands -/

section Commands
variable {Err A : Type} [FromStoreError Key Err] {s : Store} {k : Key}

theorem run_deletes (keys : List Key) (s : Store) :
    run (forEach keys (fun k => (Bucket.delete k : Prog Store Err _))) s =
      (.ok (), Storage.eraseAll keys s) := by
  exact (run_forEach (fun _ => True) (fun k t => Storage.erase t k) keys
    (fun k => Bucket.delete k) (by simp) s trivial).1

@[simp] theorem run_deleteWithPrefix (p : KeyPrefix) :
    run (Bucket.deleteWithPrefix p : Prog Store Err _) s =
      (.ok (s.entries.keys.filter p.covers).length, s.without p.covers) := by
  have scanned : run (Bucket.scan p : Prog Store Err _) s =
      (.ok (s.entries.keys.filter p.covers), s) := by
    simp [Bucket.scan, Storage.scan, Except.mapError]
  simp only [Bucket.deleteWithPrefix, run_bind, scanned, andThen_ok, run_deletes, run_pure]
  rfl

theorem run_clearFields (fields : List String) (s : Store) (wk : s.WellKinded)
    (family : k.family = some .hash) :
    run (clearFields k fields) s = (.ok (), s.dropFields k fields) :=
  run_hashDeletes fields wk family

end Commands

/-! Reading -/

/-- What reading a group's record answers. -/
def groupAnswer (s : Store) (groupId : String) : Except RegistryError Group :=
  if (s.hashAt (.group groupId)).entries.isEmpty then .error .notFound
  else decodeGroup (s.hashAt (.group groupId))

/-- What reading a route's record answers. -/
def routeAnswer (s : Store) (routeId : String) : Except RegistryError Route :=
  if (s.hashAt (.route routeId)).entries.isEmpty then .error .notFound
  else decodeRoute (s.hashAt (.route routeId))

/-- A group id has a complete record. -/
def GroupAt (s : Store) (groupId : String) (g : Group) : Prop :=
  GroupFields (s.hashAt (.group groupId)) g

/-- A route id has a complete record. -/
def RouteAt (s : Store) (routeId : String) (r : Route) : Prop :=
  RouteFields (s.hashAt (.route routeId)) r

theorem lookup_of_isEmpty {h : Fields Val} (none : h.entries.isEmpty = true) (f : String) :
    h.lookup f = Option.none := by
  rw [Storage.hash_eq_empty_of_isEmpty none]
  exact AList.lookup_empty f

theorem groupAnswer_ok_iff {s : Store} {groupId : String} {g : Group} :
    groupAnswer s groupId = .ok g ↔ GroupAt s groupId g := by
  unfold groupAnswer GroupAt
  by_cases vacant : (s.hashAt (.group groupId)).entries.isEmpty = true
  · rw [if_pos vacant]
    constructor
    · intro impossible
      cases impossible
    · intro fields
      have := lookup_of_isEmpty vacant "id"
      simp [fields.id] at this
  · rw [if_neg vacant, decode_group_iff]

theorem routeAnswer_ok_iff {s : Store} {routeId : String} {r : Route} :
    routeAnswer s routeId = .ok r ↔ RouteAt s routeId r := by
  unfold routeAnswer RouteAt
  by_cases vacant : (s.hashAt (.route routeId)).entries.isEmpty = true
  · rw [if_pos vacant]
    constructor
    · intro impossible
      cases impossible
    · intro fields
      have := lookup_of_isEmpty vacant "id"
      simp [fields.id] at this
  · rw [if_neg vacant, decode_route_iff]

theorem group_at_of_answer {s : Store} {groupId : String} {g : Group}
    (answer : (groupAnswer s groupId).toOption = some g) : GroupAt s groupId g := by
  cases read : groupAnswer s groupId with
  | error e => simp [read, Except.toOption] at answer
  | ok g' =>
    simp only [read, Except.toOption, Option.some.injEq] at answer
    exact answer ▸ groupAnswer_ok_iff.mp read

theorem group_at_unique {s : Store} {gid : String} {g g' : Group} (one : GroupAt s gid g)
    (two : GroupAt s gid g') : g = g' := group_fields_unique one two

theorem route_at_of_answer {s : Store} {routeId : String}
    (answer : (routeAnswer s routeId).toOption.isSome) : ∃ r, RouteAt s routeId r := by
  cases read : routeAnswer s routeId with
  | error e => simp [read, Except.toOption] at answer
  | ok r => exact ⟨r, routeAnswer_ok_iff.mp read⟩

/-- What resolving a group reference answers. -/
def nameAnswer (s : Store) (reference : String) : Except RegistryError (Option String) :=
  match s.bytesAt (.groupByName reference) with
  | none => .ok none
  | some v =>
    match v.utf8 with
    | none => .error (.malformed "group:by-name value")
    | some id => .ok (some id)

def resolveAnswer [UlidText] (s : Store) (reference : String) :
    Except RegistryError (Option String) :=
  if UlidText.fromString reference ∧ reference ≠ "" ∧
      contains (s.hashAt (.group reference)) "id" then .ok (some reference)
  else nameAnswer s reference

section Reading
variable {s : Store} (wk : s.WellKinded)
include wk

theorem run_readGroup (gid : String) : run (readGroup gid) s = (groupAnswer s gid, s) := by
  unfold readGroup groupAnswer
  simp only [run_bind, run_hashGetAll wk (k := .group gid) rfl, andThen_ok, run_ite, run_fail,
    run_ofExcept]
  split <;> rfl

theorem run_readRoute (rid : String) : run (readRoute rid) s = (routeAnswer s rid, s) := by
  unfold readRoute routeAnswer
  simp only [run_bind, run_hashGetAll wk (k := .route rid) rfl, andThen_ok, run_ite, run_fail,
    run_ofExcept]
  split <;> rfl

theorem run_listRoutesFrom (k : Key) (family : k.family = some .set) :
    run (listRoutesFrom k) s = ((s.setAt k).mapM (routeAnswer s), s) := by
  unfold listRoutesFrom
  simp only [run_bind, run_setMembers wk family, andThen_ok]
  exact run_collect _ _ s (routeAnswer s) (fun rid _ => run_readRoute wk rid)

theorem run_resolveByName (reference : String) :
    run (resolveByName reference) s = (nameAnswer s reference, s) := by
  unfold resolveByName nameAnswer
  simp only [run_bind, run_get wk (k := .groupByName reference) rfl, andThen_ok]
  cases s.bytesAt (.groupByName reference) with
  | none => rfl
  | some v => cases read : v.utf8 <;> simp [read]

theorem run_resolveGroup [UlidText] (reference : String) :
    run (resolveGroup reference) s = (resolveAnswer s reference, s) := by
  unfold resolveGroup resolveAnswer
  by_cases text : UlidText.fromString reference ∧ reference ≠ ""
  · rw [if_pos text]
    simp only [run_bind, run_hashGetAll wk (k := .group reference) rfl, andThen_ok, run_ite,
      run_pure, run_resolveByName wk, text.1, text.2, ne_eq, not_false_eq_true, true_and]
    split <;> rfl
  · rw [if_neg text, run_resolveByName wk, if_neg]
    rintro ⟨one, two, _⟩
    exact text ⟨one, two⟩

theorem run_resolved [UlidText] (reference : String) :
    run (resolved reference) s =
      ((resolveAnswer s reference).bind
        (fun found => found.elim (.error .notFound) .ok), s) := by
  unfold resolved
  simp only [run_bind, run_resolveGroup wk]
  cases resolveAnswer s reference with
  | error e => rfl
  | ok found => cases found <;> rfl

end Reading

end WireMirage
