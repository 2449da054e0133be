import WireMirage.Library.Demolition
import WireMirage.Registry.Cascading
import WireMirage.Registry.StoredPaths

/-!
What groups leave behind whose record has lapsed, and its deletion among any number of others
that delete it too.
-/
namespace WireMirage
open Prog Site

/-! What a sweep takes away -/

/-- The parts of a store: the fields of hashes, the members of sets, other values whole. -/
inductive Piece where
  | whole (k : Key)
  | field (k : Key) (f : String)
  | member (k : Key) (x : String)
  deriving DecidableEq

namespace Piece

def key : Piece → Key
  | whole k => k
  | field k _ => k
  | member k _ => k

def held (s : Store) : Piece → Option (MemValue Val)
  | whole k => if k.family = some .hash ∨ k.family = some .set then none else s.lookup k
  | field k f => if k.family = some .hash then ((s.hashAt k).lookup f).map .bytes else none
  | member k x => if k.family = some .set ∧ x ∈ s.setAt k then some (.bytes (.text x)) else none

/-- What is of a group: what its keys hold, and its place and that of its routes in the lists. -/
def OfGroup (s : Store) (gid : String) (x : Piece) : Prop :=
  KeyOf s gid x.key ∨ x = .member .groupAll gid ∨ (∃ owner, x = .member (.groupOwner owner) gid) ∨
    ∃ rid ∈ s.setAt (.routeInGroup gid), x = .member .routeAll rid ∨
      ∃ owner, x = .member (.routeByOwner owner) rid

/-- What a deletion that finds no record of the group passes over: the callbacks, the state of
    routes deleted before, the name, the list of the owner's groups, and the sources of routes. -/
def PassedOver (s : Store) (gid : String) (x : Piece) : Prop :=
  passedOver s gid x.key ∨ (∃ name, x.key = .groupByName name) ∨
    (∃ owner, x.key = .groupOwner owner) ∨ ∃ rid, x = .field (.route rid) "source"

/-- What the sweep owes to take away of a group without a record. -/
def Due (s : Store) (gid : String) (x : Piece) : Prop := x.OfGroup s gid ∧ ¬ x.PassedOver s gid

/-- What the commands of the deletion of a group without a record may take away. -/
def falls (s : Store) (gid : String) (x : Piece) : Prop :=
  erasedWith s gid x.key ∨ (∃ n, x.key = .routeByNumber gid n) ∨ x = .member .groupAll gid ∨
    ∃ rid ∈ s.setAt (.routeInGroup gid), x = .member .routeAll rid ∨
      (∃ owner, x = .member (.routeByOwner owner) rid) ∨
      ∃ f ∈ cascadedRouteFields, x = .field (.route rid) f

end Piece

/-- A group that has routes but does not resolve any more. -/
def Orphaned [UlidText] (s : Store) (gid : String) : Prop :=
  (∃ rid, rid ∈ s.setAt (.routeInGroup gid)) ∧ ∀ g, (run (readGroupByRef gid) s).1 ≠ .ok g

/-- Every piece is as it was, or is one that is due of an orphaned group and gone. -/
def Spared [UlidText] (s t : Store) : Prop :=
  ∀ x : Piece, x.held t = x.held s ∨ x.held t = none ∧ ∃ gid, Orphaned s gid ∧ x.Due s gid

/-- What is due of the orphaned groups is gone, and nothing else. -/
structure Swept [UlidText] (s t : Store) : Prop where
  gone : ∀ gid (x : Piece), Orphaned s gid → x.Due s gid → x.held t = none
  kept : ∀ x : Piece, (∀ gid, Orphaned s gid → ¬ x.Due s gid) → x.held t = x.held s

/-- Of the group everything is as it was, or everything is gone but what is passed over, which
    is as it was. -/
def WholeOrGone (s t : Store) (gid : String) : Prop :=
  (∀ x : Piece, x.OfGroup s gid → x.held t = x.held s) ∨
    (∀ x : Piece, x.Due s gid → x.held t = none) ∧
      ∀ x : Piece, x.OfGroup s gid → x.PassedOver s gid → x.held t = x.held s

/-- What is passed over of one group is due of none. -/
theorem passed_not_due {s : Store} {gid h : String} {x : Piece} (past : x.PassedOver s gid) :
    ¬ x.Due s h := by
  rintro ⟨belongs, apart⟩
  rcases past with key | elsewhere
  · have same : h = gid := by
      rcases belongs with named | rfl | ⟨owner, rfl⟩ | ⟨rid, _, rfl | ⟨owner, rfl⟩⟩
      · generalize x.key = k at key named
        cases named with
        | names mine => cases k <;> simp_all [passedOver, Key.names]
        | route => exact key.elim
        | name => exact key.elim
      · exact key.elim
      · exact key.elim
      · exact key.elim
      · exact key.elim
    exact apart (.inl (same ▸ key))
  · exact apart (.inr elsewhere)

theorem due_of_falls {s : Store} {gid : String} {x : Piece} (falls : x.falls s gid) :
    x.Due s gid := by
  rcases falls with erased | ⟨n, numbered⟩ | rfl |
    ⟨rid, listed, rfl | ⟨owner, rfl⟩ | ⟨f, mine, rfl⟩⟩
  · have named : x.key.names gid = true := by
      generalize x.key = k at erased
      cases k <;> simp_all [erasedWith, Key.names]
    refine ⟨.inl (.names named), ?_⟩
    rintro (past | ⟨name, here⟩ | ⟨owner, here⟩ | ⟨rid, rfl⟩)
    · generalize x.key = k at erased past
      cases k <;> simp_all [erasedWith, passedOver]
    · rw [here] at erased
      exact erased
    · rw [here] at erased
      exact erased
    · exact erased
  · refine ⟨.inl (.names (by simp [numbered, Key.names])), ?_⟩
    rintro (past | ⟨name, here⟩ | ⟨owner, here⟩ | ⟨rid, rfl⟩)
    · rw [numbered] at past
      exact past
    · rw [numbered] at here
      cases here
    · rw [numbered] at here
      cases here
    · cases numbered
  · refine ⟨.inr (.inl rfl), ?_⟩
    rintro (past | ⟨name, here⟩ | ⟨owner, here⟩ | ⟨rid, here⟩)
    · exact past
    · cases here
    · cases here
    · cases here
  · refine ⟨.inr (.inr (.inr ⟨rid, listed, .inl rfl⟩)), ?_⟩
    rintro (past | ⟨name, here⟩ | ⟨owner, here⟩ | ⟨rid, here⟩)
    · exact past
    · cases here
    · cases here
    · cases here
  · refine ⟨.inr (.inr (.inr ⟨rid, listed, .inr ⟨owner, rfl⟩⟩)), ?_⟩
    rintro (past | ⟨name, here⟩ | ⟨owner, here⟩ | ⟨rid, here⟩)
    · exact past
    · cases here
    · cases here
    · cases here
  · refine ⟨.inl (.route listed), ?_⟩
    rintro (past | ⟨name, here⟩ | ⟨owner, here⟩ | ⟨rid, here⟩)
    · exact past
    · cases here
    · cases here
    · cases here
      exact absurd mine (by decide)

/-! Commands that take something away -/

def Command.removes : Command Key Val → Bool
  | .dropField _ _ => true
  | .erase _ => true
  | .dropMember _ _ => true
  | _ => false

def Command.hits : Command Key Val → Piece → Prop
  | .erase k, x => x.key = k
  | .dropField k f, x => x = .field k f
  | .dropMember k m, x => x = .member k m
  | _, _ => False

theorem held_congr {x : Piece} {t u : Store} (same : u.lookup x.key = t.lookup x.key) :
    x.held u = x.held t := by
  cases x with
  | whole k =>
    simp only [Piece.key] at same
    simp only [Piece.held, same]
  | field k f =>
    have hashes : u.hashAt k = t.hashAt k := congrArg Storage.asHash same
    simp only [Piece.held, hashes]
  | member k m =>
    have sets : u.setAt k = t.setAt k := congrArg (fun v => (Storage.asSet v).toList) same
    simp only [Piece.held, sets]

section Removing
variable {d : Command Key Val} {t : Store} {x : Piece}

theorem lookup_missed {k : Key} (other : k ≠ d.key) : (d.apply t).lookup k = t.lookup k :=
  Storage.lookup_of_entry (d.entry_apply t other)

variable (removes : d.removes = true) (typed : d.Typed)
include removes typed

theorem held_hit (hit : d.hits x) : x.held (d.apply t) = none := by
  cases d with
  | erase k =>
    have here : x.key = k := hit
    have gone : (t.erase k).lookup x.key = none := by
      rw [Storage.lookup_erase, if_pos here]
    rw [Command.apply, held_congr (t := Storage.empty .inMemory) (by simpa using gone)]
    cases x <;> simp [Piece.held, -Key.family]
  | dropField k f =>
    cases hit
    simp [Piece.held, Command.apply, -Key.family]
  | dropMember k m =>
    cases hit
    simp [Piece.held, Command.apply, Storage.mem_setAt_erase, -Key.family]
  | _ => simp [Command.removes] at removes

theorem held_missed (missed : ¬ d.hits x) : x.held (d.apply t) = x.held t := by
  by_cases other : x.key ≠ d.key
  · exact held_congr (lookup_missed other)
  rw [not_not] at other
  cases d with
  | erase k => exact absurd other missed
  | dropField k f =>
    have hash : k.family = some .hash := typed
    cases x with
    | whole k' =>
      obtain rfl : k' = k := other
      simp only [Piece.held, hash, true_or, if_true]
    | field k' f' =>
      obtain rfl : k' = k := other
      have differ : f' ≠ f := fun same => missed (same ▸ rfl)
      simp only [Piece.held, Command.apply, Storage.hashAt_dropField, if_true,
        AList.lookup_erase_ne differ]
    | member k' m =>
      obtain rfl : k' = k := other
      simp only [Piece.held, hash, Option.some.injEq, reduceCtorEq, false_and, if_false]
  | dropMember k m =>
    have set : k.family = some .set := typed
    cases x with
    | whole k' =>
      obtain rfl : k' = k := other
      simp only [Piece.held, set, or_true, if_true]
    | field k' f =>
      obtain rfl : k' = k := other
      simp only [Piece.held, set, Option.some.injEq, reduceCtorEq, if_false]
    | member k' m' =>
      obtain rfl : k' = k := other
      have differ : m' ≠ m := fun same => missed (same ▸ rfl)
      simp only [Piece.held, Command.apply, Storage.setAt_dropMember, if_true,
        Storage.mem_setAt_erase]
      simp only [ne_eq, differ, not_false_eq_true, true_and]
  | _ => simp [Command.removes] at removes

end Removing

/-! A store whose groups may have lapsed -/

/-- Group records and names are all that resolving a group reads. -/
def Key.leads : Key → Bool
  | .group _ => true
  | .groupByName _ => true
  | _ => false

/-- The routes are those of a catalog, and nothing is left of the record of an orphaned group. -/
structure Abandoned [UlidText] (s : Store) (c : Catalog) : Prop where
  kinded : s.WellKinded
  routes : RouteSide s c
  ids : ∀ {rid r}, c.routes rid = some r → r.id = rid
  lapsed : ∀ gid, Orphaned s gid → s.hashAt (.group gid) = ∅
  fields : ∀ rid f, (s.hashAt (.route rid)).lookup f ≠ none → f ∈ deletedRouteFields

/-- The pieces by which a route is found. -/
def Route.indexes (r : Route) : List Piece :=
  [.whole (.routeByNumber r.groupId r.number), .member (.routeInGroup r.groupId) r.id,
    .member .routeAll r.id, .member (.routeByOwner r.ownerId) r.id]

def Stripped (t : Store) (r : Route) : Prop := ∀ x ∈ r.indexes, x.held t = none

def Unmade (t : Store) (rid : String) : Prop := (t.hashAt (.route rid)).lookup "id" = none

/-- What any number of sweeps keep: a record whose fields they are clearing cannot be found
    any more. -/
structure Sweeping [UlidText] (s : Store) (c : Catalog) (t : Store) : Prop where
  kinded : t.WellKinded
  spared : Spared s t
  leads : ∀ k : Key, k.leads = true → t.lookup k = s.lookup k
  record : ∀ rid r, c.routes rid = some r → RouteAt t rid r ∨ Stripped t r ∧ Unmade t rid

def sweepSite [UlidText] (s : Store) (c : Catalog) : Site Store Piece String where
  valid := Sweeping s c
  stands x t := x.held t ≠ none
  pieces gid x := Orphaned s gid ∧ x.falls s gid ∧ x.held s ≠ none

section Sweeps
variable [UlidText] {s : Store} {c : Catalog}

theorem fallen_later {x : Piece} {t u : Store} (later : (sweepSite s c).Later t u)
    (fallen : x.held t = none) : x.held u = none := by
  by_contra stands
  exact later x stands fallen

theorem stripped_later {r : Route} {t u : Store} (later : (sweepSite s c).Later t u)
    (stripped : Stripped t r) : Stripped u r :=
  fun x index => fallen_later later (stripped x index)

omit [UlidText] in
theorem unmade_iff {t : Store} {rid : String} :
    Unmade t rid ↔ (Piece.field (.route rid) "id").held t = none := by
  simp [Unmade, Piece.held]

theorem unmade_later {rid : String} {t u : Store} (later : (sweepSite s c).Later t u)
    (unmade : Unmade t rid) : Unmade u rid :=
  unmade_iff.mpr (fallen_later later (unmade_iff.mp unmade))

/-! Which piece is taken away by what -/

section Felling

theorem succeeds_command {d : Command Key Val} (typed : d.Typed) :
    (sweepSite s c).Succeeds (d.prog : Reg Unit) :=
  succeeds_single d.single_prog fun t (ok : Sweeping s c t) =>
    ⟨(), congrArg Prod.fst (d.leads_prog typed t ok.kinded).1⟩

theorem fells_command {d : Command Key Val} (removes : d.removes = true) (typed : d.Typed)
    {x : Piece} (hit : d.hits x) : (sweepSite s c).Fells x (d.prog : Reg Unit) := by
  refine fells_single d.single_prog fun t (ok : Sweeping s c t) stands => ?_
  rw [(d.leads_prog typed t ok.kinded).1] at stands
  exact stands (held_hit removes typed hit)

theorem succeeds_deleteWithPrefix (p : KeyPrefix) :
    (sweepSite s c).Succeeds (Bucket.deleteWithPrefix p : Reg Nat) :=
  succeeds_bind (succeeds_single (single_atomic _) fun t _ =>
      ⟨t.entries.keys.filter p.covers, rfl⟩)
    fun _ => succeeds_bind
      (succeeds_forEach fun k _ => succeeds_command (d := .erase k) trivial) fun _ => trivial

theorem fells_deleteWithPrefix {p : KeyPrefix} {x : Piece} (covered : p.covers x.key = true) :
    (sweepSite s c).Fells x (Bucket.deleteWithPrefix p : Reg Nat) := by
  refine fells_single_bind (single_atomic _) fun t _ =>
    ⟨t.entries.keys.filter p.covers, t, by simp [Storage.scan, Except.mapError], ?_⟩
  by_cases stands : (sweepSite s c).stands x t
  · refine .inr (fells_bind (fells_forEach (a := x.key) ?_
      (fells_command (d := .erase x.key) rfl trivial rfl)
      fun k _ => succeeds_command (d := .erase k) trivial))
    refine List.mem_filter.mpr ⟨?_, covered⟩
    by_contra absent
    have nothing : t.lookup x.key = none := (Storage.lookup_eq_none_iff t x.key).mpr absent
    refine stands ?_
    cases x with
    | whole k => simp [Piece.held, show t.lookup k = none from nothing]
    | field k f => simp [Piece.held, Storage.hashAt, show t.lookup k = none from nothing,
        Storage.asHash]
    | member k m => simp [Piece.held, Storage.setAt, Storage.membersAt,
        show t.lookup k = none from nothing, Storage.asSet, Members.none]
  · exact .inl stands

theorem succeeds_stripIfRead (rid : String) : (sweepSite s c).Succeeds (stripIfRead rid) := by
  refine succeeds_bind (succeeds_attempt _) ?_
  rintro (e | r)
  · trivial
  · exact succeeds_bind (succeeds_command (d := .erase (.routeByNumber _ _)) trivial)
      fun _ => succeeds_bind (succeeds_command (d := .dropMember (.routeInGroup _) _) rfl)
      fun _ => succeeds_bind (succeeds_command (d := .dropMember .routeAll _) rfl)
      fun _ => succeeds_command (d := .dropMember (.routeByOwner _) _) rfl

theorem succeeds_clearFields (rid : String) (fields : List String) :
    (sweepSite s c).Succeeds (clearFields (.route rid) fields) :=
  succeeds_forEach fun f _ => succeeds_command (d := .dropField (.route rid) f) rfl

theorem succeeds_cascadeRoute (gid rid : String) :
    (sweepSite s c).Succeeds (cascadeRoute gid rid) :=
  succeeds_bind (succeeds_stripIfRead rid) fun _ =>
    succeeds_bind (succeeds_deleteWithPrefix _) fun _ =>
    succeeds_bind (succeeds_clearFields rid _) fun _ =>
    succeeds_command (d := .dropMember .routeAll rid) rfl

end Felling

variable (ab : Abandoned s c)
include ab

theorem sweeping_start : Sweeping s c s where
  kinded := ab.kinded
  spared := fun _ => .inl rfl
  leads := fun _ _ => rfl
  record := fun rid r live => .inl ((ab.routes.record rid r).mpr live)

theorem listed_route {gid rid : String} (listed : rid ∈ s.setAt (.routeInGroup gid)) :
    ∃ r, c.routes rid = some r ∧ r.id = rid ∧ r.groupId = gid := by
  obtain ⟨r, live, home⟩ := (ab.routes.inGroup gid rid).mp listed
  exact ⟨r, live, ab.ids live, home⟩

/-- What is due of an orphaned group, and there at all, is what the deletion takes away. -/
theorem falls_of_due {gid : String} (orphan : Orphaned s gid) {x : Piece} (due : x.Due s gid)
    (stands : x.held s ≠ none) : x.falls s gid := by
  obtain ⟨belongs | rfl | ⟨owner, rfl⟩ | ⟨rid, listed, mine⟩, apart⟩ := due
  · generalize here : x.key = k at belongs
    cases belongs with
    | names mine =>
      cases k with
      | group id =>
        obtain rfl : id = gid := by simpa [Key.names] using mine
        refine absurd ?_ stands
        cases x <;> cases here <;> simp [Piece.held, ab.lapsed _ orphan]
      | groupCounters id => exact .inl (by simpa [here, erasedWith, Key.names] using mine)
      | routeInGroup id => exact .inl (by simpa [here, erasedWith, Key.names] using mine)
      | gkv id key => exact .inl (by simpa [here, erasedWith, Key.names] using mine)
      | journal id entry => exact .inl (by simpa [here, erasedWith, Key.names] using mine)
      | journalByNumber id n => exact .inl (by simpa [here, erasedWith, Key.names] using mine)
      | routeByNumber id n =>
        obtain rfl : id = gid := by simpa [Key.names] using mine
        exact .inr (.inl ⟨n, here⟩)
      | kv id rid key =>
        obtain rfl : id = gid := by simpa [Key.names] using mine
        refine .inl ?_
        rw [here]
        refine ⟨rfl, ?_⟩
        by_contra unlisted
        exact apart (.inl (by rw [here]; exact ⟨rfl, unlisted⟩))
      | callback id entry =>
        exact absurd (.inl (by rw [here]; simpa [passedOver, Key.names] using mine)) apart
      | callbackByNumber id n =>
        exact absurd (.inl (by rw [here]; simpa [passedOver, Key.names] using mine)) apart
      | _ => simp [Key.names] at mine
    | @route rid listed =>
      cases x with
      | whole k =>
        cases here
        simp [Piece.held] at stands
      | member k m =>
        cases here
        simp [Piece.held] at stands
      | field k f =>
        cases here
        have known := ab.fields rid f (fun absent => stands (by simp [Piece.held, absent]))
        have other : f ≠ "source" := fun same => apart (.inr (.inr (.inr ⟨rid, same ▸ rfl⟩)))
        refine .inr (.inr (.inr ⟨rid, listed, .inr (.inr ⟨f, ?_, rfl⟩)⟩))
        simp only [deletedRouteFields, List.mem_cons, List.not_mem_nil, or_false] at known
        simp only [cascadedRouteFields, List.mem_cons, List.not_mem_nil, or_false]
        tauto
    | name => exact absurd (.inr (.inl ⟨_, here⟩)) apart
  · exact .inr (.inr (.inl rfl))
  · exact absurd (.inr (.inr (.inl ⟨owner, rfl⟩))) apart
  · rcases mine with rfl | owned
    · exact .inr (.inr (.inr ⟨rid, listed, .inl rfl⟩))
    · exact .inr (.inr (.inr ⟨rid, listed, .inr (.inl owned)⟩))

theorem listed_once {gid h rid : String} (one : rid ∈ s.setAt (.routeInGroup gid))
    (two : rid ∈ s.setAt (.routeInGroup h)) : gid = h := by
  obtain ⟨r, live, _, rfl⟩ := listed_route ab one
  obtain ⟨q, found, _, rfl⟩ := listed_route ab two
  rw [live, Option.some.injEq] at found
  rw [found]

/-- No piece is of two groups. -/
theorem falls_once {gid h : String} {x : Piece} (one : x.falls s gid) (two : x.falls s h) :
    gid = h := by
  have once : ∀ rid, rid ∈ s.setAt (.routeInGroup gid) → rid ∈ s.setAt (.routeInGroup h) →
      gid = h := fun rid => listed_once ab
  cases x with
  | whole k =>
    cases k <;> simp only [Piece.falls, Piece.key, erasedWith] at one two <;> grind
  | field k f =>
    cases k <;> simp only [Piece.falls, Piece.key, erasedWith] at one two <;> grind
  | member k m =>
    cases k <;> simp only [Piece.falls, Piece.key, erasedWith] at one two <;> grind

section Group
variable {gid : String} (orphan : Orphaned s gid)
include orphan

omit ab orphan in
theorem later_apply {d : Command Key Val} (removes : d.removes = true) (typed : d.Typed)
    (t : Store) : (sweepSite s c).Later t (d.apply t) := by
  intro x stands gone
  by_cases hit : d.hits x
  · exact stands (held_hit removes typed hit)
  · exact stands ((held_missed removes typed hit).trans gone)

omit ab in
/-- A step of a sweep; on the record of a route only once the route is stripped. -/
theorem sweeping_apply {d : Command Key Val} (removes : d.removes = true) (typed : d.Typed)
    (lead : d.key.leads = false) (mine : ∀ x, d.hits x → x.falls s gid) {t : Store}
    (ok : Sweeping s c t) (unmade : ∀ rid r, c.routes rid = some r → d.key = .route rid →
      Stripped t r ∧ Unmade (d.apply t) rid) : Sweeping s c (d.apply t) where
  kinded := d.wellKinded_apply typed ok.kinded
  spared := by
    intro x
    by_cases hit : d.hits x
    · exact .inr ⟨held_hit removes typed hit, gid, orphan, due_of_falls (mine x hit)⟩
    · rw [held_missed removes typed hit]
      exact ok.spared x
  leads := by
    intro k leads
    have other : k ≠ d.key := by
      rintro rfl
      rw [lead] at leads
      cases leads
    exact (lookup_missed other).trans (ok.leads k leads)
  record := by
    intro rid r live
    have later := later_apply (s := s) (c := c) removes typed t
    by_cases here : d.key = .route rid
    · obtain ⟨stripped, gone⟩ := unmade rid r live here
      exact .inr ⟨stripped_later later stripped, gone⟩
    · have same : (d.apply t).hashAt (.route rid) = t.hashAt (.route rid) :=
        congrArg Storage.asHash (lookup_missed (Ne.symm here))
      rcases ok.record rid r live with whole | ⟨stripped, gone⟩
      · refine .inl ?_
        unfold RouteAt
        rw [same]
        exact whole
      · exact .inr ⟨stripped_later later stripped, unmade_later later gone⟩

/-- A command that takes away pieces of an orphaned group only. -/
theorem performs_command {d : Command Key Val} (removes : d.removes = true)
    (typed : d.Typed) (lead : d.key.leads = false) (mine : ∀ x, d.hits x → x.falls s gid)
    {u : Store} (unmade : ∀ t, (sweepSite s c).Later u t → ∀ rid r, c.routes rid = some r →
      d.key = .route rid → Stripped t r ∧ Unmade (d.apply t) rid) :
    (sweepSite s c).Performs gid (fun _ t => ∀ x, d.hits x → x.held t = none)
      (d.prog : Reg Unit) u := by
  apply performs_single d.single_prog
  intro t since (ok : Sweeping s c t)
  refine ⟨_, _, (d.leads_prog typed t ok.kinded).1, ?_, ⟨later_apply removes typed t, ?_⟩, ?_⟩
  · exact sweeping_apply orphan removes typed lead mine ok (unmade t since)
  · intro h other x piece stands
    by_cases hit : d.hits x
    · exact absurd (falls_once ab piece.2.1 (mine x hit)) other
    · exact fun gone => stands ((held_missed removes typed hit).symm.trans gone)
  · exact fun v further x hit => fallen_later further (held_hit removes typed hit)

/-- One on another key than the record of a route. -/
theorem performs_index {d : Command Key Val} (removes : d.removes = true)
    (typed : d.Typed) (lead : d.key.leads = false) (apart : ∀ rid, d.key ≠ .route rid)
    (mine : ∀ x, d.hits x → x.falls s gid) (u : Store) :
    (sweepSite s c).Performs gid (fun _ t => ∀ x, d.hits x → x.held t = none)
      (d.prog : Reg Unit) u :=
  performs_command ab orphan removes typed lead mine
    fun _ _ rid _ _ here => absurd here (apart rid)

theorem performs_erase {k : Key} (lead : k.leads = false) (apart : ∀ rid, k ≠ .route rid)
    (mine : erasedWith s gid k) (u : Store) :
    (sweepSite s c).Performs gid (fun _ _ => True) (Bucket.delete k : Reg Unit) u :=
  performs_weaken (performs_index ab orphan (d := .erase k) rfl trivial lead apart
    (fun x hit => .inl (by rw [show x.key = k from hit]; exact mine)) u) fun _ _ _ => trivial

/-! The deletion of an orphaned group -/

theorem performs_stripRouteIndexes {r : Route}
    (listed : r.id ∈ s.setAt (.routeInGroup r.groupId)) (home : r.groupId = gid) {u : Store}
    (ok : Sweeping s c u) :
    (sweepSite s c).Performs gid (fun _ t => Stripped t r) (stripRouteIndexes r) u := by
  subst home
  refine performs_bind ok (performs_index ab orphan
    (d := .erase (.routeByNumber r.groupId r.number)) rfl trivial rfl (by simp [Command.key])
    (fun x hit => .inr (.inl ⟨_, hit⟩)) u) ?_
  intro _ t₁ ok₁ _ first
  refine performs_bind ok₁ (performs_index ab orphan
    (d := .dropMember (.routeInGroup r.groupId) r.id) rfl rfl rfl (by simp [Command.key])
    (fun x hit => .inl (by rw [show x = _ from hit]; rfl)) t₁) ?_
  intro _ t₂ ok₂ later₂ second
  refine performs_bind ok₂ (performs_index ab orphan (d := .dropMember .routeAll r.id) rfl rfl
    rfl (by simp [Command.key]) (fun x hit => .inr (.inr (.inr ⟨r.id, listed, .inl hit⟩))) t₂) ?_
  intro _ t₃ _ later₃ third
  have last := performs_index ab orphan (d := .dropMember (.routeByOwner r.ownerId) r.id) rfl
    rfl rfl (by simp [Command.key])
    (fun x hit => .inr (.inr (.inr ⟨r.id, listed, .inr (.inl ⟨_, hit⟩)⟩))) t₃
  have earlier : ∀ x ∈ [Piece.whole (.routeByNumber r.groupId r.number),
      .member (.routeInGroup r.groupId) r.id, .member .routeAll r.id], x.held t₃ = none := by
    simp only [List.mem_cons, List.not_mem_nil, or_false, forall_eq_or_imp, forall_eq]
    exact ⟨fallen_later later₃ (fallen_later later₂ (first _ rfl)),
      fallen_later later₃ (second _ rfl), third _ rfl⟩
  have stable : ∀ t v, (∀ x ∈ [Piece.whole (.routeByNumber r.groupId r.number),
      .member (.routeInGroup r.groupId) r.id, .member .routeAll r.id], x.held t = none) →
      (sweepSite s c).Later t v → ∀ x ∈ [Piece.whole (.routeByNumber r.groupId r.number),
      .member (.routeInGroup r.groupId) r.id, .member .routeAll r.id], x.held v = none :=
    fun _ _ known later x member => fallen_later later (known x member)
  refine performs_weaken (performs_keeping stable last earlier) ?_
  rintro _ t ⟨fourth, earlier⟩ x index
  simp only [Route.indexes, List.mem_cons, List.not_mem_nil, or_false] at index
  rcases index with rfl | rfl | rfl | rfl
  · exact earlier _ (by simp)
  · exact earlier _ (by simp)
  · exact earlier _ (by simp)
  · exact fourth _ rfl

/-- A record that does not read was stripped of its indexes by whoever clears it. -/
theorem performs_stripIfRead {r : Route} (live : c.routes r.id = some r)
    (listed : r.id ∈ s.setAt (.routeInGroup gid)) {u : Store} (ok : Sweeping s c u) :
    (sweepSite s c).Performs gid (fun _ t => Stripped t r) (stripIfRead r.id) u := by
  obtain ⟨q, found, _, home⟩ := listed_route ab listed
  rw [live, Option.some.injEq] at found
  subst found
  have read : (sweepSite s c).Performs gid
      (fun b t => b = .ok r ∨ (∃ e, b = .error e) ∧ Stripped t r)
      (attempt (readRoute r.id)) u := by
    apply performs_single (single_attempt (single_readRoute r.id))
    intro t _ (valid : Sweeping s c t)
    refine ⟨routeAnswer t r.id, t, ?_, valid, within_refl gid t, ?_⟩
    · rw [run_attempt, run_readRoute valid.kinded]
    · intro v later
      rcases valid.record r.id r live with whole | ⟨stripped, gone⟩
      · exact .inl (routeAnswer_ok_iff.mpr whole)
      · refine .inr ⟨?_, stripped_later later stripped⟩
        cases answer : routeAnswer t r.id with
        | error e => exact ⟨e, rfl⟩
        | ok q => exact absurd (routeAnswer_ok_iff.mp answer) (vacant_route gone q)
  refine performs_bind ok read ?_
  rintro b t valid _ (rfl | ⟨⟨e, rfl⟩, stripped⟩)
  · exact performs_stripRouteIndexes ab orphan (home ▸ listed) home valid
  · exact performs_pure fun v later => stripped_later later stripped

omit [UlidText] ab orphan in
theorem covers_apart {p : KeyPrefix} {k : Key} (covered : p.covers k = true) :
    k.leads = false ∧ ∀ rid, k ≠ .route rid := by
  cases p <;> cases k <;> simp [KeyPrefix.covers, Key.leads] at covered ⊢

theorem performs_deleteWithPrefix {p : KeyPrefix}
    (mine : ∀ k, p.covers k = true → erasedWith s gid k) {u : Store} (ok : Sweeping s c u) :
    (sweepSite s c).Performs gid (fun _ _ => True) (Bucket.deleteWithPrefix p : Reg Nat) u := by
  have scanned : (sweepSite s c).Performs gid (fun keys _ => ∀ k ∈ keys, p.covers k = true)
      (Bucket.scan p : Reg (List Key)) u := by
    apply performs_single (single_atomic _)
    intro t _ valid
    refine ⟨t.entries.keys.filter p.covers, t, ?_, valid, within_refl gid t, ?_⟩
    · simp [Storage.scan, Except.mapError]
    · exact fun _ _ k member => (List.mem_filter.mp member).2
  refine performs_bind ok scanned ?_
  intro keys t valid _ covered
  refine performs_bind valid (performs_forEach (Q := fun _ _ => True)
    (fun _ _ _ _ _ => trivial) valid ?_) fun _ _ _ _ _ => performs_pure fun _ _ => trivial
  intro k member t' _ _
  obtain ⟨lead, apart⟩ := covers_apart (covered k member)
  exact performs_erase ab orphan lead apart (mine k (covered k member)) t'

/-- Once a route is stripped, the fields of its record may go, the id first. -/
theorem performs_clearFields {r : Route} (live : c.routes r.id = some r)
    (listed : r.id ∈ s.setAt (.routeInGroup gid)) {u : Store} (ok : Sweeping s c u)
    (stripped : Stripped u r) :
    (sweepSite s c).Performs gid (fun _ t => Unmade t r.id)
      (clearFields (.route r.id) cascadedRouteFields) u := by
  have one : ∀ f ∈ cascadedRouteFields, ∀ u, Stripped u r → (f = "id" ∨ Unmade u r.id) →
      (sweepSite s c).Performs gid (fun _ t => Unmade t r.id)
        (Bucket.hashDelete (.route r.id) f : Reg Unit) u := by
    intro f member u stripped since
    have gone : ∀ t, (sweepSite s c).Later u t →
        Unmade ((Command.dropField (.route r.id) f).apply t) r.id := by
      intro t later
      unfold Unmade
      simp only [Command.apply, Storage.hashAt_dropField, if_true]
      by_cases first : "id" = f
      · rw [first, AList.lookup_erase]
      · rw [AList.lookup_erase_ne first]
        exact unmade_later later (since.resolve_left (Ne.symm first))
    have work := performs_command ab orphan (d := .dropField (.route r.id) f) (u := u) rfl rfl
      rfl (fun x hit => .inr (.inr (.inr ⟨r.id, listed, .inr (.inr ⟨f, member, hit⟩)⟩))) (by
        intro t later rid q found here
        cases here
        rw [live, Option.some.injEq] at found
        exact ⟨found ▸ stripped_later later stripped, gone t later⟩)
    rcases since with rfl | unmade
    · exact performs_weaken work fun _ _ fallen => unmade_iff.mpr (fallen _ rfl)
    · exact performs_weaken (performs_keeping (fun _ _ known later => unmade_later later known)
        work unmade) fun _ _ both => both.2
  show (sweepSite s c).Performs gid _ ((Bucket.hashDelete (.route r.id) "id" : Reg Unit) >>=
    fun _ => clearFields (.route r.id) cascadedRouteFields.tail) u
  refine performs_bind ok (one "id" (by simp [cascadedRouteFields]) u stripped (.inl rfl)) ?_
  intro _ t valid later unmade
  have others := performs_forEach (S := sweepSite s c) (g := gid) (Q := fun _ _ => True)
    (fun _ _ _ _ _ => trivial) valid
    (fun f (member : f ∈ cascadedRouteFields.tail) t' _ further =>
      performs_weaken (one f (List.mem_of_mem_tail member) t'
        (stripped_later (later_trans later further) stripped)
        (.inr (unmade_later further unmade))) fun _ _ _ => trivial)
  exact performs_weaken (performs_keeping (fun _ _ known later => unmade_later later known)
    others unmade) fun _ _ both => both.2

theorem performs_cascadeRoute {rid : String} (listed : rid ∈ s.setAt (.routeInGroup gid))
    {u : Store} (ok : Sweeping s c u) :
    (sweepSite s c).Performs gid (fun _ t => Unmade t rid) (cascadeRoute gid rid) u := by
  obtain ⟨r, live, rfl, _⟩ := listed_route ab listed
  refine performs_bind ok (performs_stripIfRead ab orphan live listed ok) ?_
  intro _ t₁ ok₁ _ stripped
  refine performs_bind ok₁ (performs_deleteWithPrefix ab orphan (p := .kvRoute gid r.id)
    (fun k covered => (erasedWith_iff s gid k).mpr (.inr ⟨r.id, listed, covered⟩)) ok₁) ?_
  intro _ t₂ ok₂ later₂ _
  refine performs_bind ok₂ (performs_clearFields ab orphan live listed ok₂
    (stripped_later later₂ stripped)) ?_
  intro _ t₃ _ _ unmade
  have last := performs_index ab orphan (d := .dropMember .routeAll r.id) rfl rfl rfl
    (by simp [Command.key]) (fun x hit => .inr (.inr (.inr ⟨r.id, listed, .inl hit⟩))) t₃
  exact performs_weaken (performs_keeping (fun _ _ known later => unmade_later later known)
    last unmade) fun _ _ both => both.2

omit [UlidText] ab orphan in
theorem erasedWith_namespace {k : Key} (mine : k = .routeInGroup gid ∨ k = .groupCounters gid ∨
    (KeyPrefix.gkv gid).covers k = true ∨ (KeyPrefix.journal gid).covers k = true ∨
    (KeyPrefix.journalByNumber gid).covers k = true) : erasedWith s gid k :=
  (erasedWith_iff s gid k).mpr (.inl mine)

/-- What the deletion of a group without a record does once the ids of its routes are read. -/
def cascadeListed (gid : String) (routeIds : List String) : Reg Nat := do
  Prog.forEach routeIds (cascadeRoute gid)
  Bucket.delete (.routeInGroup gid)
  let _ ← Bucket.deleteWithPrefix (.gkv gid)
  let _ ← Bucket.deleteWithPrefix (.journal gid)
  let _ ← Bucket.deleteWithPrefix (.journalByNumber gid)
  Bucket.delete (.groupCounters gid)
  Bucket.setRemove .groupAll gid
  return routeIds.length

theorem performs_cascadeListed {ids : List String}
    (listed : ∀ rid ∈ ids, rid ∈ s.setAt (.routeInGroup gid)) {u : Store}
    (ok : Sweeping s c u) :
    (sweepSite s c).Performs gid (fun _ t => ∀ rid ∈ ids, Unmade t rid)
      (cascadeListed gid ids) u := by
  refine performs_bind ok (performs_forEach (Q := fun rid t => Unmade t rid)
    (fun _ _ _ unmade later => unmade_later later unmade) ok
    fun rid member t valid _ => performs_cascadeRoute ab orphan (listed rid member) valid) ?_
  intro _ t₁ ok₁ _ unmade
  refine performs_weaken (performs_keeping (P := fun _ _ => True)
    (fun _ _ known later rid member => unmade_later later (known rid member)) ?_ unmade)
    fun _ _ both => both.2
  refine performs_bind ok₁
    (performs_erase ab orphan rfl (by simp) (erasedWith_namespace (.inl rfl)) t₁) ?_
  intro _ t₂ ok₂ _ _
  refine performs_bind ok₂ (performs_deleteWithPrefix ab orphan
    (fun k covered => erasedWith_namespace (.inr (.inr (.inl covered)))) ok₂) ?_
  intro _ t₃ ok₃ _ _
  refine performs_bind ok₃ (performs_deleteWithPrefix ab orphan
    (fun k covered => erasedWith_namespace (.inr (.inr (.inr (.inl covered))))) ok₃) ?_
  intro _ t₄ ok₄ _ _
  refine performs_bind ok₄ (performs_deleteWithPrefix ab orphan
    (fun k covered => erasedWith_namespace (.inr (.inr (.inr (.inr covered))))) ok₄) ?_
  intro _ t₅ ok₅ _ _
  refine performs_bind ok₅
    (performs_erase ab orphan rfl (by simp) (erasedWith_namespace (.inr (.inl rfl))) t₅) ?_
  intro _ t₆ ok₆ _ _
  refine performs_bind ok₆ (performs_index ab orphan (d := .dropMember .groupAll gid) rfl rfl
    rfl (by simp [Command.key]) (fun x hit => .inr (.inr (.inl hit))) t₆) ?_
  exact fun _ _ _ _ _ => performs_pure fun _ _ => trivial

end Group

/-! What of an orphaned group is taken away by what -/

section Felled
variable {gid : String}

/-- What stands under the number of a route is the index of that route. -/
theorem numbered_route {x : Piece} {n : Nat} (numbered : x.key = .routeByNumber gid n)
    (stood : x.held s ≠ none) : ∃ r, c.routes r.id = some r ∧
      r.id ∈ s.setAt (.routeInGroup gid) ∧ x = .whole (.routeByNumber r.groupId r.number) := by
  cases x with
  | field k f =>
    obtain rfl : k = _ := numbered
    simp [Piece.held] at stood
  | member k m =>
    obtain rfl : k = _ := numbered
    simp [Piece.held] at stood
  | whole k =>
    obtain rfl : k = _ := numbered
    have held : s.lookup (.routeByNumber gid n) ≠ none := by simpa [Piece.held] using stood
    obtain ⟨v, found⟩ := Option.ne_none_iff_exists'.mp held
    have kind := ab.kinded _ v .bytes found rfl
    cases v with
    | bytes b =>
      have here : s.bytesAt (.routeByNumber gid n) = some b := by
        rw [Storage.bytesAt, found, Storage.asBytes]
      obtain ⟨rid, r, _, live, rfl, rfl⟩ := ab.routes.byNumber gid n b here
      obtain rfl := ab.ids live
      exact ⟨r, live, (ab.routes.inGroup _ _).mpr ⟨r, live, rfl⟩, rfl⟩
    | list q => cases kind
    | hash h => cases kind
    | set ms => cases kind

omit ab in
/-- The indexes of a route go with it, or are gone when its record does not read. -/
theorem fells_stripIfRead {r : Route} (live : c.routes r.id = some r) {x : Piece}
    (index : x ∈ r.indexes) : (sweepSite s c).Fells x (stripIfRead r.id) := by
  refine fells_single_bind (single_attempt (single_readRoute r.id)) fun t (ok : Sweeping s c t) =>
    ⟨routeAnswer t r.id, t, by rw [run_attempt, run_readRoute ok.kinded], ?_⟩
  rcases ok.record r.id r live with whole | ⟨stripped, _⟩
  · refine .inr ?_
    rw [routeAnswer_ok_iff.mpr whole]
    simp only [Route.indexes, List.mem_cons, List.not_mem_nil, or_false] at index
    have first := succeeds_command (s := s) (c := c)
      (d := .erase (.routeByNumber r.groupId r.number)) trivial
    have second := succeeds_command (s := s) (c := c)
      (d := .dropMember (.routeInGroup r.groupId) r.id) rfl
    have third := succeeds_command (s := s) (c := c) (d := .dropMember .routeAll r.id) rfl
    rcases index with rfl | rfl | rfl | rfl
    · exact fells_bind (fells_command (d := .erase (.routeByNumber _ _)) rfl trivial rfl)
    · exact fells_after first fun _ =>
        fells_bind (fells_command (d := .dropMember (.routeInGroup _) _) rfl rfl rfl)
    · exact fells_after first fun _ => fells_after second fun _ =>
        fells_bind (fells_command (d := .dropMember .routeAll _) rfl rfl rfl)
    · exact fells_after first fun _ => fells_after second fun _ => fells_after third fun _ =>
        fells_command (d := .dropMember (.routeByOwner _) _) rfl rfl rfl
  · exact .inl fun stands => stands (stripped x index)

omit ab in
/-- The keys that are erased whole, and the group's place in the list of groups. -/
theorem fells_namespace {ids : List String} {x : Piece}
    (mine : (x.key = .routeInGroup gid ∨ x.key = .groupCounters gid ∨
      (KeyPrefix.gkv gid).covers x.key = true ∨ (KeyPrefix.journal gid).covers x.key = true ∨
      (KeyPrefix.journalByNumber gid).covers x.key = true) ∨ x = .member .groupAll gid) :
    (sweepSite s c).Fells x (cascadeListed gid ids) := by
  have loop : (sweepSite s c).Succeeds (Prog.forEach ids (cascadeRoute gid)) :=
    succeeds_forEach fun rid _ => succeeds_cascadeRoute gid rid
  have clear := fun p => succeeds_deleteWithPrefix (s := s) (c := c) p
  have members := succeeds_command (s := s) (c := c) (d := .erase (.routeInGroup gid)) trivial
  have counters := succeeds_command (s := s) (c := c) (d := .erase (.groupCounters gid)) trivial
  rcases mine with (here | here | here | here | here) | rfl
  · exact fells_after loop fun _ =>
      fells_bind (fells_command (d := .erase (.routeInGroup gid)) rfl trivial here)
  · exact fells_after loop fun _ => fells_after members fun _ => fells_after (clear _) fun _ =>
      fells_after (clear _) fun _ => fells_after (clear _) fun _ =>
      fells_bind (fells_command (d := .erase (.groupCounters gid)) rfl trivial here)
  · exact fells_after loop fun _ => fells_after members fun _ =>
      fells_bind (fells_deleteWithPrefix here)
  · exact fells_after loop fun _ => fells_after members fun _ => fells_after (clear _) fun _ =>
      fells_bind (fells_deleteWithPrefix here)
  · exact fells_after loop fun _ => fells_after members fun _ => fells_after (clear _) fun _ =>
      fells_after (clear _) fun _ => fells_bind (fells_deleteWithPrefix here)
  · exact fells_after loop fun _ => fells_after members fun _ => fells_after (clear _) fun _ =>
      fells_after (clear _) fun _ => fells_after (clear _) fun _ => fells_after counters fun _ =>
      fells_bind (fells_command (d := .dropMember .groupAll gid) rfl rfl rfl)

/-- Everything of an orphaned group that stood at first is taken away, route by route and
    then the rest. -/
theorem fells_cascadeListed {ids : List String}
    (all : ∀ rid ∈ s.setAt (.routeInGroup gid), rid ∈ ids) {x : Piece}
    (piece : (sweepSite s c).pieces gid x) :
    (sweepSite s c).Fells x (cascadeListed gid ids) := by
  obtain ⟨_, falls, stood⟩ := piece
  have inRoute : ∀ rid ∈ s.setAt (.routeInGroup gid),
      (sweepSite s c).Fells x (cascadeRoute gid rid) →
      (sweepSite s c).Fells x (cascadeListed gid ids) := fun rid listed fells =>
    fells_bind (fells_forEach (all rid listed) fells fun id _ => succeeds_cascadeRoute gid id)
  have index : ∀ r : Route, c.routes r.id = some r → r.id ∈ s.setAt (.routeInGroup gid) →
      x ∈ r.indexes → (sweepSite s c).Fells x (cascadeListed gid ids) :=
    fun r live listed mine => inRoute r.id listed (fells_bind (fells_stripIfRead live mine))
  rcases falls with erased | ⟨n, numbered⟩ | rfl |
    ⟨rid, listed, rfl | ⟨owner, rfl⟩ | ⟨f, mine, rfl⟩⟩
  · rcases (erasedWith_iff s gid x.key).mp erased with own | ⟨rid, listed, covered⟩
    · exact fells_namespace (.inl own)
    · exact inRoute rid listed (fells_after (succeeds_stripIfRead rid) fun _ =>
        fells_bind (fells_deleteWithPrefix covered))
  · obtain ⟨r, live, listed, rfl⟩ := numbered_route ab numbered stood
    exact index r live listed (by simp [Route.indexes])
  · exact fells_namespace (.inr rfl)
  · obtain ⟨r, live, rfl, _⟩ := listed_route ab listed
    exact index r live listed (by simp [Route.indexes])
  · -- A route stands in the list of its own owner only.
    obtain ⟨r, live, rfl, _⟩ := listed_route ab listed
    refine index r live listed ?_
    have owned : r.id ∈ s.setAt (.routeByOwner owner) := by
      by_contra absent
      simp [Piece.held, absent] at stood
    obtain ⟨q, found, mine⟩ := (ab.routes.byOwner owner r.id).mp owned
    rw [live, Option.some.injEq] at found
    subst found
    simp [Route.indexes, mine]
  · refine inRoute rid listed (fells_after (succeeds_stripIfRead rid) fun _ =>
      fells_after (succeeds_deleteWithPrefix _) fun _ => fells_bind (fells_forEach mine
        (fells_command (d := .dropField (.route rid) f) rfl rfl rfl)
        fun f _ => succeeds_command (d := .dropField (.route rid) f) rfl))

omit ab in
theorem succeeds_cascadeListed (ids : List String) :
    (sweepSite s c).Succeeds (cascadeListed gid ids) :=
  succeeds_bind (succeeds_forEach fun rid _ => succeeds_cascadeRoute gid rid) fun _ =>
    succeeds_bind (succeeds_command (d := .erase (.routeInGroup gid)) trivial) fun _ =>
    succeeds_bind (succeeds_deleteWithPrefix _) fun _ =>
    succeeds_bind (succeeds_deleteWithPrefix _) fun _ =>
    succeeds_bind (succeeds_deleteWithPrefix _) fun _ =>
    succeeds_bind (succeeds_command (d := .erase (.groupCounters gid)) trivial) fun _ =>
    succeeds_bind (succeeds_command (d := .dropMember .groupAll gid) rfl) fun _ => trivial

end Felled

end Sweeps

end WireMirage
