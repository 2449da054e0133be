import WireMirage.Library.Paging
import WireMirage.Journal.Filters
import WireMirage.Store.Handles
import WireMirage.Registry.ReadBack
import WireMirage.Auth.Records

/-!
The listings of routes and groups a page at a time. Each request reads the set anew, in
whatever order the store enumerates it, and sorts what its filters let pass.
-/
namespace WireMirage
open Prog StepMachine Paging

/-! Parameters -/

inductive ListingError where
  | badSort (value : String)
  | badDir (value : String)
  | badLimit (value : String)
  | ownerNonAdmin
  | filter (e : FilterParseError)
  | registry (e : RegistryError)
  deriving DecidableEq

inductive SortDir where
  | asc
  | desc
  deriving DecidableEq, Repr

def SortDir.parse (raw : Option String) (fallback : SortDir) : Except ListingError SortDir :=
  match raw with
  | none => .ok fallback
  | some s =>
    if toAsciiLowercase s.toList = "asc".toList then .ok .asc
    else if toAsciiLowercase s.toList = "desc".toList then .ok .desc
    else .error (.badDir s)

def SortDir.applied : SortDir → Ordering → Ordering
  | .asc, ord => ord
  | .desc, ord => ord.swap

def defaultListLimit : Nat := 50
def maxListLimit : Nat := 200

def parsePagination (offset limit : Option Nat) : Except ListingError (Nat × Nat) :=
  let rawLimit := limit.getD defaultListLimit
  if rawLimit = 0 then .error (.badLimit "0") else .ok (offset.getD 0, min rawLimit maxListLimit)

inductive RouteSortKey where
  | createdAt
  | lastHitAt
  | hitsTotal
  deriving DecidableEq, Repr

def parseRouteSort (raw : Option String) : Except ListingError RouteSortKey :=
  match raw with
  | none => .ok .createdAt
  | some "created_at" => .ok .createdAt
  | some "last_hit_at" => .ok .lastHitAt
  | some "hits_total" => .ok .hitsTotal
  | some other => .error (.badSort other)

inductive GroupSortKey where
  | createdAt
  | name
  | lastActivityAt
  deriving DecidableEq, Repr

def parseGroupSort (raw : Option String) : Except ListingError GroupSortKey :=
  match raw with
  | none => .ok .createdAt
  | some "created_at" => .ok .createdAt
  | some "name" => .ok .name
  | some "last_activity_at" => .ok .lastActivityAt
  | some other => .error (.badSort other)

/-- What was never active comes before everything that was. -/
def compareActivity : Option Time → Option Time → Ordering
  | some x, some y => compare x y
  | some _, none => .gt
  | none, some _ => .lt
  | none, none => .eq

def RouteSortKey.order : RouteSortKey → Route → Route → Ordering
  | .createdAt, a, b => compare a.createdAt b.createdAt
  | .lastHitAt, a, b => compareActivity a.lastHitAt b.lastHitAt
  | .hitsTotal, a, b => compare a.hitsTotal b.hitsTotal

def GroupSortKey.order : GroupSortKey → Group → Group → Ordering
  | .createdAt, a, b => compare a.createdAt b.createdAt
  | .name, a, b => compare a.name b.name
  | .lastActivityAt, a, b => compareActivity a.lastActivityAt b.lastActivityAt

def notAfter {A : Type} (order : A → A → Ordering) (dir : SortDir) (a b : A) : Bool :=
  (dir.applied (order a b)).isLE

def sortRoutes (key : RouteSortKey) (dir : SortDir) (routes : List Route) : List Route :=
  routes.mergeSort (notAfter key.order dir)

def sortGroups (key : GroupSortKey) (dir : SortDir) (groups : List Group) : List Group :=
  groups.mergeSort (notAfter key.order dir)

/-! Filters -/

def matchesSinceUntil (active : Option Time) (since until_ : Option Time) : Bool :=
  if since.isNone && until_.isNone then true
  else
    match active with
    | none => false
    | some ts => !(since.any (fun s => ts < s)) && !(until_.any (fun u => u < ts))

/-- A text holds another, letters of either case alike. -/
def holdsNeedle (text needle : String) : Bool :=
  toAsciiLowercase needle.toList <:+: toAsciiLowercase text.toList

def routeMatchesQ (r : Route) (needle : String) : Bool :=
  holdsNeedle r.path needle || r.methods.any (fun m => holdsNeedle m needle)

structure RoutesListQuery where
  group : Option String
  ownerId : Option String
  method : Option String
  pathPattern : Option String
  since : Option String
  until_ : Option String
  q : Option String
  sort : Option String
  dir : Option String
  offset : Option Nat
  limit : Option Nat
  deriving DecidableEq, Repr

structure GroupsListQuery where
  ownerId : Option String
  namePrefix : Option String
  q : Option String
  since : Option String
  until_ : Option String
  implicit : Option Bool
  sort : Option String
  dir : Option String
  offset : Option Nat
  limit : Option Nat
  deriving DecidableEq, Repr

/-- The parameters of a listing that are read before it. -/
structure ListingOptions (Key : Type) where
  offset : Nat
  limit : Nat
  dir : SortDir
  sortKey : Key
  method : Option String
  since : Option Time
  until_ : Option Time
  ownerFilter : Option String

def optionalFilter {A B : Type} (parse : A → Except FilterParseError B) :
    Option A → Except ListingError (Option B)
  | none => .ok none
  | some a => (parse a).map some |>.mapError .filter

/-- Callers who are no admins list what is their own. -/
def ownerFilter (auth : AuthContext) (ownerId : Option String) :
    Except ListingError (Option String) :=
  if auth.isAdmin then .ok ownerId
  else if ownerId.isSome then .error .ownerNonAdmin
  else .ok (some auth.userId)

section Listings
variable (parseSince : String → Except FilterParseError Time) (auth : AuthContext)

def RoutesListQuery.options (q : RoutesListQuery) :
    Except ListingError (ListingOptions RouteSortKey) := do
  let (offset, limit) ← parsePagination q.offset q.limit
  let dir ← SortDir.parse q.dir .desc
  let sortKey ← parseRouteSort q.sort
  let method ← optionalFilter validateMethod q.method
  let since ← optionalFilter parseSince q.since
  let until_ ← optionalFilter parseSince q.until_
  let ownerFilter ← ownerFilter auth q.ownerId
  return { offset, limit, dir, sortKey, method, since, until_, ownerFilter }

def GroupsListQuery.options (q : GroupsListQuery) :
    Except ListingError (ListingOptions GroupSortKey) := do
  let (offset, limit) ← parsePagination q.offset q.limit
  let dir ← SortDir.parse q.dir .desc
  let sortKey ← parseGroupSort q.sort
  let since ← optionalFilter parseSince q.since
  let until_ ← optionalFilter parseSince q.until_
  let ownerFilter ← ownerFilter auth q.ownerId
  return { offset, limit, dir, sortKey, method := none, since, until_, ownerFilter }

def RoutesListQuery.passes (q : RoutesListQuery) (o : ListingOptions RouteSortKey) (r : Route) :
    Bool :=
  o.ownerFilter.all (fun owner => r.ownerId = owner) &&
    q.group.all (fun g => r.groupName = g || r.groupId = g) &&
    o.method.all (fun m => r.methods.any (fun rm => rm = m)) &&
    q.pathPattern.all (fun p => globMatch p r.path) &&
    matchesSinceUntil r.lastHitAt o.since o.until_ &&
    q.q.all (fun needle => routeMatchesQ r needle)

def GroupsListQuery.passes (q : GroupsListQuery) (o : ListingOptions GroupSortKey) (g : Group) :
    Bool :=
  q.namePrefix.all (fun p => startsWith p g.name) &&
    q.q.all (fun needle => holdsNeedle g.name needle) &&
    matchesSinceUntil g.lastActivityAt o.since o.until_ &&
    q.implicit.all (fun want => g.implicit = want)

/-- The order that a store enumerates the members of a set in. -/
structure Enumeration where
  order : List String → List String
  perm : ∀ ids, (order ids).Perm ids

def enumeratedMembers (e : Enumeration) (k : Key) : Reg (List String) := do
  let ids ← Bucket.setMembers k
  return e.order ids

def listRoutesIn (e : Enumeration) : Reg (List Route) := do
  let ids ← enumeratedMembers e .routeAll
  Prog.collect ids readRoute

/-- Groups whose records cannot be read are left out. -/
def listGroupsIn (e : Enumeration) (k : Key) : Reg (List Group) := do
  let ids ← enumeratedMembers e k
  let answers ← Prog.collect ids (fun id => Prog.attempt (readGroup id))
  return answers.filterMap Except.toOption

def groupsKey : Option String → Key
  | some owner => .groupOwner owner
  | none => .groupAll

def listRoutesCore (e : Enumeration) (q : RoutesListQuery) :
    Prog Store ListingError (Page Route) := do
  let o ← Prog.ofExcept (q.options parseSince auth)
  let all ← Prog.mapError ListingError.registry (listRoutesIn e)
  return slice (sortRoutes o.sortKey o.dir (all.filter (q.passes o))) o.offset o.limit

def listGroupsCore (e : Enumeration) (q : GroupsListQuery) :
    Prog Store ListingError (Page Group) := do
  let o ← Prog.ofExcept (q.options parseSince auth)
  let all ← Prog.mapError ListingError.registry (listGroupsIn e (groupsKey o.ownerFilter))
  return slice (sortGroups o.sortKey o.dir (all.filter (q.passes o))) o.offset o.limit

end Listings

/-! Orders -/

def activityRank : Option Time → Nat
  | none => 0
  | some t => t + 1

theorem compareActivity_eq (x y : Option Time) :
    compareActivity x y = compare (activityRank x) (activityRank y) := by
  cases x <;> cases y <;> simp [compareActivity, activityRank, Nat.compare_eq_ite_lt]

instance routeOrder_trans (key : RouteSortKey) : Std.TransCmp key.order := by
  cases key with
  | createdAt => exact inferInstanceAs (Std.TransCmp (compareOn Route.createdAt))
  | hitsTotal => exact inferInstanceAs (Std.TransCmp (compareOn Route.hitsTotal))
  | lastHitAt =>
    have ranked : RouteSortKey.lastHitAt.order = compareOn (activityRank ∘ Route.lastHitAt) := by
      funext a b
      exact compareActivity_eq _ _
    rw [ranked]
    infer_instance

instance groupOrder_trans (key : GroupSortKey) : Std.TransCmp key.order := by
  cases key with
  | createdAt => exact inferInstanceAs (Std.TransCmp (compareOn Group.createdAt))
  | name => exact inferInstanceAs (Std.TransCmp (compareOn Group.name))
  | lastActivityAt =>
    have ranked : GroupSortKey.lastActivityAt.order =
        compareOn (activityRank ∘ Group.lastActivityAt) := by
      funext a b
      exact compareActivity_eq _ _
    rw [ranked]
    infer_instance

section Order
variable {A : Type} {order : A → A → Ordering} [Std.TransCmp order] (dir : SortDir)

theorem notAfter_desc (a b : A) : notAfter order .desc a b = notAfter order .asc b a := by
  show (order a b).swap.isLE = (order b a).isLE
  have swapped : order b a = (order a b).swap := Std.OrientedCmp.eq_swap
  rw [swapped]

theorem notAfter_trans (a b c : A) (first : notAfter order dir a b)
    (second : notAfter order dir b c) : notAfter order dir a c := by
  cases dir with
  | asc => exact @Std.TransCmp.isLE_trans _ order _ _ _ _ first second
  | desc =>
    rw [notAfter_desc] at first second ⊢
    exact @Std.TransCmp.isLE_trans _ order _ _ _ _ second first

theorem notAfter_total (a b : A) : notAfter order dir a b || notAfter order dir b a := by
  have ascending : notAfter order .asc a b || notAfter order .asc b a := by
    show ((order a b).isLE || (order b a).isLE) = true
    have swapped : order b a = (order a b).swap := Std.OrientedCmp.eq_swap
    rw [swapped]
    cases order a b <;> rfl
  cases dir with
  | asc => exact ascending
  | desc =>
    rw [notAfter_desc, notAfter_desc, Bool.or_comm]
    exact ascending

end Order

/-! Pages of records that are read by their ids -/

section Records
variable {A : Type} (read : String → Option A) (passes : A → Bool)

/-- The records of a list of ids that a filter lets pass. -/
def passing (ids : List String) : List A := (ids.filterMap read).filter passes

end Records

section Records
variable {A : Type} {read : String → Option A} {passes : A → Bool} {name : A → String}

theorem mem_passing {ids : List String} {a : A} :
    a ∈ passing read passes ids ↔ passes a = true ∧ ∃ id ∈ ids, read id = some a := by
  simp only [passing, List.mem_filter, List.mem_filterMap, and_comm]

theorem passing_names (named : ∀ id a, read id = some a → name a = id) (ids : List String) :
    (passing read passes ids).map name = ids.filter (fun id => (read id).any passes) := by
  induction ids with
  | nil => rfl
  | cons id ids ih =>
    cases answer : read id with
    | none => simpa [passing, answer] using ih
    | some a =>
      by_cases fits : passes a = true
      · simpa [passing, answer, fits, named id a answer] using ih
      · simpa [passing, answer, fits] using ih

theorem passing_nodup (named : ∀ id a, read id = some a → name a = id) {ids : List String}
    (nodup : ids.Nodup) : (passing read passes ids).Nodup := by
  apply List.Nodup.of_map name
  rw [passing_names named]
  exact nodup.filter _

/-- Any order of the records that pass comes from an order of the ids. -/
theorem order_of_passing (named : ∀ id a, read id = some a → name a = id) {ids : List String}
    {found : List A} (perm : found.Perm (passing read passes ids)) :
    ∃ order : List String, order.Perm ids ∧ passing read passes order = found := by
  let rest := ids.filter (fun id => ! (read id).any passes)
  refine ⟨found.map name ++ rest, ?_, ?_⟩
  · have names := (perm.map name).trans (List.Perm.of_eq (passing_names named ids))
    exact (names.append_right rest).trans (List.filter_append_perm _ ids)
  · have first : passing read passes (found.map name) = found := by
      have each : ∀ a ∈ found, read (name a) = some a ∧ passes a = true := by
        intro a member
        obtain ⟨fits, id, _, answer⟩ := mem_passing.mp (perm.mem_iff.mp member)
        rw [named id a answer]
        exact ⟨answer, fits⟩
      clear perm
      induction found with
      | nil => rfl
      | cons a found ih =>
        obtain ⟨answer, fits⟩ := each a List.mem_cons_self
        have later := ih (fun b member => each b (List.mem_cons_of_mem _ member))
        simp only [passing, List.map_cons, List.filterMap_cons, answer, List.filter_cons, fits,
          if_pos] at later ⊢
        rw [later]
    have last : passing read passes rest = [] := by
      rw [List.eq_nil_iff_forall_not_mem]
      intro a member
      obtain ⟨fits, id, kept, answer⟩ := mem_passing.mp member
      have refused := (List.mem_filter.mp kept).2
      simp [answer, fits] at refused
    rw [passing, List.filterMap_append, List.filter_append]
    show passing read passes _ ++ passing read passes rest = _
    rw [first, last, List.append_nil]

/-- However the ids are enumerated for each page, the pages hold every record that passes once
    exactly when no page ends between two records of equal sort keys. -/
theorem enumerated_cover_iff (named : ∀ id a, read id = some a → name a = id)
    {order : A → A → Ordering} [Std.TransCmp order] (dir : SortDir) {ids : List String}
    (nodup : ids.Nodup) {limit : Nat} (pos : 0 < limit) :
    (∀ e : Nat → Enumeration, ∃ seen,
      Follows (fun k offset => some (slice
        ((passing read passes ((e k).order ids)).mergeSort (notAfter order dir)) offset limit))
        0 0 seen ∧ seen.Perm (passing read passes ids)) ↔
      Separated (notAfter order dir) ((passing read passes ids).mergeSort (notAfter order dir))
        limit := by
  rw [← covers_iff (notAfter_trans dir) (notAfter_total dir) (passing_nodup named nodup) pos]
  constructor
  · intro covered found perm
    choose orders permuted listed using fun k => order_of_passing named (perm k)
    let e : Nat → Enumeration := fun k =>
      { order := fun l => if l = ids then orders k else l
        perm := by
          intro l
          split
          · rename_i same
            exact same ▸ permuted k
          · exact List.Perm.refl l }
    have given : ∀ k, passing read passes ((e k).order ids) = found k := by
      intro k
      rw [show (e k).order ids = orders k from if_pos rfl, listed]
    have seen := covered e
    simp only [given] at seen
    exact seen
  · intro covered e
    apply covered (fun k => passing read passes ((e k).order ids))
    intro k
    exact ((((e k).perm ids).filterMap read).filter passes)

end Records

/-! The two listings -/

section Requests
variable {parseSince : String → Except FilterParseError Time} {auth : AuthContext}

theorem parsePagination_ok {offset limit : Option Nat} {o l : Nat}
    (parsed : parsePagination offset limit = .ok (o, l)) :
    0 < l ∧ ∀ k, parsePagination (some k) limit = .ok (k, l) := by
  simp only [parsePagination] at parsed ⊢
  split at parsed
  · cases parsed
  · rename_i some_
    cases parsed
    refine ⟨?_, fun k => ?_⟩
    · unfold maxListLimit
      omega
    · rw [if_neg some_, Option.getD_some]

theorem RoutesListQuery.options_offset {q : RoutesListQuery} {o : ListingOptions RouteSortKey}
    (valid : q.options parseSince auth = .ok o) :
    0 < o.limit ∧ ∀ k, ({ q with offset := some k } : RoutesListQuery).options parseSince auth =
      .ok { o with offset := k } := by
  simp only [RoutesListQuery.options, ok_bind_iff] at valid ⊢
  obtain ⟨⟨offset, limit⟩, paged, dir, dirs, key, sorts, method, methods, since, sinces, until_,
    untils, owner, owners, whole⟩ := valid
  cases whole
  obtain ⟨pos, again⟩ := parsePagination_ok paged
  exact ⟨pos, fun k => ⟨_, again k, _, dirs, _, sorts, _, methods, _, sinces, _, untils, _, owners,
    rfl⟩⟩

theorem GroupsListQuery.options_offset {q : GroupsListQuery} {o : ListingOptions GroupSortKey}
    (valid : q.options parseSince auth = .ok o) :
    0 < o.limit ∧ ∀ k, ({ q with offset := some k } : GroupsListQuery).options parseSince auth =
      .ok { o with offset := k } := by
  simp only [GroupsListQuery.options, ok_bind_iff] at valid ⊢
  obtain ⟨⟨offset, limit⟩, paged, dir, dirs, key, sorts, since, sinces, until_, untils, owner,
    owners, whole⟩ := valid
  cases whole
  obtain ⟨pos, again⟩ := parsePagination_ok paged
  exact ⟨pos, fun k => ⟨_, again k, _, dirs, _, sorts, _, sinces, _, untils, _, owners, rfl⟩⟩

end Requests

section Reading
variable {s : Store} (e : Enumeration)

theorem ok_of_toOption {A E : Type} {r : Except E A} {a : A} (some_ : r.toOption = some a) :
    r = .ok a := by
  cases r <;> cases some_
  rfl

theorem mapM_readable {A : Type} {answer : String → Except RegistryError A} {ids : List String}
    (all : ∀ id ∈ ids, (answer id).toOption.isSome) :
    ids.mapM answer = .ok (ids.filterMap (fun id => (answer id).toOption)) := by
  induction ids with
  | nil => rfl
  | cons id ids ih =>
    have here := all id List.mem_cons_self
    have later := ih (fun x member => all x (List.mem_cons_of_mem id member))
    rw [List.mapM_cons, later]
    cases read : answer id with
    | error err =>
      rw [read] at here
      cases here
    | ok a =>
      rw [List.filterMap_cons, read]
      rfl

theorem readable_of_mapM {A : Type} {answer : String → Except RegistryError A} {ids : List String}
    {as : List A} (all : ids.mapM answer = .ok as) : ∀ id ∈ ids, (answer id).toOption.isSome := by
  induction ids generalizing as with
  | nil => simp
  | cons id ids ih =>
    simp only [List.mapM_cons, ok_bind_iff] at all
    obtain ⟨a, read, rest, later, _⟩ := all
    intro x member
    rcases List.mem_cons.mp member with rfl | member
    · rw [read]
      rfl
    · exact ih later x member

theorem run_listRoutesIn (wk : s.WellKinded) :
    run (listRoutesIn e) s = ((e.order (s.setAt .routeAll)).mapM (routeAnswer s), s) := by
  unfold listRoutesIn enumeratedMembers
  simp only [run_bind, run_setMembers wk (k := .routeAll) rfl, andThen_ok, run_pure]
  exact run_collect _ _ s (routeAnswer s) (fun rid _ => run_readRoute wk rid)

theorem run_listGroupsIn (wk : s.WellKinded) (owner : Option String) :
    run (listGroupsIn e (groupsKey owner)) s =
      (.ok ((e.order (s.setAt (groupsKey owner))).filterMap
        (fun id => (groupAnswer s id).toOption)), s) := by
  have family : KeyKinds.kindOf (groupsKey owner) = some .set := by cases owner <;> rfl
  have each : run (Prog.collect (e.order (s.setAt (groupsKey owner)))
      (fun id => Prog.attempt (readGroup id))) s =
      ((e.order (s.setAt (groupsKey owner))).mapM
        (fun id => (.ok (groupAnswer s id) : Except RegistryError _)), s) := by
    apply run_collect
    intro id _
    rw [run_attempt, run_readGroup wk]
  have pure_ : ∀ ids : List String, ids.mapM
      (fun id => (.ok (groupAnswer s id) : Except RegistryError _)) =
        .ok (ids.map (groupAnswer s)) := by
    intro ids
    induction ids with
    | nil => rfl
    | cons id ids ih =>
      rw [List.mapM_cons, ih]
      rfl
  unfold listGroupsIn enumeratedMembers
  simp only [run_bind, run_setMembers wk family, andThen_ok, run_pure, each, pure_]
  rw [List.filterMap_map]
  rfl

end Reading

/-- The records that a registry holds under the ids of a set, as far as they can be read. -/
def routesHeld (s : Store) : List Route :=
  (s.setAt .routeAll).filterMap (fun id => (routeAnswer s id).toOption)

def groupsHeld (s : Store) (k : Key) : List Group :=
  (s.setAt k).filterMap (fun id => (groupAnswer s id).toOption)

section Claims
variable (parseSince : String → Except FilterParseError Time) (auth : AuthContext) (s : Store)

def PagesCoverRoutes (q : RoutesListQuery) (o : ListingOptions RouteSortKey) : Prop :=
  ∀ e : Nat → Enumeration, ∃ seen,
    Follows (fun k offset => (run (listRoutesCore parseSince auth (e k)
      { q with offset := some offset }) s).1.toOption) 0 0 seen ∧
    seen.Perm ((routesHeld s).filter (q.passes o))

def PagesCoverGroups (q : GroupsListQuery) (o : ListingOptions GroupSortKey) : Prop :=
  ∀ e : Nat → Enumeration, ∃ seen,
    Follows (fun k offset => (run (listGroupsCore parseSince auth (e k)
      { q with offset := some offset }) s).1.toOption) 0 0 seen ∧
    seen.Perm ((groupsHeld s (groupsKey o.ownerFilter)).filter (q.passes o))

/-- Every route that is listed has a record that can be read. -/
def RoutesReadable : Prop := ∀ id ∈ s.setAt .routeAll, ∃ r, routeAnswer s id = .ok r

end Claims

section Covering
variable {parseSince : String → Except FilterParseError Time} {auth : AuthContext} {s : Store}

theorem run_listRoutesCore (wk : s.WellKinded) {q : RoutesListQuery}
    {o : ListingOptions RouteSortKey} (valid : q.options parseSince auth = .ok o)
    (e : Enumeration) (offset : Nat) :
    (run (listRoutesCore parseSince auth e { q with offset := some offset }) s).1.toOption =
      ((e.order (s.setAt .routeAll)).mapM (routeAnswer s)).toOption.map (fun all =>
        slice (sortRoutes o.sortKey o.dir (all.filter (q.passes o))) offset o.limit) := by
  have options := (RoutesListQuery.options_offset valid).2 offset
  rw [listRoutesCore, options, run_bind, run_ofExcept]
  simp only [andThen_ok, run_bind, run_mapError, run_listRoutesIn e wk]
  cases (e.order (s.setAt .routeAll)).mapM (routeAnswer s) <;> rfl

theorem run_listGroupsCore (wk : s.WellKinded) {q : GroupsListQuery}
    {o : ListingOptions GroupSortKey} (valid : q.options parseSince auth = .ok o)
    (e : Enumeration) (offset : Nat) :
    (run (listGroupsCore parseSince auth e { q with offset := some offset }) s).1.toOption =
      some (slice (sortGroups o.sortKey o.dir (passing (fun id => (groupAnswer s id).toOption)
        (q.passes o) (e.order (s.setAt (groupsKey o.ownerFilter))))) offset o.limit) := by
  have options := (GroupsListQuery.options_offset valid).2 offset
  rw [listGroupsCore, options, run_bind, run_ofExcept]
  simp only [andThen_ok, run_bind, run_mapError, run_listGroupsIn e wk]
  rfl

theorem routes_cover_iff (labels : Labelled none s) {q : RoutesListQuery}
    {o : ListingOptions RouteSortKey} (valid : q.options parseSince auth = .ok o) :
    PagesCoverRoutes parseSince auth s q o ↔
      RoutesReadable s ∧ Separated (notAfter o.sortKey.order o.dir)
        (sortRoutes o.sortKey o.dir ((routesHeld s).filter (q.passes o))) o.limit := by
  have pos := (RoutesListQuery.options_offset valid).1
  have named : ∀ id r, (routeAnswer s id).toOption = some r → r.id = id := by
    intro id r read
    exact route_own labels (routeAnswer_ok_iff.mp (ok_of_toOption read))
  have nodup : (s.setAt .routeAll).Nodup := (s.membersAt .routeAll).nodup
  unfold PagesCoverRoutes
  simp only [run_listRoutesCore labels.kinded valid]
  by_cases readable : RoutesReadable s
  · have all : ∀ e : Enumeration, (e.order (s.setAt .routeAll)).mapM (routeAnswer s) =
        .ok ((e.order (s.setAt .routeAll)).filterMap (fun id => (routeAnswer s id).toOption)) := by
      intro e
      apply mapM_readable
      intro id member
      obtain ⟨r, read⟩ := readable id ((e.perm _).mem_iff.mp member)
      rw [read]
      rfl
    simp only [all, and_iff_right readable]
    exact enumerated_cover_iff named o.dir nodup pos
  · constructor
    · intro covered
      obtain ⟨seen, follows, _⟩ := covered (fun _ => ⟨id, fun _ => List.Perm.refl _⟩)
      exfalso
      apply readable
      have answered : ∃ page, ((s.setAt .routeAll).mapM (routeAnswer s)).toOption.map (fun all =>
          slice (sortRoutes o.sortKey o.dir (all.filter (q.passes o))) 0 o.limit) = some page := by
        cases follows with
        | last answered _ => exact ⟨_, answered⟩
        | more answered _ _ => exact ⟨_, answered⟩
      obtain ⟨page, answered⟩ := answered
      obtain ⟨as, read, _⟩ := Option.map_eq_some_iff.mp answered
      intro id member
      have some_ := readable_of_mapM (ok_of_toOption read) id member
      obtain ⟨r, answer⟩ := Option.isSome_iff_exists.mp some_
      exact ⟨r, ok_of_toOption answer⟩
    · rintro ⟨held, _⟩
      exact absurd held readable

theorem groups_cover_iff (labels : Labelled none s) {q : GroupsListQuery}
    {o : ListingOptions GroupSortKey} (valid : q.options parseSince auth = .ok o) :
    PagesCoverGroups parseSince auth s q o ↔
      Separated (notAfter o.sortKey.order o.dir) (sortGroups o.sortKey o.dir
        ((groupsHeld s (groupsKey o.ownerFilter)).filter (q.passes o))) o.limit := by
  have pos := (GroupsListQuery.options_offset valid).1
  have named : ∀ id g, (groupAnswer s id).toOption = some g → g.id = id := by
    intro id g read
    exact group_own labels (groupAnswer_ok_iff.mp (ok_of_toOption read))
  have nodup : (s.setAt (groupsKey o.ownerFilter)).Nodup :=
    (s.membersAt (groupsKey o.ownerFilter)).nodup
  unfold PagesCoverGroups
  simp only [run_listGroupsCore labels.kinded valid]
  exact enumerated_cover_iff named o.dir nodup pos

end Covering

namespace Sample

/-- A group with two routes, one made after the other, that nobody has called. -/
def twoShops : List (PoolAction Call Nat) :=
  .launch (.mutation (.createGroup (group "shop" "ann") idA 0 draw)) ::
    List.replicate 14 (.resume 0) ++
    .launch (.mutation (.createRoute (route "shop" "/a" "one" "ann") ⟨idB, idC⟩ 1 draw)) ::
    List.replicate 20 (.resume 1) ++
    .launch (.mutation (.createRoute (route "shop" "/b" "two" "ann") ⟨idD, idE⟩ 2 draw)) ::
    List.replicate 21 (.resume 2)

def reader : AuthContext := ⟨"ann", "ann@shop.test", false, .token, idF⟩

def noSince (s : String) : Except FilterParseError Time := .error (.badSince s)

def sortedBy (key : String) : RoutesListQuery where
  group := some "shop"
  ownerId := none
  method := none
  pathPattern := some "/*"
  since := none
  until_ := none
  q := none
  sort := some key
  dir := some "desc"
  offset := none
  limit := some 1

def onePage (key : RouteSortKey) : ListingOptions RouteSortKey where
  offset := 0
  limit := 1
  dir := .desc
  sortKey := key
  method := none
  since := none
  until_ := none
  ownerFilter := some "ann"

/-- What of the routes can be told without sorting them: whether all can be read, whether they
    are in order, and whether no page of one ends between two of equal keys. -/
def listingFacts (key : RouteSortKey) (q : RoutesListQuery) (s : Store) : Bool × Bool × Bool :=
  let routes := (routesHeld s).filter (q.passes (onePage key))
  ((s.setAt .routeAll).all (fun id => (routeAnswer s id).toOption.isSome),
    decide (routes.Pairwise (fun a b => notAfter key.order .desc a b = true)),
    decide (Separated (notAfter key.order .desc) routes 1))

end Sample

theorem readable_of_all {s : Store}
    (all : (s.setAt .routeAll).all (fun id => (routeAnswer s id).toOption.isSome) = true) :
    RoutesReadable s := by
  intro id member
  obtain ⟨r, read⟩ := Option.isSome_iff_exists.mp (List.all_eq_true.mp all id member)
  exact ⟨r, ok_of_toOption read⟩

theorem sortRoutes_of_sorted {key : RouteSortKey} {dir : SortDir} {routes : List Route}
    (sorted : decide (routes.Pairwise (fun a b => notAfter key.order dir a b = true)) = true) :
    sortRoutes key dir routes = routes :=
  List.mergeSort_of_pairwise (of_decide_eq_true sorted)

end WireMirage
