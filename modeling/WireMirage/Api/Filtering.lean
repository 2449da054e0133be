import WireMirage.Api.Pagination
import WireMirage.Api.Operations
import WireMirage.Journal.Filters
import WireMirage.Calls

/-!
The journal of a group listed under filters, while requests are recorded and groups
renamed. The listing looks for the name that the group has now among its filters, and
a record carries the name that the group had when it was recorded.
-/
namespace WireMirage
open Prog StepMachine

/-! The request -/

inductive JournalListError where
  | notFound
  | forbidden (message : String)
  | invalid (e : FilterParseError)
  | registry (e : RegistryError)
  | journal (e : JournalError)
  deriving DecidableEq, Repr

structure JournalListQuery extends JournalQuery where
  route : Option String
  method : Option String
  pathPattern : Option String
  status : Option String
  since : Option String
  until_ : Option String
  deriving DecidableEq, Repr

def optional {A B E : Type} (parse : A → Except E B) : Option A → Except E (Option B)
  | none => .ok none
  | some a => (parse a).map some

section Listing
variable (parseSince : String → Except FilterParseError Time)

def buildJournalFilterFromQuery (group : Option String) (q : JournalListQuery) :
    Except FilterParseError JournalFilter := do
  let route ← optional RouteSlug.parse q.route
  let status ← optional StatusFilter.parse q.status
  let method ← optional validateMethod q.method
  let since ← optional parseSince q.since
  let until_ ← optional parseSince q.until_
  return { group, route, method, pathPattern := q.pathPattern, status, since, until_ }

def JournalFilter.anyFilter (f : JournalFilter) : Bool :=
  f.route.isSome || f.method.isSome || f.pathPattern.isSome || f.status.isSome ||
    f.since.isSome || f.until_.isSome

/-- The filter is not looked at when none of its parameters is supplied. -/
def JournalFilter.accepts (f : JournalFilter) (r : JournalRecord) : Bool :=
  if f.anyFilter then f.matchesHandled r else true

variable [UlidText]

def callerCanReadJournal (auth : AuthContext) (groupId : String) : Reg Bool := do
  if auth.isAdmin then return true
  else do
    let owned ← listRoutesByOwner auth.userId
    return owned.any (fun r => r.groupId == groupId)

def Api.listGroupJournal (auth : AuthContext) (group : String) (q : JournalListQuery) :
    Prog Store JournalListError (JournalPage JournalRecord) := do
  match ← Prog.attempt (Prog.mapError JournalListError.registry (readGroupByRef group)) with
  | .error _ => Prog.fail .notFound
  | .ok groupRecord => do
    let permitted ← Prog.mapError JournalListError.registry
      (callerCanReadJournal auth groupRecord.id)
    if ¬ permitted then Prog.fail (.forbidden
      "must be an admin or own a route in this group to read its journal")
    else do
      let filter ← Prog.ofExcept ((buildJournalFilterFromQuery parseSince
        (some groupRecord.name) q).mapError .invalid)
      Prog.mapError .journal
        (Api.listJournal groupRecord.id q.toJournalQuery filter.accepts)

end Listing

/-! What a listing answers -/

/-- The records of a page before any filter. -/
def listed (s : Store) (gid : String) (cursor : ListCursor) : List JournalRecord :=
  NumberedLog.walkDown ((handledLog gid).view s 0).fetch (fun _ => true)
    (Log.clampLimit cursor.limit) (Log.startingFrom (journalCounter s gid) u32Size cursor)

/-- A record that a listing of the journal of a group can come to. -/
def Shown (s : Store) (gid : String) (record : JournalRecord) : Prop :=
  ∃ n, ((handledLog gid).view s 0).fetch (n + 1) = some record

theorem shown_of_listed {s : Store} {gid : String} {cursor : ListCursor} {record : JournalRecord}
    (member : record ∈ listed s gid cursor) : Shown s gid record := by
  unfold listed at member
  generalize Log.startingFrom (journalCounter s gid) u32Size cursor = n at member
  generalize Log.clampLimit cursor.limit = limit at member
  induction n generalizing limit with
  | zero => cases limit <;> cases member
  | succ n ih =>
    cases limit with
    | zero => cases member
    | succ limit =>
      rw [NumberedLog.walkDown] at member
      cases found : ((handledLog gid).view s 0).fetch (n + 1) with
      | none =>
        rw [found] at member
        exact ih _ member
      | some first =>
        rw [found] at member
        simp only [if_true, List.mem_cons] at member
        rcases member with rfl | later
        · exact ⟨n, found⟩
        · exact ih _ later

theorem run_callerCanReadJournal {s : Store} (wk : s.WellKinded) (auth : AuthContext)
    (gid : String) : (run (callerCanReadJournal auth gid) s).2 = s := by
  unfold callerCanReadJournal
  split
  · rfl
  · rw [run_bind, listRoutesByOwner, run_listRoutesFrom wk _ rfl]
    cases (s.setAt (.routeByOwner auth.userId)).mapM (routeAnswer s) <;> rfl

section Answers
variable [UlidText] {s : Store} (wk : s.WellKinded)
  (parseSince : String → Except FilterParseError Time) (auth : AuthContext) (group : String)
  (q : JournalListQuery)
include wk

theorem listGroupJournal_ok (page : JournalPage JournalRecord) :
    (run (Api.listGroupJournal parseSince auth group q) s).1 = .ok page ↔
      ∃ g filter, (run (readGroupByRef group) s).1 = .ok g ∧
        (run (callerCanReadJournal auth g.id) s).1 = .ok true ∧
        buildJournalFilterFromQuery parseSince (some g.name) q = .ok filter ∧
        page = journalPage JournalRecord.number filter.accepts
          (listed s g.id q.toJournalQuery.cursor) := by
  have lists : ∀ g accepts, run (Prog.mapError JournalListError.journal
      (Api.listJournal g q.toJournalQuery accepts)) s =
        (.ok (journalPage JournalRecord.number accepts
          (listed s g q.toJournalQuery.cursor)), s) := by
    intro g accepts
    rw [run_mapError, Api.listJournal, run_bind, run_listForGroup wk,
      (handledLog g).run_collectDown wk 0]
    rfl
  unfold Api.listGroupJournal
  rw [run_bind, run_attempt, run_mapError, run_readGroupByRef wk]
  cases (resolvedAnswer s group).bind (groupAnswer s) with
  | error e => simp [Except.mapError]
  | ok g =>
    simp only [Except.mapError, andThen_ok, run_bind, run_mapError]
    have still := run_callerCanReadJournal wk auth g.id
    rcases ran : run (callerCanReadJournal auth g.id) s with ⟨e | permitted, t⟩
    · simp [ran]
    · rw [ran] at still
      cases still
      cases permitted with
      | false => simp [ran]
      | true =>
        simp only [andThen_ok, not_true_eq_false, if_false, run_bind, run_ofExcept]
        cases built : buildJournalFilterFromQuery parseSince (some g.name) q with
        | error e => simp [built]
        | ok filter => simp [built, lists, ran, eq_comm]

end Answers

/-! Nothing hidden -/

/-- The same page without its filters. -/
def JournalListQuery.unfiltered (q : JournalListQuery) : JournalListQuery :=
  ⟨q.toJournalQuery, none, none, none, none, none, none⟩

/-- Every filtered page is the page without filters, restricted to what the supplied predicates
    let pass. -/
def HidesNothing [UlidText] (s : Store) : Prop :=
  ∀ parseSince auth group q page,
    (run (Api.listGroupJournal parseSince auth group q) s).1 = .ok page →
      ∃ whole supplied, (run (Api.listGroupJournal parseSince auth group q.unfiltered) s).1 =
          .ok whole ∧ buildJournalFilterFromQuery parseSince none q = .ok supplied ∧
        page = { whole with entries := whole.entries.filter supplied.matchesHandled }

/-- The records that can be listed of a group carry the name it has. -/
def CarryNames [UlidText] (s : Store) : Prop :=
  ∀ group g, (run (readGroupByRef group) s).1 = .ok g →
    ∀ record, Shown s g.id record → namesGroup g.name record = true

theorem built_for_group (parseSince : String → Except FilterParseError Time) (name : String)
    (q : JournalListQuery) :
    buildJournalFilterFromQuery parseSince (some name) q =
      (buildJournalFilterFromQuery parseSince none q).map
        (fun f => { f with group := some name }) := by
  unfold buildJournalFilterFromQuery
  cases optional RouteSlug.parse q.route <;> cases optional StatusFilter.parse q.status <;>
    cases optional validateMethod q.method <;> cases optional parseSince q.since <;>
    cases optional parseSince q.until_ <;> rfl

theorem built_groupless {parseSince : String → Except FilterParseError Time} {q : JournalListQuery}
    {f : JournalFilter} (built : buildJournalFilterFromQuery parseSince none q = .ok f) :
    f.group = none := by
  unfold buildJournalFilterFromQuery at built
  cases route : optional RouteSlug.parse q.route <;>
    cases status : optional StatusFilter.parse q.status <;>
    cases method : optional validateMethod q.method <;>
    cases since : optional parseSince q.since <;>
    cases til : optional parseSince q.until_ <;> rw [route, status, method, since, til] at built <;>
    cases built
  rfl

theorem accepts_of_named {f : JournalFilter} (groupless : f.group = none) {name : String}
    {record : JournalRecord} (named : namesGroup name record = true) :
    ({ f with group := some name } : JournalFilter).accepts record = f.matchesHandled record := by
  unfold JournalFilter.accepts
  by_cases any : f.anyFilter = true
  · have filters : ({ f with group := some name } : JournalFilter).anyFilter = true := any
    rw [if_pos filters]
    simp [JournalFilter.matchesHandled, groupless, named]
  · have unfiltered : ¬ ({ f with group := some name } : JournalFilter).anyFilter = true := any
    rw [if_neg unfiltered]
    simp only [JournalFilter.anyFilter, Bool.or_eq_true, not_or, Bool.not_eq_true,
      Option.isSome_eq_false_iff, Option.isNone_iff_eq_none] at any
    obtain ⟨⟨⟨⟨⟨route, method⟩, path⟩, status⟩, since⟩, til⟩ := any
    simp [JournalFilter.matchesHandled, groupless, route, method, path, status, since, til]

theorem globMatch_star (target : String) : globMatch "*" target = true := by
  have parts : "*".toList.splitOn '*' = [[], []] := by decide
  have starred : ¬ '*' ∉ "*".toList := by decide
  unfold globMatch
  rw [if_neg starred, parts]
  simp [globLoop]

section Pages
variable [UlidText] {s : Store} (wk : s.WellKinded)
include wk

theorem hidesNothing_of_names (carry : CarryNames s) : HidesNothing s := by
  intro parseSince auth group q page answered
  obtain ⟨g, filter, read, permitted, built, rfl⟩ :=
    (listGroupJournal_ok wk parseSince auth group q page).mp answered
  rw [built_for_group] at built
  cases supplied : buildJournalFilterFromQuery parseSince none q with
  | error e =>
    rw [supplied] at built
    cases built
  | ok f =>
    rw [supplied] at built
    cases built
    refine ⟨_, f, (listGroupJournal_ok wk parseSince auth group q.unfiltered _).mpr
      ⟨g, ⟨some g.name, none, none, none, none, none, none⟩, read, permitted, rfl, rfl⟩, rfl, ?_⟩
    have all : (listed s g.id q.toJournalQuery.cursor).filter
        (JournalFilter.accepts ⟨some g.name, none, none, none, none, none, none⟩) =
          listed s g.id q.toJournalQuery.cursor := by
      rw [List.filter_eq_self]
      intro record _
      rfl
    simp only [journalPage, JournalListQuery.unfiltered, all, JournalPage.mk.injEq, and_true]
    apply List.filter_congr
    intro record member
    exact accepts_of_named (built_groupless supplied) (carry group g read record
      (shown_of_listed member))

/-- The page of one record, filtered by a pattern that every path matches. -/
theorem names_of_hidesNothing (hides : HidesNothing s) : CarryNames s := by
  intro group g read record shown
  obtain ⟨n, found⟩ := shown
  let q : JournalListQuery := ⟨⟨some (n + 2), some 1⟩, none, none, some "*", none, none, none⟩
  let auth : AuthContext := ⟨"", "", true, .token, ""⟩
  let parseSince : String → Except FilterParseError Time := fun text => .error (.badSince text)
  have one : listed s g.id q.toJournalQuery.cursor = [record] := by
    show NumberedLog.walkDown _ _ 1 (n + 1) = _
    rw [NumberedLog.walkDown, found]
    cases n <;> rfl
  have permitted : (run (callerCanReadJournal auth g.id) s).1 = .ok true := rfl
  have answers : ∀ (query : JournalListQuery) (filter : JournalFilter),
      query.toJournalQuery = q.toJournalQuery →
      buildJournalFilterFromQuery parseSince (some g.name) query = .ok filter →
      (run (Api.listGroupJournal parseSince auth group query) s).1 =
        .ok (journalPage JournalRecord.number filter.accepts [record]) := by
    intro query filter same built
    refine (listGroupJournal_ok wk parseSince auth group query _).mpr
      ⟨g, filter, read, permitted, built, ?_⟩
    rw [same, one]
  have page := answers q ⟨some g.name, none, none, some "*", none, none, none⟩ rfl rfl
  have plain := answers q.unfiltered ⟨some g.name, none, none, none, none, none, none⟩ rfl rfl
  obtain ⟨whole, supplied, answered, built, same⟩ := hides parseSince auth group q _ page
  rw [plain] at answered
  cases answered
  cases built
  have passes : (⟨none, none, none, some "*", none, none, none⟩ : JournalFilter).matchesHandled
      record = true := by
    simp [JournalFilter.matchesHandled, globMatch_star]
  by_contra other
  have refused : (⟨some g.name, none, none, some "*", none, none, none⟩ : JournalFilter).accepts
      record = false := by
    simp [JournalFilter.accepts, JournalFilter.anyFilter, JournalFilter.matchesHandled, other]
  have entries := congrArg JournalPage.entries same
  have whole : (⟨some g.name, none, none, none, none, none, none⟩ : JournalFilter).accepts
      record = true := rfl
  simp [journalPage, refused, whole, q, passes] at entries

end Pages

/-! Traffic: requests recorded under the name of their route, and renames -/

inductive TrafficAction where
  | request (routeId : String) (exchange : NewJournalEntry) (state : List (String × StateOp))
      (id : String) (now : Time)
  | rename (groupRef newName : String)

def NewJournalEntry.matched (exchange : NewJournalEntry) (r : Route) : NewJournalEntry :=
  { exchange with
    groupId := r.groupId
    groupName := r.groupName
    routeId := r.id
    routeNumber := r.number }

/-- What a request that a route serves leaves behind. -/
def servedBy (r : Route) (exchange : NewJournalEntry)
    (state : List (String × StateOp)) (id : String)
    (now : Time) : List Activity :=
  state.map (fun entry => .handlerState r.groupId r.id entry.1 entry.2) ++
    [.recordHandled (exchange.matched r) id now, .recordRouteHit r.groupId r.id now,
      .refreshGroupIfSliding r.groupId]

/-- Any groups and routes to start from, with nothing recorded yet. -/
def traffic [UlidText] : Machine CallState TrafficAction where
  start s := Reached calls (fun _ _ => True) s ∧ ∀ gid record, ¬ Shown s.store gid record
  step s
    | .request routeId exchange state id now =>
      match (run (readRoute routeId) s.store).1 with
      | .ok r => some ⟨(servedBy r exchange state id now).foldl Activity.perform s.store, s.minted⟩
      | .error _ => none
    | .rename groupRef newName => some ⟨(run (renameGroup groupRef newName) s.store).2, s.minted⟩

/-- A group is renamed only to the name that all its records carry. -/
def RenamesUnrecorded [UlidText] (s : CallState) : TrafficAction → Prop
  | .request .. => True
  | .rename groupRef newName => ∀ g, (run (renameGroup groupRef newName) s.store).1 = .ok g →
      ∀ record, Shown s.store g.id record → namesGroup newName record = true

/-! What a step shows -/

def SameJournal (s t : Store) : Prop :=
  ∀ gid, (∀ id, t.bytesAt (.journal gid id) = s.bytesAt (.journal gid id)) ∧
    ∀ n, t.bytesAt (.journalByNumber gid n) = s.bytesAt (.journalByNumber gid n)

theorem SameJournal.refl (s : Store) : SameJournal s s :=
  fun _ => ⟨fun _ => rfl, fun _ => rfl⟩

theorem SameJournal.trans {s t u : Store} (one : SameJournal s t) (two : SameJournal t u) :
    SameJournal s u :=
  fun gid => ⟨fun id => ((two gid).1 id).trans ((one gid).1 id),
    fun n => ((two gid).2 n).trans ((one gid).2 n)⟩

theorem SameJournal.shown {s t : Store} (same : SameJournal s t) (gid : String)
    (record : JournalRecord) : Shown t gid record ↔ Shown s gid record := by
  have views : (handledLog gid).view t 0 = (handledLog gid).view s 0 := by
    simp [Log.view, handledLog, (same gid).1, (same gid).2]
  simp only [Shown, views]

theorem sameJournal_putHash (s : Store) {k : Key} (family : k.family = some .hash)
    (h : Fields Val) : SameJournal s (s.putHash k h) := by
  intro gid
  constructor
  · intro id
    rw [Storage.bytesAt_putHash, if_neg]
    rintro rfl
    cases family
  · intro n
    rw [Storage.bytesAt_putHash, if_neg]
    rintro rfl
    cases family

theorem sameJournal_nameMoved (s : Store) (gid : String) (g : Group) (newName : String) :
    SameJournal s (nameMoved s gid g newName) := by
  intro gid'
  constructor <;> simp [nameMoved, ttlArmed]

theorem sameJournal_renamed (s : Store) (gid : String) (g : Group) (newName : String)
    (routes : List Route) : SameJournal s (groupRenamed s gid g newName routes) := by
  have each : ∀ u, SameJournal u (routes.foldl (fun t r => routeRenamed newName r t) u) := by
    induction routes with
    | nil => exact SameJournal.refl
    | cons r rest ih =>
      intro u
      exact (sameJournal_putHash u rfl _).trans (ih _)
  exact (sameJournal_nameMoved s gid g newName).trans (each _)

theorem shown_stored {s : Store} {gid gid' id : String} {record other : JournalRecord}
    {recordEnds indexEnds : Option Nat}
    (shown : Shown ((handledLog gid).stored s id record recordEnds indexEnds) gid' other) :
    (gid' = gid ∧ other = record) ∨ Shown s gid' other := by
  obtain ⟨n, found⟩ := shown
  obtain ⟨x, index, read⟩ := Option.bind_eq_some_iff.mp found
  obtain ⟨v, at_, names⟩ := Option.bind_eq_some_iff.mp index
  obtain ⟨w, held, decodes⟩ := Option.bind_eq_some_iff.mp read
  have elsewhere : s.bytesAt (.journalByNumber gid' (n + 1)) = some v →
      s.bytesAt (.journal gid' x) = some w → Shown s gid' other := by
    intro old kept
    refine ⟨n, ?_⟩
    show ((s.bytesAt (.journalByNumber gid' (n + 1))).bind Val.utf8).bind
      (fun id => (s.bytesAt (.journal gid' id)).bind Val.asHandled) = some other
    rw [old, Option.bind_some, names, Option.bind_some, kept]
    exact decodes
  by_cases here : gid' = gid
  · subst here
    have records := ((handledLog gid').stored_records s id record recordEnds indexEnds x).1
    have numbers := ((handledLog gid').stored_index s id record recordEnds indexEnds (n + 1)).1
    rw [records] at held
    rw [numbers] at at_
    split at held
    · cases held
      cases decodes
      exact .inl ⟨rfl, rfl⟩
    · rename_i new
      split at at_
      · cases at_
        cases names
        exact absurd rfl new
      · exact .inr (elsewhere at_ held)
  · right
    have apart := fun k => ((handledLog gid).stored_other s id record recordEnds indexEnds
      (k := k))
    have numbers := (apart (.journalByNumber gid' (n + 1)) (by simp [handledLog])
      (by simp [handledLog, here])).1
    have records := (apart (.journal gid' x) (by simp [handledLog, here]) (by simp [handledLog])).1
    exact elsewhere (numbers.symm.trans at_) (records.symm.trans held)

/-- What an activity adds to the journal is of a route's group, under the name the route has. -/
def Activity.ShowsFor [UlidText] (r : Route) (a : Activity) : Prop :=
  ∀ s : Store, s.WellKinded → ∀ gid record, Shown (a.perform s) gid record →
    (gid = r.groupId ∧ record.groupName = r.groupName) ∨ Shown s gid record

section Served
variable [UlidText]

theorem showsFor_of_same {r : Route} {a : Activity}
    (same : ∀ s : Store, s.WellKinded → SameJournal s (a.perform s)) : a.ShowsFor r :=
  fun s wk gid record shown => .inr (((same s wk).shown gid record).mp shown)

theorem showsFor_served {r : Route} {exchange : NewJournalEntry} {state : List (String × StateOp)}
    {id : String} {now : Time} {a : Activity} (one : a ∈ servedBy r exchange state id now) :
    a.ShowsFor r := by
  simp only [servedBy, List.mem_append, List.mem_map, List.mem_cons, List.not_mem_nil,
    or_false] at one
  rcases one with ⟨entry, _, rfl⟩ | rfl | rfl | rfl
  · apply showsFor_of_same
    intro s _ gid
    constructor <;> intro x <;> simp only [Activity.perform, Storage.bytesAt] <;>
      rw [lookup_stateOp _ s entry.2 (by simp)]
  · intro s wk gid record shown
    simp only [Activity.perform] at shown
    rcases run_recordHandled wk (exchange.matched r) id now with
      ⟨e, _, _, ran⟩ | ⟨n, stored, ends, _, _, carries, ran⟩
    · rw [ran] at shown
      exact .inr shown
    · rw [ran] at shown
      rcases shown_stored shown with ⟨rfl, rfl⟩ | before
      · exact .inl ⟨rfl, congrArg NewJournalEntry.groupName carries⟩
      · exact .inr (((sameJournal_putHash s rfl _).shown gid record).mp before)
  · apply showsFor_of_same
    intro s wk
    have stamped : SameJournal s (hitStamped s r.id now) := sameJournal_putHash s rfl _
    simp only [Activity.perform]
    rcases run_recordRouteHit wk r.groupId r.id now with ⟨e, ran⟩ | ⟨n, ran, _⟩
    · rw [ran]
      exact stamped
    · rw [ran]
      exact (stamped.trans (sameJournal_putHash _ rfl _)).trans (sameJournal_putHash _ rfl _)
  · apply showsFor_of_same
    intro s wk
    simp only [Activity.perform]
    rcases refreshGroupIfSliding_cases wk r.groupId with ⟨answer, ran⟩ | ⟨g, ran, _⟩
    · rw [ran]
      exact SameJournal.refl s
    · rw [ran]
      intro gid
      constructor <;> simp [groupArmed, ttlArmed]

theorem activities_show {s : CallState} {c : Catalog} (held : Stored s c) {r : Route}
    (as : List Activity)
    (each : ∀ a ∈ as, (∀ id ∈ a.mentions, id ∈ s.minted) ∧ a.ShowsFor r) :
    ∃ d, Stored ⟨as.foldl Activity.perform s.store, s.minted⟩ d ∧ Alike c d ∧
      ∀ gid record, Shown (as.foldl Activity.perform s.store) gid record →
        (gid = r.groupId ∧ record.groupName = r.groupName) ∨ Shown s.store gid record := by
  induction as generalizing s c with
  | nil => exact ⟨c, held, Alike.refl c, fun _ _ shown => .inr shown⟩
  | cons a as ih =>
    obtain ⟨known, shows⟩ := each a List.mem_cons_self
    obtain ⟨d, after, like⟩ := stored_activity held a known
    obtain ⟨e, last, like', rest⟩ := ih after
        (fun b member => each b (List.mem_cons_of_mem a member))
    refine ⟨e, last, like.trans like', ?_⟩
    intro gid record shown
    rcases rest gid record shown with own | before
    · exact .inl own
    · exact shows s.store held.consistent.represents.kinded gid record before

theorem served_shows {s : CallState} {c : Catalog} (held : Stored s c) {r : Route}
    (live : c.routes r.id = some r) (exchange : NewJournalEntry)
    (state : List (String × StateOp)) (id : String) (now : Time) :
    ∃ d, Stored ⟨(servedBy r exchange state id now).foldl Activity.perform s.store, s.minted⟩ d ∧
      Alike c d ∧ ∀ gid record,
        Shown ((servedBy r exchange state id now).foldl Activity.perform s.store) gid record →
          (gid = r.groupId ∧ record.groupName = r.groupName) ∨ Shown s.store gid record := by
  apply activities_show held
  intro a one
  refine ⟨?_, showsFor_served one⟩
  obtain ⟨g, home, _⟩ := held.consistent.sound.parent live
  have group := (held.minted _).mp (held.consistent.sound.mintedGroup home)
  have route := (held.minted _).mp (held.consistent.sound.mintedRoute live)
  intro mentioned member
  simp only [servedBy, List.mem_append, List.mem_map, List.mem_cons, List.not_mem_nil,
    or_false] at one
  rcases one with ⟨entry, _, rfl⟩ | rfl | rfl | rfl <;>
    simp [Activity.mentions, NewJournalEntry.matched] at member
  · rcases member with rfl | rfl
    · exact group
    · exact route
  · exact member ▸ group
  · rcases member with rfl | rfl
    · exact group
    · exact route

end Served

/-! Names kept -/

/-- The groups of the catalog are named as their records are. -/
structure Titled [UlidText] (s : CallState) (c : Catalog) : Prop where
  stored : Stored s c
  named : ∀ gid g, c.groups gid = some g → ∀ record, Shown s.store gid record →
    namesGroup g.name record = true

section Titles
variable [UlidText] {s : CallState} {c : Catalog}

theorem readable_iff (held : Stored s c) (g : Group) :
    (∃ group, (run (readGroupByRef group) s.store).1 = .ok g) ↔ c.groups g.id = some g := by
  have rep := held.consistent.represents
  constructor
  · rintro ⟨group, read⟩
    rw [run_readGroupByRef rep.kinded] at read
    obtain ⟨gid, _, answer⟩ := ok_bind_iff.mp read
    have live := (rep.groups.record gid g).mp (groupAnswer_ok_iff.mp answer)
    rwa [held.consistent.sound.groupId live]
  · intro live
    have record := (rep.groups.record g.id g).mpr live
    obtain ⟨ulid, filled⟩ := held.ulids g.id ((held.minted _).mp
      (held.consistent.sound.mintedGroup live))
    have here : contains (s.store.hashAt (.group g.id)) "id" = true := by
      simp [contains, GroupFields.id record]
    refine ⟨g.id, ?_⟩
    have resolved : resolvedAnswer s.store g.id = .ok g.id := by
      rw [resolved_ok_iff, if_pos ⟨ulid, filled, here⟩]
    rw [run_readGroupByRef rep.kinded, resolved]
    exact groupAnswer_ok_iff.mpr record

theorem carryNames_iff (held : Stored s c) : CarryNames s.store ↔ Titled s c := by
  constructor
  · intro carry
    refine ⟨held, ?_⟩
    intro gid g live record shown
    have same := held.consistent.sound.groupId live
    subst same
    obtain ⟨group, read⟩ := (readable_iff held g).mpr live
    exact carry group g read record shown
  · intro titled group g read
    exact titled.named g.id g ((readable_iff held g).mp ⟨group, read⟩)

theorem titled_request (titled : Titled s c) {rid : String} {r : Route}
    (read : (run (readRoute rid) s.store).1 = .ok r) (exchange : NewJournalEntry)
    (state : List (String × StateOp)) (id : String) (now : Time) :
    ∃ d, Titled ⟨(servedBy r exchange state id now).foldl Activity.perform s.store,
      s.minted⟩ d := by
  have held := titled.stored
  have rep := held.consistent.represents
  rw [run_readRoute rep.kinded] at read
  have live := (rep.routes.record rid r).mp (routeAnswer_ok_iff.mp read)
  have same := held.consistent.sound.routeId live
  subst same
  obtain ⟨d, after, alike, shows⟩ := served_shows held live exchange state id now
  refine ⟨d, after, ?_⟩
  intro gid g found record shown
  obtain ⟨h, before, core⟩ := alike.group found
  have name := (same_group core).name
  rcases shows gid record shown with ⟨rfl, own⟩ | old
  · obtain ⟨home, parent, named⟩ := held.consistent.sound.parent live
    rw [before] at parent
    cases parent
    simp [namesGroup, own, ← named, name]
  · rw [← name]
    exact titled.named gid h before record old

theorem sameJournal_rename {s : Store} (wk : s.WellKinded) (groupRef newName : String) :
    SameJournal s (run (renameGroup groupRef newName) s).2 := by
  rcases renameGroup_cases wk groupRef newName with
    ⟨e, ran⟩ | ⟨gid, g, e, ran, _⟩ | ⟨gid, g, ran, _⟩ | ⟨g, t, ran, renamed⟩
  · rw [ran]
    exact SameJournal.refl s
  · rw [ran]
    exact sameJournal_nameMoved s gid g newName
  · rw [ran]
    exact SameJournal.refl s
  · obtain ⟨gid, old, routes, _, _, _, _, _, _, _, rfl⟩ := renamed.made
    rw [ran]
    exact sameJournal_renamed s gid old newName routes

/-- A rename keeps the names together exactly if the records already carry the new one. -/
theorem titled_rename (titled : Titled s c) (groupRef newName : String) :
    ∃ d, Stored ⟨(run (renameGroup groupRef newName) s.store).2, s.minted⟩ d ∧
      (Titled ⟨(run (renameGroup groupRef newName) s.store).2, s.minted⟩ d ↔
        RenamesUnrecorded s (.rename groupRef newName)) := by
  have held := titled.stored
  have shown := (sameJournal_rename held.consistent.represents.kinded groupRef newName).shown
  rcases renameGroup_step held.consistent groupRef newName with
    ⟨e, ran⟩ | ⟨g, ran, _, live, name⟩ | ⟨old, t, ran, _, live, other, _, _, kept⟩
  · refine ⟨c, by rw [ran]; exact held, ?_⟩
    rw [ran]
    refine ⟨fun _ g renamed => ?_, fun _ => titled⟩
    rw [ran] at renamed
    cases renamed
  · refine ⟨c, by rw [ran]; exact held, ?_⟩
    rw [ran]
    refine ⟨fun _ h renamed record at_ => ?_, fun _ => titled⟩
    rw [ran] at renamed
    cases renamed
    exact name ▸ titled.named g.id g live record at_
  · have stored : Stored ⟨(run (renameGroup groupRef newName) s.store).2, s.minted⟩
        (c.renameGroup old.id newName) := by
      rw [ran]
      exact ⟨kept, held.minted, held.ulids⟩
    refine ⟨_, stored, ?_⟩
    constructor
    · intro after g renamed record at_
      rw [ran] at renamed
      cases renamed
      have moved : (c.renameGroup old.id newName).groups old.id =
          some { old with name := newName } := by
        simp [Catalog.renameGroup, live, Catalog.renamedGroup]
      exact after.named old.id _ moved record ((shown old.id record).mpr at_)
    · intro unrecorded
      refine ⟨stored, ?_⟩
      intro gid g found record at_
      have before := (shown gid record).mp at_
      obtain ⟨h, live', same⟩ := Option.map_eq_some_iff.mp found
      by_cases here : gid = old.id
      · subst here
        rw [live] at live'
        cases live'
        have name : g.name = newName := by
          simp [← same, Catalog.renamedGroup]
        rw [name]
        refine unrecorded { old with name := newName } ?_ record before
        rw [ran]
      · have kept : h = g := by
          simpa [Catalog.renamedGroup, here] using same
        subst kept
        exact titled.named gid h live' record before

end Titles

theorem traffic_titled [UlidText] {s : CallState} (reached : Reached traffic RenamesUnrecorded s) :
    ∃ c, Titled s c := by
  have base : ∀ s, traffic.start s → ∃ c, Titled s c := by
    rintro s ⟨first, bare⟩
    obtain ⟨c, held⟩ := calls_stored first
    exact ⟨c, held, fun gid g _ record shown => absurd shown (bare gid record)⟩
  refine reached_invariant base ?_ reached
  rintro s a t ⟨c, titled⟩ ok next
  cases a with
  | request routeId exchange state id now =>
    simp only [traffic] at next
    cases read : (run (readRoute routeId) s.store).1 with
    | error e =>
      rw [read] at next
      cases next
    | ok r =>
      rw [read] at next
      cases next
      exact titled_request titled read exchange state id now
  | rename groupRef newName =>
    cases next
    obtain ⟨d, _, exact_⟩ := titled_rename titled groupRef newName
    exact ⟨d, exact_.mpr ok⟩

theorem hidesNothing_iff [UlidText] {s : CallState} {c : Catalog} (held : Stored s c) :
    HidesNothing s.store ↔ Titled s c := by
  have wk := held.consistent.represents.kinded
  rw [← carryNames_iff held]
  exact ⟨names_of_hidesNothing wk, hidesNothing_of_names wk⟩

/-- The listing hides nothing as long as groups keep the name that their records carry, and
    hides a record as soon as one does not. -/
theorem filtered_listing [UlidText] {s : CallState}
    (reached : Reached traffic RenamesUnrecorded s) :
    HidesNothing s.store ∧ ∀ a t, traffic.step s a = some t →
      (HidesNothing t.store ↔ RenamesUnrecorded s a) := by
  obtain ⟨c, titled⟩ := traffic_titled reached
  refine ⟨(hidesNothing_iff titled.stored).mpr titled, ?_⟩
  intro a t next
  cases a with
  | request routeId exchange state id now =>
    obtain ⟨d, after⟩ := traffic_titled
      (reached_step reached (a := .request routeId exchange state id now) trivial next)
    exact ⟨fun _ => trivial, fun _ => (hidesNothing_iff after.stored).mpr after⟩
  | rename groupRef newName =>
    cases next
    obtain ⟨d, after, names⟩ := titled_rename titled groupRef newName
    exact (hidesNothing_iff after).trans names

namespace Sample

def shopping : List Call :=
  [.mutation (.createGroup (group "shop" "ann") idA 0 draw),
    .mutation (.createRoute (route "shop" "/a" "one" "ann") ⟨idB, idC⟩ 1 draw)]

def served : NewJournalEntry where
  traceId := none
  groupId := ""
  groupName := ""
  routeId := ""
  routeNumber := 0
  matchedPattern := "/a"
  request := ⟨"GET", "/a", [], [], false, 0⟩
  response := ⟨200, [], [], false, 0⟩
  pathParams := []
  query := []
  handlerLogs := []
  durationMs := 1
  resources := ⟨1, 1, 1⟩
  error := none
  droppedResponseHeaders := []

def shop : Option CallState := exec calls ⟨Storage.empty .inMemory, []⟩ shopping

end Sample

/-- Nothing is shown of a store without numbers of records. -/
theorem not_shown {s : Store}
    (bare : (s.entries.keys.all (fun k => match k with
      | .journalByNumber _ _ => false
      | _ => true)) = true) (gid : String) (record : JournalRecord) : ¬ Shown s gid record := by
  rintro ⟨n, found⟩
  obtain ⟨x, index, _⟩ := Option.bind_eq_some_iff.mp found
  obtain ⟨v, at_, _⟩ := Option.bind_eq_some_iff.mp index
  have held : Key.journalByNumber gid (n + 1) ∈ s.entries.keys := by
    by_contra absent
    have none : s.bytesAt (.journalByNumber gid (n + 1)) = none := by
      simp [Storage.bytesAt, Storage.lookup, Storage.entry,
        AList.lookup_eq_none.mpr absent, Storage.asBytes]
    exact absurd (none.symm.trans at_) (by simp)
  have other := List.all_eq_true.mp bare _ held
  cases other

/-- A request to the one route of a group is recorded. -/
theorem Sample.one_served : ∃ s record g, Reached traffic RenamesUnrecorded s ∧
    Shown s.store Sample.idA record ∧ namesGroup "store" record = false ∧
    (run (renameGroup "shop" "store") s.store).1 = .ok g ∧ g.id = Sample.idA := by
  let requests : CallState → TrafficAction → Bool := fun _ a => match a with
    | .request .. => true
    | .rename .. => false
  have opened : (Sample.shop.map (fun s => s.store.entries.keys.all (fun k => match k with
      | .journalByNumber _ _ => false
      | _ => true))) = some true := by decide +kernel
  have ran : ((Sample.shop.bind (fun s => exec (guarded traffic requests) s
      [.request Sample.idC Sample.served [] Sample.idD 2])).map
      (fun s => ((((handledLog Sample.idA).view s.store 0).fetch 1).map (namesGroup "store"),
        (run (renameGroup "shop" "store") s.store).1.toOption.map Group.id))) =
      some (some false, some Sample.idA) := by
    decide +kernel
  obtain ⟨first, begun, bare⟩ := Option.map_eq_some_iff.mp opened
  obtain ⟨s, done, answers⟩ := Option.map_eq_some_iff.mp ran
  rw [begun, Option.bind_some] at done
  have start : traffic.start first :=
    ⟨reached_of_exec Sample.shopping ⟨.inMemory, rfl⟩ begun, not_shown bare⟩
  have reached : Reached traffic RenamesUnrecorded s := by
    refine reached_mono ?_ (reached_of_guarded _ start done)
    intro s a ok
    cases a with
    | request => trivial
    | rename => cases ok
  rw [Prod.mk.injEq] at answers
  obtain ⟨record, found, unnamed⟩ := Option.map_eq_some_iff.mp answers.1
  obtain ⟨g, renamed, same⟩ := Option.map_eq_some_iff.mp answers.2
  refine ⟨s, record, g, reached, ⟨0, found⟩, unnamed, ?_, same⟩
  cases answer : (run (renameGroup "shop" "store") s.store).1 with
  | error e =>
    rw [answer] at renamed
    cases renamed
  | ok h =>
    rw [answer] at renamed
    cases renamed
    rfl

theorem filtered_listing_shop : ∃ s, Reached traffic RenamesUnrecorded s ∧
    (∃ record, Shown s.store Sample.idA record) ∧ HidesNothing s.store := by
  obtain ⟨s, record, _, reached, shown, _⟩ := Sample.one_served
  exact ⟨s, reached, ⟨record, shown⟩, (filtered_listing reached).1⟩

/-- A record of a group that was renamed since is hidden. -/
theorem renamed_group_hides :
    ∃ s, Reached traffic (fun _ _ => True) s ∧ ¬ HidesNothing s.store := by
  obtain ⟨s, record, g, reached, shown, unnamed, renamed, same⟩ := Sample.one_served
  obtain ⟨c, titled⟩ := traffic_titled reached
  obtain ⟨d, after, names⟩ := titled_rename titled "shop" "store"
  refine ⟨_, reached_step (reached_mono (fun _ _ _ => trivial) reached)
    (a := .rename "shop" "store") trivial rfl, ?_⟩
  rw [hidesNothing_iff after, names]
  intro unrecorded
  have carried := unrecorded g renamed record (same ▸ shown)
  rw [unnamed] at carried
  cases carried

end WireMirage
