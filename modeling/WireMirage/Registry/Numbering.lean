import WireMirage.Calls

/-!
Route numbers. A group's counter issues them and an index leads from each to its
route. Clearing the group's journal deletes the counter with the numbers of the
journal, and a number is cut to 32 bits where it is taken from the counter.
-/
namespace WireMirage
open Prog StepMachine

def routeCounter (s : Store) (gid : String) : Option Val :=
  (s.hashAt (.groupCounters gid)).lookup "next_route_number"

/-- Two stores that agree on the counters of routes and on the index of their numbers. -/
structure SameNumbers (s t : Store) : Prop where
  counter : ∀ gid, routeCounter t gid = routeCounter s gid
  index : ∀ gid n, t.bytesAt (.routeByNumber gid n) = s.bytesAt (.routeByNumber gid n)

theorem SameNumbers.refl (s : Store) : SameNumbers s s := ⟨fun _ => rfl, fun _ _ => rfl⟩

theorem SameNumbers.trans {s t u : Store} (one : SameNumbers s t) (two : SameNumbers t u) :
    SameNumbers s u :=
  ⟨fun gid => (two.counter gid).trans (one.counter gid),
    fun gid n => (two.index gid n).trans (one.index gid n)⟩

section Frames
variable (s : Store)

theorem sameNumbers_of_lookup {t : Store}
    (same : ∀ k : Key, k.family ≠ none → t.lookup k = s.lookup k) : SameNumbers s t := by
  constructor
  · intro gid
    simp only [routeCounter, Storage.hashAt, same (.groupCounters gid) (by simp)]
  · intro gid n
    simp only [Storage.bytesAt, same (.routeByNumber gid n) (by simp)]

theorem sameNumbers_groupArmed (gid name : String) (ttl : Nat) :
    SameNumbers s (groupArmed s gid name ttl) := by
  constructor <;> simp [routeCounter, groupArmed, ttlArmed]

theorem sameNumbers_groupCreated (g : Group) : SameNumbers s (groupCreated s g) := by
  constructor <;> simp [routeCounter, groupCreated, groupArmed, ttlArmed, groupWritten]

theorem sameNumbers_without {p : KeyPrefix}
    (index : ∀ gid n, p.covers (.routeByNumber gid n) = false)
    (counters : ∀ gid, p.covers (.groupCounters gid) = false) :
    SameNumbers s (s.without p.covers) := by
  constructor <;> simp [routeCounter, index, counters]

theorem sameNumbers_putHash {k : Key} (index : ∀ gid n, k ≠ .routeByNumber gid n)
    (counters : ∀ gid, k ≠ .groupCounters gid) (h : Fields Val) :
    SameNumbers s (s.putHash k h) := by
  constructor
  · intro gid
    simp [routeCounter, (counters gid).symm]
  · intro gid n
    simp [(index gid n).symm]

theorem sameNumbers_put {k : Key} (index : ∀ gid n, k ≠ .routeByNumber gid n)
    (counters : ∀ gid, k ≠ .groupCounters gid) (v : Val) (ends : Option Nat) :
    SameNumbers s (s.put k v ends) := by
  constructor
  · intro gid
    simp [routeCounter, (counters gid).symm]
  · intro gid n
    simp [(index gid n).symm]

theorem sameNumbers_groupField {A : Type} (gid field : String) (encode : A → Val)
    (o : Option A) : SameNumbers s (fieldPatched (.group gid) field encode s o) := by
  cases o with
  | none => exact .refl s
  | some a => exact sameNumbers_putHash s (by simp) (by simp) _

theorem sameNumbers_groupPatched (gid : String) (g : Group) (ttl : Option Nat)
    (sliding callout : Option Bool) :
    SameNumbers s (groupPatched s gid g ttl sliding callout) := by
  have first : SameNumbers s (ttlPatched s gid g ttl) := by
    cases ttl with
    | none => exact .refl s
    | some n =>
      exact (sameNumbers_putHash s (by simp) (by simp) _).trans (sameNumbers_groupArmed _ _ _ _)
  exact (first.trans (sameNumbers_groupField _ _ _ _ _)).trans (sameNumbers_groupField _ _ _ _ _)

theorem sameNumbers_statePut {key : String → Key} (free : ∀ x, (key x).family = none)
    (state : List (String × Bytes)) : SameNumbers s (statePut key s state) := by
  induction state generalizing s with
  | nil => exact .refl s
  | cons e rest ih =>
    have typed : ∀ k : Key, k.family ≠ none → key e.1 ≠ k := by
      rintro k family rfl
      exact family (free e.1)
    exact (sameNumbers_put s (fun _ _ => typed _ (by simp)) (fun _ => typed _ (by simp)) _ _).trans
      (ih _)

theorem sameNumbers_stored {A : Type} (log : Log A)
    (records : ∀ id, (log.recordKey id).ofRoute = false ∧ (log.recordKey id).ofGroup = false)
    (index : ∀ n, (log.indexKey n).ofRoute = false ∧ (log.indexKey n).ofGroup = false)
    (id : String) (record : A) (recordEnds indexEnds : Option Nat) :
    SameNumbers s (log.stored s id record recordEnds indexEnds) := by
  have away : ∀ k : Key, k.ofRoute = false ∧ k.ofGroup = false →
      (∀ gid n, k ≠ .routeByNumber gid n) ∧ ∀ gid, k ≠ .groupCounters gid := by
    rintro k ⟨route, group⟩
    refine ⟨?_, ?_⟩
    · rintro gid n rfl
      simp [Key.ofRoute] at route
    · rintro gid rfl
      simp [Key.ofGroup] at group
  obtain ⟨one, two⟩ := away _ (records id)
  obtain ⟨three, four⟩ := away _ (index (log.number record))
  exact (sameNumbers_put s one two _ _).trans (sameNumbers_put _ three four _ _)

theorem sameNumbers_numberIssued (gid : String) {field : String}
    (other : field ≠ "next_route_number")
    (n : Int) : SameNumbers s (numberIssued s gid field n) := by
  constructor
  · intro id
    by_cases here : id = gid <;>
      simp [routeCounter, numberIssued, here, AList.lookup_insert_ne other.symm]
  · intro id m
    simp [numberIssued]

end Frames

/-! What each operation does to the numbers -/

section Steps
variable {s : Store} {c : Catalog} (hold : Consistent s c)
include hold

/-- Of all the activity around the catalog only the clearing of a journal meets the numbers. -/
theorem activity_numbers [UlidText] (a : Activity) :
    SameNumbers s (a.perform s) ∨
      ∃ gid, a = .clearGroupJournal gid ∧ a.perform s = journalCleared s gid := by
  have wk := hold.represents.kinded
  cases a with
  | patchGroup gid ttl sliding callout =>
    left
    show SameNumbers s (run _ s).2
    rcases patchGroup_cases wk gid ttl sliding callout with ⟨e, ran⟩ | ⟨g, g', ran, _⟩
    · rw [ran]
      exact .refl s
    · rw [ran]
      exact sameNumbers_groupPatched s gid g ttl sliding callout
  | refreshGroup gid =>
    left
    show SameNumbers s (run _ s).2
    rcases refreshGroup_cases wk gid with ⟨e, ran⟩ | ⟨g, ran, _⟩
    · rw [ran]
      exact .refl s
    · rw [ran]
      exact sameNumbers_groupArmed s gid g.name g.ttlSeconds
  | refreshGroupIfSliding gid =>
    left
    show SameNumbers s (run _ s).2
    rcases refreshGroupIfSliding_cases wk gid with ⟨r, ran⟩ | ⟨g, ran, _⟩
    · rw [ran]
      exact .refl s
    · rw [ran]
      exact sameNumbers_groupArmed s gid g.name g.ttlSeconds
  | recordRouteHit gid rid now =>
    left
    show SameNumbers s (run _ s).2
    have stamped : SameNumbers s (hitStamped s rid now) := sameNumbers_putHash s
        (by simp) (by simp) _
    rcases run_recordRouteHit wk gid rid now with ⟨e, ran⟩ | ⟨n, ran, _⟩
    · rw [ran]
      exact stamped
    · rw [ran]
      exact (stamped.trans (sameNumbers_putHash _ (by simp) (by simp) _)).trans
        (sameNumbers_putHash _ (by simp) (by simp) _)
  | clearGroupState gid =>
    left
    show SameNumbers s (run _ s).2
    rw [(leads_clearGroupState gid).run_eq wk]
    exact (sameNumbers_without s (p := .kvGroup gid) (by simp [KeyPrefix.covers])
      (by simp [KeyPrefix.covers])).trans (sameNumbers_without _ (p := .gkv gid)
      (by simp [KeyPrefix.covers]) (by simp [KeyPrefix.covers]))
  | setGroupState gid state =>
    left
    show SameNumbers s (run _ s).2
    rw [run_setGroupState]
    exact sameNumbers_statePut s (fun _ => rfl) state
  | clearRouteState groupRef number =>
    left
    show SameNumbers s (run _ s).2
    rcases clearRouteState_cases wk groupRef number with ⟨e, ran⟩ | ⟨rid, r, n, ran, _⟩
    · rw [ran]
      exact .refl s
    · rw [ran]
      exact sameNumbers_without s (by simp [KeyPrefix.covers]) (by simp [KeyPrefix.covers])
  | setRouteState groupRef number state =>
    left
    show SameNumbers s (run _ s).2
    rcases setRouteState_cases wk groupRef number state with ⟨e, ran⟩ | ⟨rid, r, ran, _⟩
    · rw [ran]
      exact .refl s
    · rw [ran]
      exact sameNumbers_statePut s (fun _ => rfl) state
  | clearGroupJournal gid =>
    right
    exact ⟨gid, rfl, congrArg Prod.snd ((leads_clearGroupJournal gid).run_eq wk)⟩
  | recordHandled entry id now =>
    left
    show SameNumbers s (run _ s).2
    rcases run_recordHandled wk entry id now with
      ⟨e, _, _, ran⟩ | ⟨n, record, ends, _, _, _, ran⟩
    · rw [ran]
      exact .refl s
    · rw [ran]
      exact (sameNumbers_numberIssued s _ (by decide) n).trans
        (sameNumbers_stored _ _ (fun _ => ⟨rfl, rfl⟩) (fun _ => ⟨rfl, rfl⟩) id record ends ends)
  | recordCallback entry id now =>
    left
    show SameNumbers s (run _ s).2
    rcases run_recordCallback wk entry id now with ⟨e, _, _, ran⟩ | ⟨n, record, ends, _, _, ran⟩
    · rw [ran]
      exact .refl s
    · rw [ran]
      exact (sameNumbers_numberIssued s _ (by decide) n).trans
        (sameNumbers_stored _ _ (fun _ => ⟨rfl, rfl⟩) (fun _ => ⟨rfl, rfl⟩) id record ends none)
  | recordUnmatched entry id now =>
    left
    show SameNumbers s (run _ s).2
    rcases run_recordUnmatched wk entry id now with ⟨e, ran⟩ | ⟨n, record, ends, _, _, ran⟩
    · rw [ran]
      exact .refl s
    · rw [ran]
      have counted : SameNumbers s (s.write .unmatchedCounter (.bytes (.int n))) := by
        constructor <;> intros <;>
          simp [routeCounter, Storage.hashAt, Storage.bytesAt, Storage.lookup_write]
      exact counted.trans
        (sameNumbers_stored _ _ (fun _ => ⟨rfl, rfl⟩) (fun _ => ⟨rfl, rfl⟩) id record ends none)
  | handlerState gid rid key op =>
    left
    apply sameNumbers_of_lookup
    rintro k typed
    exact lookup_stateOp _ s op (fun same => typed (same ▸ rfl))
  | handlerGroupState gid key op =>
    left
    apply sameNumbers_of_lookup
    rintro k typed
    exact lookup_stateOp _ s op (fun same => typed (same ▸ rfl))

/-- The numbers after a route was created: its own, and the ones before. -/
structure NumberTaken (s t : Store) (r : Route) : Prop where
  taken : ∃ n, (∃ u : Store, u.addInt (.groupCounters r.groupId) (some "next_route_number")
      (routeCounter s r.groupId) 1 = .ok n) ∧ r.number = asU32 n ∧
    ∀ gid, routeCounter t gid = if gid = r.groupId then some (.int n) else routeCounter s gid
  index : ∀ gid n, t.bytesAt (.routeByNumber gid n) =
    if gid = r.groupId ∧ n = r.number then some (.text r.id) else s.bytesAt (.routeByNumber gid n)

/-- The numbers after a route was deleted. -/
structure NumberLeft (s t : Store) (r : Route) : Prop where
  counter : ∀ gid, routeCounter t gid = routeCounter s gid
  index : ∀ gid n, t.bytesAt (.routeByNumber gid n) =
    if gid = r.groupId ∧ n = r.number then none else s.bytesAt (.routeByNumber gid n)

/-- The numbers after a group was deleted: of every other group, the ones before. -/
structure NumbersDropped (s t : Store) (gid : String) : Prop where
  counter : ∀ id, routeCounter t id = if id = gid then none else routeCounter s id
  index : ∀ id n, id ≠ gid →
    t.bytesAt (.routeByNumber id n) = s.bytesAt (.routeByNumber id n)

omit hold in
theorem createRoute_numbers [UlidText] {params : NewRoute} {ids : NewIds} {now : Time} {r : Route}
    {t : Store} (created : RouteCreated s params ids now r t) : NumberTaken s t r := by
  obtain ⟨pattern, g, u, n, _, _, target, _, count, rfl, rfl⟩ := created.made
  have same : SameNumbers s u := by
    cases target with
    | existing => exact .refl s
    | implicit => exact sameNumbers_groupCreated s g
  have sum : u.addInt (.groupCounters g.id) (some "next_route_number") (routeCounter s g.id) 1 =
      .ok n := by
    rw [← same.counter g.id]
    unfold countAnswer at count
    show u.addInt _ _ ((u.hashAt (.groupCounters g.id)).lookup "next_route_number") 1 = .ok n
    cases added : u.addInt (.groupCounters g.id) (some "next_route_number")
        ((u.hashAt (.groupCounters g.id)).lookup "next_route_number") 1 with
    | error e => simp [added, Except.mapError] at count
    | ok m => simpa [added, Except.mapError] using count
  refine ⟨⟨n, ⟨u, sum⟩, rfl, ?_⟩, ?_⟩
  · intro gid
    rw [← same.counter gid]
    by_cases here : gid = g.id <;>
      simp [routeCounter, routeStored, routeCounted, newRoute, here]
  · intro gid m
    rw [← same.index gid m]
    by_cases here : gid = g.id ∧ m = asU32 n <;>
      simp [routeStored, routeCounted, newRoute, here]

omit hold in
theorem updateRoute_numbers {t : Store} {rid : String}
    (same : ∀ k, k ≠ .route rid → SameAt s t k) : SameNumbers s t := by
  constructor
  · intro gid
    unfold routeCounter
    rw [(same (.groupCounters gid) (by simp)).2.1]
  · intro gid n
    exact (same (.routeByNumber gid n) (by simp)).1

omit hold in
theorem deleteRoute_numbers (r : Route) : NumberLeft s (routeDeleted s r.id r) r := by
  constructor
  · intro gid
    simp [routeCounter, routeDeleted, indexesStripped, KeyPrefix.covers]
  · intro gid n
    simp [routeDeleted, indexesStripped, KeyPrefix.covers]

omit hold in
theorem renameGroup_numbers (gid : String) (g : Group) (newName : String) (routes : List Route) :
    SameNumbers s (groupRenamed s gid g newName routes) := by
  have moved : SameNumbers s (nameMoved s gid g newName) := by
    constructor <;> simp [routeCounter, nameMoved, ttlArmed]
  have each : ∀ u, SameNumbers u (routes.foldl (fun t r => routeRenamed newName r t) u) := by
    induction routes with
    | nil => exact .refl
    | cons r rest ih =>
      intro u
      exact (sameNumbers_putHash u (by simp) (by simp) _).trans (ih _)
  exact moved.trans (each _)

omit hold in
theorem routesCascaded_numbers (rep : Represents s c) {gid : String} {ids : List String}
    (distinct : ids.Nodup)
    (live : ∀ rid ∈ ids, ∃ r, c.routes rid = some r ∧ r.id = rid ∧ r.groupId = gid) :
    (∀ id, routeCounter (ids.foldl (fun t rid => routeCascaded gid rid t) s) id =
        routeCounter s id) ∧
      ∀ id n, id ≠ gid → (ids.foldl (fun t rid => routeCascaded gid rid t) s).bytesAt
        (.routeByNumber id n) = s.bytesAt (.routeByNumber id n) := by
  induction ids generalizing s c with
  | nil => exact ⟨fun _ => rfl, fun _ _ _ => rfl⟩
  | cons rid rest ih =>
    have apart := List.nodup_cons.mp distinct
    obtain ⟨r, found, rfl, rfl⟩ := live rid List.mem_cons_self
    have gone := removed_routeCascaded rep found
    have step := represents_removed rep found gone
    obtain ⟨counter, index⟩ := ih step apart.2 (by
      intro id inRest
      obtain ⟨q, there, same, home⟩ := live id (List.mem_cons_of_mem r.id inRest)
      have differ : id ≠ r.id := fun h => apart.1 (h ▸ inRest)
      exact ⟨q, by simpa [Catalog.dropRoute, differ] using there, same, home⟩)
    simp only [List.foldl_cons]
    refine ⟨?_, ?_⟩
    · intro id
      rw [counter]
      unfold routeCounter
      rw [(gone.groups (.groupCounters id) rfl).2.1]
    · intro id n other
      rw [index id n other, gone.byNumber, if_neg (fun both => other both.1)]

theorem cascade_numbers (gid : String) (found : Option Group) :
    NumbersDropped s (groupCascaded gid found s) gid := by
  have live : ∀ rid ∈ s.setAt (.routeInGroup gid),
      ∃ r, c.routes rid = some r ∧ r.id = rid ∧ r.groupId = gid := by
    intro rid member
    obtain ⟨r, there, home⟩ := (hold.represents.routes.inGroup gid rid).mp member
    exact ⟨r, there, hold.sound.routeId there, home⟩
  obtain ⟨counter, index⟩ := routesCascaded_numbers hold.represents (s.setAt_nodup _) live
  constructor
  · intro id
    rw [← counter id]
    by_cases here : id = gid <;> cases found <;>
      simp [routeCounter, groupCascaded, recordCascaded, namespacesErased, KeyPrefix.covers, here]
  · intro id n other
    rw [← index id n other]
    cases found <;>
      simp [groupCascaded, recordCascaded, namespacesErased, KeyPrefix.covers]

/-- A created route goes into the group that was named, or into a new one. -/
theorem createRoute_committed [UlidText] {params : NewRoute} {ids : NewIds} {now : Time}
    {draw : Nat → Draw} (fresh : (Mutation.createRoute params ids now draw).Fresh c.minted)
    {refresh : Refresh} {t : Store}
    (ran : run (Mutation.createRoute params ids now draw).commit s = (.ok refresh, t)) :
    ∃ r, refresh = .create r ∧ NumberTaken s t r ∧
      ((∃ reference, params.group = some reference ∧
          resolvedAnswer s reference = .ok r.groupId) ∨
        params.group = none ∧ r.groupId = ids.group) := by
  have differ : ids.group ≠ ids.route := by simpa [Mutation.draws] using fresh.1
  unfold Mutation.commit at ran
  rw [run_bind] at ran
  rcases createRoute_step hold params ids now draw (fresh.2 _ (by simp [Mutation.draws]))
      (fresh.2 _ (by simp [Mutation.draws])) differ with
    ⟨e, did⟩ | ⟨r, u, d, did, created, added, _⟩
  · simp [did] at ran
  · rw [did, andThen_ok, run_pure] at ran
    cases ran
    refine ⟨r, rfl, createRoute_numbers created, ?_⟩
    rcases added.group with ⟨reference, named, found, _⟩ | ⟨g, unnamed, home, id, _⟩
    · exact .inl ⟨reference, named, found⟩
    · exact .inr ⟨unnamed, home.trans id⟩

/-- What a committed mutation did to the numbers, by the refresh it calls for. -/
inductive Renumbered (s t : Store) (c : Catalog) : Mutation → Refresh → Prop where
  | none {m : Mutation} (same : SameNumbers s t) : Renumbered s t c m .none
  | create {params : NewRoute} {ids : NewIds} {now : Time} {draw : Nat → Draw} {r : Route}
      (taken : NumberTaken s t r) : Renumbered s t c (.createRoute params ids now draw) (.create r)
  | update {m : Mutation} {r : Route} (same : SameNumbers s t) : Renumbered s t c m (.update r)
  | delete {m : Mutation} {r : Route} (live : c.routes r.id = some r) (left : NumberLeft s t r) :
      Renumbered s t c m (.delete r.groupId r.id)
  | rename {m : Mutation} {gid newName : String} (same : SameNumbers s t) :
      Renumbered s t c m (.rename gid newName)
  | cascade {m : Mutation} {gid : String} (dropped : NumbersDropped s t gid) :
      Renumbered s t c m (.cascade gid)

theorem commit_numbers [UlidText] {m : Mutation} {refresh : Refresh} {t : Store}
    (fresh : m.Fresh c.minted) (ran : run m.commit s = (.ok refresh, t)) :
    Renumbered s t c m refresh := by
  have kinded := hold.represents.kinded
  cases m with
  | createGroup params id now draw =>
    have unseen : id ∉ c.minted := fresh.2 id (by simp [Mutation.draws])
    unfold Mutation.commit at ran
    rw [run_bind] at ran
    rcases createGroup_step hold params id now draw unseen with ⟨e, did⟩ | ⟨g, did, _⟩
    · simp [did] at ran
    · rw [did, andThen_ok, run_pure] at ran
      cases ran
      exact .none (sameNumbers_groupCreated s g)
  | createRoute params ids now draw =>
    obtain ⟨r, rfl, taken, _⟩ := createRoute_committed hold fresh ran
    exact .create taken
  | updateRoute groupRef number patch =>
    unfold Mutation.commit at ran
    rw [run_bind] at ran
    rcases updateRoute_step hold groupRef number patch with ⟨e, did⟩ | ⟨old, r, u, did, _, _, same⟩
    · simp [did] at ran
    · rw [did, andThen_ok, run_pure] at ran
      cases ran
      exact .update (updateRoute_numbers same)
  | deleteRoute groupRef number =>
    rcases deleteRoute_commit hold groupRef number with ⟨e, did⟩ | ⟨r, did, live, _⟩
    · simp [did] at ran
    · rw [did] at ran
      cases ran
      exact .delete live (deleteRoute_numbers r)
  | renameGroup groupRef newName =>
    unfold Mutation.commit at ran
    rw [run_bind] at ran
    rcases run_readGroupByRef_live hold groupRef with ⟨e, read⟩ | ⟨g, read, _, _⟩
    · simp [read] at ran
    · rw [read, andThen_ok, run_bind] at ran
      rcases renameGroup_cases kinded g.id newName with
        ⟨e, did⟩ | ⟨gid, h, e, did, _⟩ | ⟨gid, h, did, _⟩ | ⟨h, u, did, renamed⟩
      · simp [did] at ran
      · simp [did] at ran
      · rw [did, andThen_ok, run_pure] at ran
        cases ran
        exact .rename (.refl s)
      · obtain ⟨gid, old, routes, _, _, _, _, _, _, _, rfl⟩ := renamed.made
        rw [did, andThen_ok, run_pure] at ran
        cases ran
        exact .rename (renameGroup_numbers gid old newName routes)
  | deleteGroup groupRef =>
    unfold Mutation.commit at ran
    rw [run_bind] at ran
    rcases run_readGroupByRef_live hold groupRef with ⟨e, read⟩ | ⟨g, read, live, _⟩
    · simp [read] at ran
    · rw [read, andThen_ok, run_bind, cascade_of_live hold live, andThen_ok, run_pure] at ran
      cases ran
      exact .cascade (cascade_numbers hold g.id (some g))

end Steps

/-! The numbers handed out over a run of calls -/

structure NumberingState where
  calls : CallState
  handed : List (String × Nat)

/-- The number a mutation has handed to a route, when it created one. -/
def Refresh.handed : Refresh → List (String × Nat)
  | .create r => [(r.groupId, r.number)]
  | _ => []

def handedBy [UlidText] (s : Store) : Call → List (String × Nat)
  | .mutation m =>
    match (run m.commit s).1 with
    | .ok refresh => refresh.handed
    | .error _ => []
  | _ => []

def numbering [UlidText] : Machine NumberingState Call where
  start s := calls.start s.calls ∧ s.handed = []
  step s call := (calls.step s.calls call).map
    (fun t => ⟨t, handedBy s.calls.store call ++ s.handed⟩)

/-- The numbers handed to routes of one group, the latest first. -/
def numbersOf (handed : List (String × Nat)) (gid : String) : List Nat :=
  (handed.filter (fun entry => entry.1 = gid)).map Prod.snd

/-- No number was handed out twice in a group, and a route's number leads to it. -/
structure NumbersIdentify [UlidText] (s : NumberingState) : Prop where
  distinct : ∀ gid, (numbersOf s.handed gid).Nodup
  leads : ∀ rid r, RouteAt s.calls.store rid r →
    resolvedAnswer s.calls.store r.groupId = .ok r.groupId ∧
      ∀ reference, resolvedAnswer s.calls.store reference = .ok r.groupId →
        run (getRouteBySlug reference r.number) s.calls.store = (.ok r, s.calls.store)

/-- A route goes into a group that has handed out no number, or whose counter is still
    there and has not run through the 32 bits of a number. -/
def CounterKept [UlidText] (s : NumberingState) : Call → Prop
  | .mutation (.createRoute params _ _ _) =>
    ∀ reference gid, params.group = some reference →
      resolvedAnswer s.calls.store reference = .ok gid →
        (numbersOf s.handed gid ≠ [] → routeCounter s.calls.store gid ≠ none) ∧
          issued (routeCounter s.calls.store gid) < u32Size
  | _ => True

/-- The first `count` numbers of a counter, the latest first. -/
def issuedNumbers : Nat → List Nat
  | 0 => []
  | count + 1 => asU32 (count + 1 : Nat) :: issuedNumbers count

theorem mem_issuedNumbers (count n : Nat) :
    n ∈ issuedNumbers count ↔ ∃ k < count, n = asU32 (k + 1 : Nat) := by
  induction count with
  | zero => simp [issuedNumbers]
  | succ count ih =>
    rw [issuedNumbers, List.mem_cons, ih]
    constructor
    · rintro (rfl | ⟨k, below, rfl⟩)
      · exact ⟨count, by omega, rfl⟩
      · exact ⟨k, by omega, rfl⟩
    · rintro ⟨k, below, rfl⟩
      by_cases last : k = count
      · exact .inl (by rw [last])
      · exact .inr ⟨k, by omega, rfl⟩

/-- A counter that stays within 32 bits does not come back to a number. -/
theorem issuedNumbers_nodup {count : Nat} (within : count ≤ u32Size) :
    (issuedNumbers count).Nodup := by
  induction count with
  | zero => exact List.nodup_nil
  | succ count ih =>
    refine List.nodup_cons.mpr ⟨?_, ih (by omega)⟩
    rw [mem_issuedNumbers]
    rintro ⟨k, below, same⟩
    unfold asU32 u32Size at same
    unfold u32Size at within
    omega

structure Numbering (s : Store) (c : Catalog) (handed : List (String × Nat)) : Prop where
  counted : ∀ gid, ∃ count ≤ u32Size, numbersOf handed gid = issuedNumbers count ∧
    (routeCounter s gid = none ∨ routeCounter s gid = some (.int count))
  indexed : ∀ rid r, c.routes rid = some r →
    s.bytesAt (.routeByNumber r.groupId r.number) = some (.text rid) ∧
      r.number ∈ numbersOf handed r.groupId
  known : ∀ entry ∈ handed, entry.1 ∈ c.minted

theorem numbersOf_cons (entry : String × Nat) (handed : List (String × Nat)) (gid : String) :
    numbersOf (entry :: handed) gid =
      if entry.1 = gid then entry.2 :: numbersOf handed gid else numbersOf handed gid := by
  by_cases here : entry.1 = gid <;> simp [numbersOf, here]

/-- A group that no id was drawn for has handed out no number. -/
theorem Numbering.unknown {s : Store} {c : Catalog} {handed : List (String × Nat)}
    (kept : Numbering s c handed) {gid : String} (new : gid ∉ c.minted) :
    numbersOf handed gid = [] := by
  rw [numbersOf, List.map_eq_nil_iff, List.filter_eq_nil_iff]
  intro entry member
  simp only [decide_eq_true_eq]
  rintro rfl
  exact new (kept.known entry member)

section Keeping
variable {s t : Store} {c d : Catalog} {handed : List (String × Nat)}
  (kept : Numbering s c handed)
include kept

/-- The routes that stay keep their numbers where the numbers stay. -/
theorem numbering_same (same : SameNumbers s t)
    (from_ : ∀ rid r, d.routes rid = some r →
      ∃ q, c.routes rid = some q ∧ q.groupId = r.groupId ∧ q.number = r.number)
    (minted : ∀ id ∈ c.minted, id ∈ d.minted) : Numbering t d handed := by
  refine ⟨?_, ?_, fun entry member => minted _ (kept.known entry member)⟩
  · intro gid
    rw [same.counter gid]
    exact kept.counted gid
  · intro rid r live
    obtain ⟨q, before, home, number⟩ := from_ rid r live
    rw [same.index, ← home, ← number]
    exact kept.indexed rid q before

/-- The counter of a cleared journal is gone; the numbers and their index stay. -/
theorem numbering_cleared (gid : String)
    (from_ : ∀ rid r, d.routes rid = some r →
      ∃ q, c.routes rid = some q ∧ q.groupId = r.groupId ∧ q.number = r.number)
    (minted : ∀ id ∈ c.minted, id ∈ d.minted) : Numbering (journalCleared s gid) d handed := by
  refine ⟨?_, ?_, fun entry member => minted _ (kept.known entry member)⟩
  · intro id
    obtain ⟨count, within, numbers, counter⟩ := kept.counted id
    refine ⟨count, within, numbers, ?_⟩
    by_cases here : id = gid
    · left
      simp [routeCounter, journalCleared, here]
    · simpa [routeCounter, journalCleared, KeyPrefix.covers, here] using counter
  · intro rid r live
    obtain ⟨q, before, home, number⟩ := from_ rid r live
    have held := kept.indexed rid q before
    rw [home, number] at held
    simpa [journalCleared, KeyPrefix.covers] using held

/-- A counter answers the count of the numbers handed out, or starts over. -/
theorem number_next {r : Route} (taken : NumberTaken s t r) :
    ∃ count ≤ u32Size, numbersOf handed r.groupId = issuedNumbers count ∧
      ((routeCounter s r.groupId = none ∧ r.number = asU32 (1 : Nat) ∧
          routeCounter t r.groupId = some (.int (1 : Nat))) ∨
        (routeCounter s r.groupId = some (.int count) ∧ r.number = asU32 (count + 1 : Nat) ∧
          routeCounter t r.groupId = some (.int (count + 1 : Nat)))) := by
  obtain ⟨count, within, numbers, counter⟩ := kept.counted r.groupId
  obtain ⟨n, ⟨u, sum⟩, number, after⟩ := taken.taken
  refine ⟨count, within, numbers, ?_⟩
  have here := after r.groupId
  rw [if_pos rfl] at here
  rcases counter with gone | held
  · have unset : Log.Counts (routeCounter s r.groupId) u64Size 0 := .inl ⟨gone, rfl⟩
    obtain ⟨rfl, _⟩ := Log.counts_next unset sum
    exact .inl ⟨gone, number, here⟩
  · have below : count < u64Size := by
      unfold u32Size at within
      unfold u64Size
      omega
    obtain ⟨rfl, _⟩ := Log.counts_next (.inr ⟨held, below⟩) sum
    exact .inr ⟨held, number, here⟩

theorem numbering_taken {r : Route} (taken : NumberTaken s t r)
    (counter : (numbersOf handed r.groupId ≠ [] → routeCounter s r.groupId ≠ none) ∧
      issued (routeCounter s r.groupId) < u32Size)
    (routes : ∀ rid, d.routes rid = if rid = r.id then some r else c.routes rid)
    (minted : ∀ id ∈ c.minted, id ∈ d.minted) (home : r.groupId ∈ d.minted) :
    Numbering t d ((r.groupId, r.number) :: handed) := by
  obtain ⟨present, room⟩ := counter
  have next : ∃ count < u32Size, numbersOf handed r.groupId = issuedNumbers count ∧
      r.number = asU32 (count + 1 : Nat) ∧
      routeCounter t r.groupId = some (.int (count + 1 : Nat)) := by
    obtain ⟨count, within, numbers, ⟨gone, number, after⟩ | ⟨held, number, after⟩⟩ :=
      number_next kept taken
    · have none : count = 0 := by
        by_contra some
        obtain ⟨m, rfl⟩ := Nat.exists_eq_succ_of_ne_zero some
        exact present (by rw [numbers]; simp [issuedNumbers]) gone
      subst none
      exact ⟨0, by decide, numbers, number, after⟩
    · rw [held] at room
      have below : (count : Int) < u32Size := room
      exact ⟨count, by omega, numbers, number, after⟩
  obtain ⟨count, within, numbers, number, after⟩ := next
  have unused : r.number ∉ numbersOf handed r.groupId := by
    have distinct : (issuedNumbers (count + 1)).Nodup := issuedNumbers_nodup (by omega)
    rw [numbers, number]
    exact (List.nodup_cons.mp distinct).1
  obtain ⟨_, _, _, others⟩ := taken.taken
  refine ⟨?_, ?_, ?_⟩
  · intro gid
    rw [numbersOf_cons]
    by_cases here : r.groupId = gid
    · subst here
      refine ⟨count + 1, by omega, ?_, .inr after⟩
      rw [if_pos rfl, numbers, issuedNumbers, number]
    · rw [if_neg here, others gid, if_neg (Ne.symm here)]
      exact kept.counted gid
  · intro rid q live
    rw [routes] at live
    rw [taken.index, numbersOf_cons]
    by_cases mine : rid = r.id
    · rw [if_pos mine, Option.some.injEq] at live
      subst live
      rw [if_pos ⟨rfl, rfl⟩, if_pos rfl, mine]
      exact ⟨rfl, List.mem_cons_self⟩
    · rw [if_neg mine] at live
      obtain ⟨index, member⟩ := kept.indexed rid q live
      have apart : ¬ (q.groupId = r.groupId ∧ q.number = r.number) := by
        rintro ⟨same, number⟩
        exact unused (same ▸ number ▸ member)
      rw [if_neg apart]
      refine ⟨index, ?_⟩
      split
      · exact List.mem_cons_of_mem _ member
      · exact member
  · intro entry member
    rcases List.mem_cons.mp member with rfl | old
    · exact home
    · exact minted _ (kept.known entry old)

theorem numbering_left {r : Route} (live : c.routes r.id = some r) (left : NumberLeft s t r)
    (routes : ∀ rid, d.routes rid = if rid = r.id then none else c.routes rid)
    (minted : ∀ id ∈ c.minted, id ∈ d.minted) : Numbering t d handed := by
  refine ⟨?_, ?_, fun entry member => minted _ (kept.known entry member)⟩
  · intro gid
    rw [left.counter gid]
    exact kept.counted gid
  · intro rid q there
    rw [routes] at there
    by_cases mine : rid = r.id
    · rw [if_pos mine] at there
      cases there
    · rw [if_neg mine] at there
      obtain ⟨index, member⟩ := kept.indexed rid q there
      refine ⟨?_, member⟩
      rw [left.index, if_neg]
      · exact index
      · rintro ⟨same, number⟩
        have own := (kept.indexed r.id r live).1
        rw [← same, ← number, index, Option.some.injEq, Val.text.injEq] at own
        exact mine own

theorem numbering_dropped {gid : String} (dropped : NumbersDropped s t gid)
    (routes : ∀ rid r, d.routes rid = some r → c.routes rid = some r ∧ r.groupId ≠ gid)
    (minted : ∀ id ∈ c.minted, id ∈ d.minted) : Numbering t d handed := by
  refine ⟨?_, ?_, fun entry member => minted _ (kept.known entry member)⟩
  · intro id
    obtain ⟨count, within, numbers, counter⟩ := kept.counted id
    refine ⟨count, within, numbers, ?_⟩
    rw [dropped.counter id]
    by_cases here : id = gid
    · rw [if_pos here]
      exact .inl rfl
    · rw [if_neg here]
      exact counter
  · intro rid r live
    obtain ⟨before, other⟩ := routes rid r live
    rw [dropped.index r.groupId r.number other]
    exact kept.indexed rid r before

end Keeping

/-! The run of calls -/

section Machine
variable [UlidText]

/-- What a run of calls keeps. -/
def Numbered (s : NumberingState) : Prop :=
  ∃ c, Stored s.calls c ∧ Numbering s.calls.store c s.handed

theorem possible_fresh {s : CallState} {c : Catalog} (held : Stored s c) {m : Mutation}
    (possible : (Call.mutation m).Possible s.minted) : m.Fresh c.minted :=
  ⟨possible.1, fun id drawn inside =>
    (possible.2.1 id drawn).1 ((held.minted id).mp inside)⟩

theorem handedBy_commit {s t : Store} {m : Mutation} {refresh : Refresh}
    (ran : run m.commit s = (.ok refresh, t)) : handedBy s (.mutation m) = refresh.handed := by
  simp only [handedBy, ran]

theorem numbered_create {s : Store} {minted : List String} {c d : Catalog}
    {handed : List (String × Nat)}
    (held : Stored ⟨s, minted⟩ c) (kept : Numbering s c handed) {params : NewRoute} {ids : NewIds}
    {now : Time} {draw : Nat → Draw}
    (fresh : (Mutation.createRoute params ids now draw).Fresh c.minted) {r : Route} {t : Store}
    (ran : run (Mutation.createRoute params ids now draw).commit s = (.ok (.create r), t))
    (committed : Committed c (.create r) d)
    {e : Catalog} {grown : List String} (after : Stored ⟨t, grown⟩ e) (routes : e.routes = d.routes)
    (more : ∀ id ∈ c.minted, id ∈ e.minted)
    (allowed : CounterKept ⟨⟨s, minted⟩, handed⟩ (.mutation (.createRoute params ids now draw))) :
    Numbering t e ((r.groupId, r.number) :: handed) := by
  have placed : ∀ rid, e.routes rid = if rid = r.id then some r else c.routes rid := by
    intro rid
    rw [routes]
    cases committed with
    | route place new => rcases place with rfl | ⟨g, _, rfl⟩ <;> rfl
  obtain ⟨_, same, taken, place⟩ := createRoute_committed held.consistent fresh ran
  cases same
  have counter : (numbersOf handed r.groupId ≠ [] → routeCounter s r.groupId ≠ none) ∧
      issued (routeCounter s r.groupId) < u32Size := by
    rcases place with ⟨reference, named, found⟩ | ⟨_, home⟩
    · exact allowed reference r.groupId named found
    · have new : r.groupId ∉ c.minted := home ▸ fresh.2 _ (by simp [Mutation.draws])
      have vacant := (held.consistent.represents.groups.fresh r.groupId new).2
      rw [kept.unknown new]
      refine ⟨fun some => absurd rfl some, ?_⟩
      simp [routeCounter, vacant, issued, u32Size]
  have home : r.groupId ∈ e.minted := by
    obtain ⟨g, live, _⟩ := after.consistent.sound.parent ((placed r.id).trans (if_pos rfl))
    exact after.consistent.sound.mintedGroup live
  exact numbering_taken kept taken counter placed more home

theorem numbered_mutation {s : NumberingState} {m : Mutation} (numbered : Numbered s)
    (possible : (Call.mutation m).Possible s.calls.minted)
    (allowed : CounterKept s (.mutation m)) :
    Numbered ⟨⟨(run m.commit s.calls.store).2, m.draws ++ s.calls.minted⟩,
      handedBy s.calls.store (.mutation m) ++ s.handed⟩ := by
  obtain ⟨c, held, kept⟩ := numbered
  have fresh := possible_fresh held possible
  rcases stored_commit held m possible with
    ⟨e, ran, d, after, routes, _⟩ | ⟨refresh, t, d, e, ran, committed, after, routes, groups⟩
  · refine ⟨d, by rw [ran]; exact after, ?_⟩
    have none : handedBy s.calls.store (.mutation m) = [] := by simp [handedBy, ran]
    rw [none, ran]
    refine numbering_same kept (.refl _) ?_ ?_
    · intro rid r live
      exact ⟨r, routes ▸ live, rfl, rfl⟩
    · intro id member
      exact (after.minted id).mpr (List.mem_append_right _ ((held.minted id).mp member))
  · refine ⟨e, by rw [ran]; exact after, ?_⟩
    have grown : ∀ id ∈ c.minted, id ∈ e.minted := fun id member =>
      (after.minted id).mpr (List.mem_append_right _ ((held.minted id).mp member))
    have changed := commit_numbers held.consistent fresh ran
    rw [handedBy_commit ran, ran]
    cases changed with
    | none same =>
      cases committed with
      | group new => exact numbering_same kept same (fun rid r live =>
          ⟨r, (congrFun routes rid).symm.trans live, rfl, rfl⟩) grown
    | create taken =>
      exact numbered_create held kept fresh ran committed after routes grown allowed
    | update same =>
      rename_i r
      cases committed with
      | update before id home carried number owner =>
        rename_i old
        refine numbering_same kept same ?_ grown
        intro rid q live
        have live : (if rid = r.id then some r else c.routes rid) = some q :=
          (congrFun routes rid).symm.trans live
        by_cases here : rid = r.id
        · rw [if_pos here, Option.some.injEq] at live
          subst live
          exact ⟨old, by rw [here, id]; exact before, home.symm, number.symm⟩
        · rw [if_neg here] at live
          exact ⟨q, live, rfl, rfl⟩
    | delete live left =>
      rename_i r
      have dropped := committed_delete committed
      exact numbering_left kept live left (fun rid => by rw [routes, dropped]; rfl) grown
    | rename same =>
      refine numbering_same kept same ?_ grown
      intro rid q live
      rw [routes] at live
      cases committed with
      | rename =>
        obtain ⟨x, before, rfl⟩ := Catalog.renameGroup_routes.mp live
        obtain ⟨home, number⟩ := Catalog.renamedRoute_place _ _ x
        exact ⟨x, before, home.symm, number.symm⟩
      | keep => exact ⟨q, live, rfl, rfl⟩
    | cascade dropped =>
      refine numbering_dropped kept dropped ?_ grown
      intro rid q live
      rw [routes] at live
      cases committed with
      | cascade => exact Catalog.dropGroup_routes.mp live

omit [UlidText] in
/-- The routes of an activity's catalog are those before, in place and number. -/
theorem Alike.places {c d : Catalog} (alike : Alike c d) (rid : String) (r : Route)
    (live : d.routes rid = some r) :
    ∃ q, c.routes rid = some q ∧ q.groupId = r.groupId ∧ q.number = r.number := by
  obtain ⟨q, before, core⟩ := alike.route live
  exact ⟨q, before, (same_route core).groupId, (same_route core).number⟩

theorem numbered_step {s t : NumberingState} {call : Call} (numbered : Numbered s)
    (allowed : CounterKept s call) (next : numbering.step s call = some t) : Numbered t := by
  obtain ⟨u, moved, rfl⟩ := Option.map_eq_some_iff.mp next
  simp only [calls] at moved
  split at moved
  · rename_i possible
    cases moved
    cases call with
    | mutation m => exact numbered_mutation numbered possible allowed
    | cascadeDeleteGroup gid =>
      obtain ⟨c, held, kept⟩ := numbered
      rcases cascadeDeleteGroup_step held.consistent gid with ⟨e, ran⟩ | ⟨ran, after⟩
      · exact ⟨c, by simpa [Call.perform, Call.draws, ran] using held, by
          simpa [Call.perform, handedBy, ran] using kept⟩
      · refine ⟨c.dropGroup gid, ⟨?_, held.minted, held.ulids⟩, ?_⟩
        · simpa [Call.perform, ran] using after
        · have dropped := cascade_numbers held.consistent gid (c.groups gid)
          simpa [Call.perform, handedBy, ran] using numbering_dropped kept dropped
            (fun rid r live => Catalog.dropGroup_routes.mp live) (fun _ old => old)
    | activity a =>
      obtain ⟨c, held, kept⟩ := numbered
      obtain ⟨d, after, alike⟩ := stored_activity held a possible.2.2
      refine ⟨d, after, ?_⟩
      have minted : ∀ id ∈ c.minted, id ∈ d.minted := fun id old => alike.minted.symm ▸ old
      rcases activity_numbers held.consistent a with same | ⟨gid, _, cleared⟩
      · exact numbering_same kept same alike.places minted
      · show Numbering (a.perform s.calls.store) d s.handed
        rw [cleared]
        exact numbering_cleared kept gid alike.places minted
  · cases moved

theorem numbering_numbered {s : NumberingState} (reached : Reached numbering CounterKept s) :
    Numbered s := by
  have base : ∀ s, numbering.start s → Numbered s := by
    rintro ⟨calls, handed⟩ ⟨⟨b, rfl⟩, rfl⟩
    refine ⟨Catalog.empty, ⟨consistent_empty b, by simp [Catalog.empty], by simp⟩, ?_⟩
    constructor
    · intro gid
      exact ⟨0, Nat.zero_le _, rfl, .inl (by simp [routeCounter])⟩
    · intro rid r live
      cases live
    · simp
  exact reached_invariant base (fun s call t held allowed next => numbered_step held allowed next)
    reached

theorem numbered_identify {s : NumberingState} (numbered : Numbered s) : NumbersIdentify s := by
  obtain ⟨c, held, kept⟩ := numbered
  have rep := held.consistent.represents
  have sound := held.consistent.sound
  constructor
  · intro gid
    obtain ⟨count, within, numbers, _⟩ := kept.counted gid
    rw [numbers]
    exact issuedNumbers_nodup within
  · intro rid r record
    have live := (rep.routes.record rid r).mp record
    obtain ⟨g, home, _⟩ := sound.parent live
    obtain ⟨reads, text⟩ := held.ulids _ ((held.minted _).mp (sound.mintedGroup home))
    refine ⟨resolved_own ((rep.groups.record _ g).mpr home) reads text, ?_⟩
    intro reference found
    have slug : slugAnswer s.calls.store reference r.number = .ok rid :=
      slug_ok_iff.mpr ⟨r.groupId, found, (kept.indexed rid r live).1⟩
    rw [run_getRouteBySlug rep.kinded, slug]
    exact congrArg (fun answer => (answer, s.calls.store)) (routeAnswer_of_live rep live)

theorem createRoute_repeats {s t : Store} {minted : List String} {c : Catalog}
    {handed : List (String × Nat)} (held : Stored ⟨s, minted⟩ c) (kept : Numbering s c handed)
    {params : NewRoute} {ids : NewIds} {now : Time} {draw : Nat → Draw}
    (fresh : (Mutation.createRoute params ids now draw).Fresh c.minted) {refresh : Refresh}
    (ran : run (Mutation.createRoute params ids now draw).commit s = (.ok refresh, t))
    (beyond : ¬ CounterKept ⟨⟨s, minted⟩, handed⟩ (.mutation (.createRoute params ids now draw))) :
    ∃ gid, ¬ (numbersOf (refresh.handed ++ handed) gid).Nodup := by
  obtain ⟨r, rfl, taken, place⟩ := createRoute_committed held.consistent fresh ran
  have meets : ¬ ((numbersOf handed r.groupId ≠ [] → routeCounter s r.groupId ≠ none) ∧
      issued (routeCounter s r.groupId) < u32Size) := by
    intro within
    apply beyond
    intro reference gid named found
    rcases place with ⟨other, namedToo, foundToo⟩ | ⟨unnamed, _⟩
    · rw [named, Option.some.injEq] at namedToo
      subst namedToo
      have same := found.symm.trans foundToo
      rw [Except.ok.injEq] at same
      subst same
      exact within
    · simp [named] at unnamed
  -- the number is the first one again, which the group has handed out
  have again : r.number = asU32 (1 : Nat) ∧ ∃ count > 0, numbersOf handed r.groupId =
      issuedNumbers count := by
    obtain ⟨count, within, numbers, ⟨gone, number, _⟩ | ⟨held, number, _⟩⟩ :=
      number_next kept taken
    · refine ⟨number, count, ?_, numbers⟩
      by_contra zero
      have none : count = 0 := by omega
      subst none
      exact meets ⟨fun some => absurd numbers some, by simp [gone, issued, u32Size]⟩
    · have full : u32Size ≤ count := by
        by_contra room
        refine meets ⟨fun _ => by simp [held], ?_⟩
        simp only [held, issued]
        omega
      have whole : count = u32Size := by omega
      subst whole
      exact ⟨number.trans (by decide), u32Size, by decide, numbers⟩
  obtain ⟨number, count, positive, numbers⟩ := again
  refine ⟨r.groupId, ?_⟩
  simp only [Refresh.handed, List.singleton_append, numbersOf_cons, if_true, List.nodup_cons,
    not_and]
  intro unused
  exact absurd (numbers ▸ (mem_issuedNumbers count r.number).mpr ⟨0, positive, number⟩) unused

/-- A route created without its counter, or past 32 bits, takes the first number again. -/
theorem number_repeats {s t : NumberingState} {call : Call} (numbered : Numbered s)
    (next : numbering.step s call = some t) (beyond : ¬ CounterKept s call) :
    t.handed = s.handed ∨ ¬ NumbersIdentify t := by
  obtain ⟨u, moved, rfl⟩ := Option.map_eq_some_iff.mp next
  simp only [calls] at moved
  split at moved
  · rename_i possible
    cases moved
    obtain ⟨c, held, kept⟩ := numbered
    cases call with
    | mutation m =>
      cases m with
      | createRoute params ids now draw =>
        have fresh := possible_fresh held possible
        cases ran : run (Mutation.createRoute params ids now draw).commit s.calls.store with
        | mk answer after =>
          cases answer with
          | error e => exact .inl (by simp [handedBy, ran])
          | ok refresh =>
            right
            intro identify
            obtain ⟨gid, twice⟩ := createRoute_repeats held kept fresh ran beyond
            have once := identify.distinct gid
            rw [handedBy_commit ran] at once
            exact twice once
      | _ => exact absurd trivial beyond
    | _ => exact absurd trivial beyond
  · cases moved

/-- Route numbers identify routes along every run that keeps the counters, and the
    first number that is handed out beyond that is handed out twice. -/
theorem route_numbers_identify :
    (∀ s, Reached numbering CounterKept s → NumbersIdentify s) ∧
      ∀ s call t, Reached numbering CounterKept s → numbering.step s call = some t →
        ¬ CounterKept s call → t.handed = s.handed ∨ ¬ NumbersIdentify t :=
  ⟨fun _ reached => numbered_identify (numbering_numbered reached),
    fun _ _ _ reached next beyond => number_repeats (numbering_numbered reached) next beyond⟩

end Machine

namespace Sample

/-- A route created, the journal of its group cleared, and another route created. -/
def clearedBetween : List Call :=
  [.mutation (.createGroup (group "shop" "ann") idA 0 draw),
    .mutation (.createRoute (route "shop" "/a" "one" "ann") ⟨idB, idC⟩ 1 draw),
    .activity (.clearGroupJournal idA),
    .mutation (.createRoute (route "shop" "/b" "two" "ann") ⟨idD, idE⟩ 2 draw)]

end Sample

/-- Once the journal of its group was cleared, the number of a route is given to another. -/
theorem route_number_reused :
    ∃ s : NumberingState, Reached numbering (fun _ _ => True) s ∧
      s.handed = [(Sample.idA, 1), (Sample.idA, 1)] ∧ ¬ NumbersIdentify s := by
  have ran : ((exec numbering ⟨⟨Storage.empty .inMemory, []⟩, []⟩ Sample.clearedBetween).map
      NumberingState.handed) = some [(Sample.idA, 1), (Sample.idA, 1)] := by decide +kernel
  obtain ⟨s, done, handed⟩ := Option.map_eq_some_iff.mp ran
  refine ⟨s, reached_of_exec Sample.clearedBetween ⟨⟨.inMemory, rfl⟩, rfl⟩ done, handed, ?_⟩
  intro identify
  have distinct := identify.distinct Sample.idA
  rw [handed] at distinct
  exact absurd distinct (by decide)

end WireMirage
