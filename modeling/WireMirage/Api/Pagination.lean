import WireMirage.Journal.Addressing

/-!
The listings of the journal a page at a time. The journal changes between the pages:
records are added, expire, or go with the journal of their group.
-/
namespace WireMirage
open Prog StepMachine

/-! Pages -/

structure JournalQuery where
  before : Option Nat
  limit : Option Nat
  deriving DecidableEq, Repr

structure JournalPage (A : Type) where
  entries : List A
  nextBefore : Option Nat
  deriving DecidableEq, Repr

def JournalQuery.cursor (q : JournalQuery) : ListCursor := ⟨q.before, q.limit.getD 100⟩

/-- The cursor is the last record read, whether the filter of the request lets it pass or not. -/
def journalPage {A : Type} (number : A → Nat) (accepts : A → Bool) (entries : List A) :
    JournalPage A where
  entries := entries.filter accepts
  nextBefore := (entries.getLast?.filter (fun e => 1 < number e)).map number

namespace Api

def listJournal (groupId : String) (q : JournalQuery) (accepts : JournalRecord → Bool) :
    Jnl (JournalPage JournalRecord) := do
  let entries ← listForGroup groupId q.cursor
  return journalPage JournalRecord.number accepts entries

def listCallbacks (groupId : String) (q : JournalQuery) : Jnl (JournalPage CallbackRecord) := do
  let entries ← listCallbacksForGroup groupId q.cursor
  return journalPage CallbackRecord.number (fun _ => true) entries

def listUnmatched (visible : Option (List String)) (q : JournalQuery)
    (accepts : UnmatchedRecord → Bool) : Jnl (JournalPage UnmatchedRecord) := do
  let entries ← WireMirage.listUnmatched q.cursor visible
  return journalPage UnmatchedRecord.number accepts entries

end Api

/-! Walks: each request continues where the page before it ended -/

section Walks
variable {A : Type} (request : Nat → Option Nat → Jnl (JournalPage A)) (found : Nat → Store)

/-- The page that a request is answered with; none if it fails. -/
def answered (p : Jnl (JournalPage A)) (s : Store) : JournalPage A :=
  match (run p s).1 with
  | .ok page => page
  | .error _ => ⟨[], none⟩

/-- The cursor that each request of a walk presents, as long as there are requests. -/
def cursorAt : Nat → Option (Option Nat)
  | 0 => some none
  | k + 1 => (cursorAt k).bind
      (fun before => (answered (request k before) (found k)).nextBefore.map some)

def returnedAt (k : Nat) : List A :=
  match cursorAt request found k with
  | none => []
  | some before => (answered (request k before) (found k)).entries

/-- All that a walk has returned before a request. -/
def returned (k : Nat) : List A := (List.range k).flatMap (returnedAt request found)

/-- A walk comes to an end with its numbers going down, and what it was to return all along
    is among what it has returned exactly once. -/
def CompleteWalk (log : Log A) (wanted : Nat → A → Bool) : Prop :=
  ∃ k, cursorAt request found k = none ∧
    (returned request found k).Pairwise (fun a b => log.number b < log.number a) ∧
    ∀ id record, (∀ j, cursorAt request found j ≠ none →
        log.Live (found j) id record ∧ wanted j record = true) →
      ∃! i : Nat, (returned request found k)[i]? = some record

end Walks

/-- Walks that start from a state are complete in all three listings, whatever else the journal
    does between their requests. -/
def Paginates (s : JournalState) : Prop :=
  ∀ found : Nat → JournalState, found 0 = s →
    (∀ k, Run journaling WithinNumbers (found k) (found (k + 1))) → ∀ limit : Nat → Option Nat,
    (∀ gid accepts, CompleteWalk (fun k before => Api.listJournal gid ⟨before, limit k⟩ (accepts k))
      (fun k => (found k).store) (handledLog gid) accepts) ∧
    (∀ gid, CompleteWalk (fun k before => Api.listCallbacks gid ⟨before, limit k⟩)
      (fun k => (found k).store) (callbackLog gid) (fun _ _ => true)) ∧
    ∀ (visible : Nat → Option (List String)) (accepts : Nat → UnmatchedRecord → Bool),
      CompleteWalk (fun k before => Api.listUnmatched (visible k) ⟨before, limit k⟩ (accepts k))
        (fun k => (found k).store) unmatchedLog
        (fun k record => visibleTo (visible k) record && accepts k record)

theorem once_of_decreasing {A : Type} {number : A → Nat} {as : List A} {a : A}
    (down : as.Pairwise (fun a b => number b < number a)) (member : a ∈ as) :
    ∃! i : Nat, as[i]? = some a := by
  obtain ⟨i, at_⟩ := List.mem_iff_getElem?.mp member
  refine ⟨i, at_, ?_⟩
  intro j other
  obtain ⟨within, here⟩ := List.getElem?_eq_some_iff.mp at_
  obtain ⟨within', there⟩ := List.getElem?_eq_some_iff.mp other
  rcases Nat.lt_trichotomy j i with low | same | high
  · have falls := List.pairwise_iff_getElem.mp down j i within' within low
    rw [here, there] at falls
    omega
  · exact same
  · have falls := List.pairwise_iff_getElem.mp down i j within within' high
    rw [here, there] at falls
    omega

section Pages
variable {A : Type} {log : Log A} {request : Nat → Option Nat → Jnl (JournalPage A)}
  {found : Nat → Store} {limit count : Nat → Nat} {visible accepts : Nat → A → Bool}
  {v : Nat → Option Val} {bound : Nat}

/-- A walk whose pages are cut from addressed logs is complete. -/
theorem completeWalk_of_pages
    (counts : ∀ k, Log.Counts (v k) bound (count k))
    (addressed : ∀ k, ∃ known, (log.view (found k) (count k)).Addressed log.number known)
    (pages : ∀ k before, answered (request k before) (found k) =
      journalPage log.number (accepts k)
        (NumberedLog.walkDown (log.view (found k) (count k)).fetch (visible k) (limit k + 1)
          (Log.startingFrom (v k) bound ⟨before, limit k⟩))) :
    CompleteWalk request found log (fun k record => visible k record && accepts k record) := by
  let get := fun k => (log.view (found k) (count k)).fetch
  let first := Log.startingFrom (v 0) bound ⟨none, limit 0⟩
  have number : ∀ k n a, get k n = some a → log.number a = n := by
    intro k n a at_
    obtain ⟨known, here⟩ := addressed k
    exact here.fetch_number at_
  have start : ∀ k, NumberedLog.startAt get visible limit log.number first k =
      (cursorAt request found k).map
        (fun before => Log.startingFrom (v k) bound ⟨before, limit k⟩) := by
    intro k
    induction k with
    | zero => rfl
    | succ k ih =>
      rw [NumberedLog.startAt, ih, cursorAt]
      cases cursorAt request found k with
      | none => rfl
      | some before =>
        simp only [Option.map_some, Option.bind_some, pages, journalPage, NumberedLog.below,
          Option.map_map]
        rfl
  have page : ∀ k, returnedAt request found k =
      (NumberedLog.pageAt get visible limit log.number first k).filter (accepts k) := by
    intro k
    rw [returnedAt, NumberedLog.pageAt, start]
    cases cursorAt request found k with
    | none => rfl
    | some before =>
      simp only [pages, journalPage]
      rfl
  have down : ∀ k, (returned request found k).Pairwise
      (fun a b => log.number b < log.number a) := by
    intro k
    refine List.pairwise_flatMap.mpr ⟨?_, ?_⟩
    · intro j _
      rw [page]
      exact (NumberedLog.pageAt_decreasing number j).filter _
    · refine List.pairwise_lt_range.imp ?_
      intro i j later a one b two
      rw [page] at one two
      exact NumberedLog.pages_decreasing number later (List.mem_of_mem_filter one)
        (List.mem_of_mem_filter two)
  refine ⟨first + 1, ?_, down _, ?_⟩
  · have ends : NumberedLog.startAt get visible limit log.number first (first + 1) = none :=
      NumberedLog.startAt_ends number
    rw [start] at ends
    exact Option.map_eq_none_iff.mp ends
  · intro id record wanted
    have asked : ∀ k, NumberedLog.startAt get visible limit log.number first k ≠ none →
        log.Live (found k) id record ∧ visible k record = true ∧ accepts k record = true := by
      intro k starts
      rw [start] at starts
      have here := wanted k (fun none => starts (by rw [none]; rfl))
      simpa using here
    have kept : ∀ k, NumberedLog.startAt get visible limit log.number first k ≠ none →
        get k (log.number record) = some record ∧ visible k record = true := by
      intro k starts
      obtain ⟨live, seen, _⟩ := asked k starts
      obtain ⟨known, here⟩ := addressed k
      exact ⟨here.fetch live, seen⟩
    have within : 0 < log.number record ∧ log.number record ≤ first := by
      obtain ⟨known, here⟩ := addressed 0
      have counted := here.counted id record (asked 0 (by simp [NumberedLog.startAt])).1
      have top : first = count 0 := Log.starting_from_counter (counts 0) (limit 0)
      rw [top]
      exact counted
    obtain ⟨k, member⟩ := NumberedLog.mem_pageAt number within.1 within.2 kept
    obtain ⟨n, starts, _⟩ := NumberedLog.pageAt_start number member
    have bound := NumberedLog.startAt_bound number starts
    obtain ⟨_, _, accepted⟩ := asked k (by rw [starts]; simp)
    apply once_of_decreasing (down _)
    refine List.mem_flatMap.mpr ⟨k, List.mem_range.mpr (by omega), ?_⟩
    rw [page]
    exact List.mem_filter.mpr ⟨member, accepted⟩

/-- So is one whose requests walk down from the counters of a log that is kept. -/
theorem completeWalk_of_kept (wk : ∀ k, (found k).WellKinded)
    (kept : ∀ k, ∃ minted, log.Kept (found k) minted (v k) bound)
    {list : Nat → ListCursor → Jnl (List A)}
    (walks : ∀ k cursor, run (list k cursor) (found k) = run (log.collectDown (visible k)
      (Log.clampLimit cursor.limit) (Log.startingFrom (v k) bound cursor)) (found k))
    (limit : Nat → Option Nat) :
    CompleteWalk (fun k before => list k (JournalQuery.cursor ⟨before, limit k⟩) >>= fun entries =>
        pure (journalPage log.number (accepts k) entries)) found log
      (fun k record => visible k record && accepts k record) := by
  have counted : ∀ k, ∃ count, Log.Counts (v k) bound count ∧
      ∃ known, (log.view (found k) count).Addressed log.number known := by
    intro k
    obtain ⟨minted, ⟨count, counts, addressed⟩, _⟩ := kept k
    exact ⟨count, counts, _, addressed⟩
  choose count counts addressed using counted
  have pages : ∀ k before, answered (list k (JournalQuery.cursor ⟨before, limit k⟩) >>=
      fun entries =>
        pure (journalPage log.number (accepts k) entries)) (found k) =
      journalPage log.number (accepts k) (NumberedLog.walkDown (log.view (found k) (count k)).fetch
        (visible k) (Log.clampLimit ((limit k).getD 100) - 1 + 1)
        (Log.startingFrom (v k) bound
          ⟨before, Log.clampLimit ((limit k).getD 100) - 1⟩)) := by
    intro k before
    have positive : Log.clampLimit ((limit k).getD 100) - 1 + 1 =
        Log.clampLimit ((limit k).getD 100) := by
      unfold Log.clampLimit
      omega
    rw [answered, run_bind, walks, log.run_collectDown (wk k) (count k), positive]
    rfl
  exact completeWalk_of_pages counts addressed pages

end Pages

/-! What the journal keeps makes its listings complete -/

theorem paginates_of_kept {s : JournalState} (kept : JournalKept s.store s.minted) :
    Paginates s := by
  rintro found rfl onward limit
  have held : ∀ k, JournalKept (found k).store (found k).minted := by
    intro k
    induction k with
    | zero => exact kept
    | succ k ih =>
      have preserved : ∀ s a t, JournalKept s.store s.minted → WithinNumbers s a →
          journaling.step s a = some t → JournalKept t.store t.minted :=
        fun _ _ _ kept within stepped => journaling_step kept within stepped
      exact run_invariant preserved (onward k) ih
  have wk : ∀ k, (found k).store.WellKinded := fun k => (held k).kinded
  refine ⟨?_, ?_, ?_⟩
  · intro gid accepts
    exact completeWalk_of_kept wk (fun k => ⟨_, (held k).scopes (.handled gid)⟩)
      (fun k => run_listForGroup (wk k) gid) limit
  · intro gid
    exact completeWalk_of_kept wk (fun k => ⟨_, (held k).scopes (.callbacks gid)⟩)
      (fun k => run_listCallbacksForGroup (wk k) gid) limit
  · intro visible accepts
    exact completeWalk_of_kept wk (fun k => ⟨_, (held k).scopes .unmatched⟩)
      (fun k => run_listUnmatched (wk k) (visible k)) limit

/-- The first page of a log that is lost is empty and the last one. -/
theorem incomplete_of_lost {A : Type} {log : Log A} {s : Store}
    {request : Nat → Option Nat → Jnl (JournalPage A)} {wanted : Nat → A → Bool}
    (empty : answered (request 0 none) s = ⟨[], none⟩) {id : String} {record : A}
    (live : log.Live s id record) (all : ∀ j, wanted j record = true) :
    ¬ CompleteWalk request (fun _ => s) log wanted := by
  rintro ⟨k, ends, _, complete⟩
  have finished : ∀ j, cursorAt request (fun _ => s) (j + 1) = none := by
    intro j
    induction j with
    | zero =>
      simp [cursorAt, empty]
    | succ j ih =>
      rw [cursorAt, ih]
      rfl
  have nothing : ∀ j, returnedAt request (fun _ => s) j = [] := by
    intro j
    cases j with
    | zero =>
      show (answered (request 0 none) s).entries = []
      rw [empty]
    | succ j =>
      rw [returnedAt, finished j]
  obtain ⟨i, at_, _⟩ := complete id record (fun j _ => ⟨live, all j⟩)
  have member := List.mem_of_getElem? at_
  obtain ⟨j, _, here⟩ := List.mem_flatMap.mp member
  rw [nothing] at here
  cases here

theorem not_paginates_of_lost {s : JournalState} (lost : JournalLost s.store) : ¬ Paginates s := by
  intro paginates
  obtain ⟨handled, callbacks, _⟩ := paginates (fun _ => s) rfl (fun _ => .refl s) (fun _ => none)
  obtain ⟨wk, gid, lost⟩ := lost
  rcases lost with lost | lost
  · obtain ⟨id, record, live⟩ := lost.2
    refine incomplete_of_lost ?_ live (fun _ => rfl) (handled gid (fun _ _ => true))
    rw [answered, Api.listJournal, run_bind, JournalQuery.cursor,
      Log.lost_page wk (run_listForGroup wk gid) lost]
    rfl
  · obtain ⟨id, record, live⟩ := lost.2
    refine incomplete_of_lost ?_ live (fun _ => rfl) (callbacks gid)
    rw [answered, Api.listCallbacks, run_bind, JournalQuery.cursor,
      Log.lost_page wk (run_listCallbacksForGroup wk gid) lost]
    rfl

/-- Every walk is complete as long as the numbers stay in bounds and no journal is cleared over
    callbacks, and none of some group's is after the first step beyond. -/
theorem journal_pagination (s : JournalState) (reached : Reached journaling WithinNumbers s) :
    Paginates s ∧ ∀ a t, journaling.step s a = some t → ¬ WithinNumbers s a → ¬ Paginates t := by
  have kept := reached_journalKept reached
  exact ⟨paginates_of_kept kept,
    fun a t stepped beyond => not_paginates_of_lost (lost_beyond kept stepped beyond)⟩

/-- A group with one callback, over an empty journal. -/
theorem Sample.one_callback : ∃ s, Reached journaling WithinNumbers s ∧ s.minted = [Sample.idC] ∧
    ∃ record, (callbackLog Sample.idA).Live s.store Sample.idC record := by
  have few : issued (callbackCounter (Storage.empty .valkey) Sample.idA) + 1 < u32Size := by
    decide +kernel
  have first : Reached journaling WithinNumbers ⟨Storage.empty .valkey, []⟩ :=
    reached_start unrecorded_empty
  let callback := JournalAction.recordCallback (Sample.callback Sample.idA "https://a.test/")
    Sample.idC 1
  have here : WithinNumbers ⟨Storage.empty .valkey, []⟩ callback := few
  exact ⟨_, reached_step first here rfl, rfl, _, rfl⟩

theorem journal_pagination_shop : ∃ s, Reached journaling WithinNumbers s ∧
    s.minted = [Sample.idC] ∧ Paginates s := by
  obtain ⟨s, reached, minted, _⟩ := Sample.one_callback
  exact ⟨s, reached, minted, (journal_pagination s reached).1⟩

/-- The journal of the group is cleared, and its listing of callbacks starts from no number. -/
theorem listing_misses_callback :
    ∃ s, Reached journaling (fun _ _ => True) s ∧ ¬ Paginates s := by
  obtain ⟨s, reached, _, record, live⟩ := Sample.one_callback
  have cleared : journaling.step s (.clearGroupJournal Sample.idA) =
      some { s with store := (run (clearGroupJournal Sample.idA) s.store).2 } := rfl
  refine ⟨_, reached_step (reached_mono (fun _ _ _ => trivial) reached) trivial cleared, ?_⟩
  apply not_paginates_of_lost
  apply lost_beyond (reached_journalKept reached) cleared
  intro within
  exact within Sample.idC record live

end WireMirage
