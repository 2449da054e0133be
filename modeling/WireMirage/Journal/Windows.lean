import WireMirage.Journal.Addressing
import WireMirage.Library.Timeline

/-!
How many unmatched requests were recorded in the last while. The walk goes down from the
counter until a record is too old, until it has examined as many numbers as it may, or until
no number is left.
-/
namespace WireMirage
open Prog StepMachine

structure UnmatchedWindowCount where
  count : Nat
  saturated : Bool
  deriving DecidableEq, Repr

def unmatchedWindowScanCap : Nat := 2000

/-- The loop from `n` down, with what it has scanned and counted; it answers the count and how
    many numbers it scanned. -/
def scanWindow (cap cutoff : Nat) (visibleGroups : Option (List String)) :
    Nat → Nat → Nat → Jnl (UnmatchedWindowCount × Nat)
  | 0, scanned, count => return (⟨count, false⟩, scanned)
  | n + 1, scanned, count =>
    if scanned < cap then do
      match ← Prog.attempt (getUnmatched (n + 1)) with
      | .ok record =>
        if record.createdAt < cutoff then return (⟨count, false⟩, scanned + 1)
        else do
          let count := if visibleTo visibleGroups record then count + 1 else count
          scanWindow cap cutoff visibleGroups n (scanned + 1) count
      | .error _ => scanWindow cap cutoff visibleGroups n (scanned + 1) count
    else return (⟨count, true⟩, scanned)

section Calendar
variable {t : Timeline}

/-- The count with the cap as a parameter. It answers nothing where `now - window` panics. -/
def countUnmatchedWithin (cap : Nat) (now : t.Instant) (window : Int)
    (visibleGroups : Option (List String)) : Jnl (Option (UnmatchedWindowCount × Nat)) := do
  let counter ← Bucket.get .unmatchedCounter
  match now.shift (-window) with
  | none => return none
  | some cutoff =>
    some <$> scanWindow cap cutoff.pos visibleGroups
      ((counter.bind (Val.parseBelow u64Size)).getD 0) 0 0

def countUnmatchedSince (cap : Nat) (now : t.Instant) (window : Int)
    (visibleGroups : Option (List String)) : Jnl (Option UnmatchedWindowCount) :=
  (Option.map Prod.fst) <$> countUnmatchedWithin cap now window visibleGroups

end Calendar

/-! The cost of a lookup -/

namespace Log
variable {A : Type} (log : Log A)

theorem steps_readById (id : String) (s : Store) : steps (log.readById id) s = 1 := by
  unfold readById
  rw [steps_bind, Bucket.get, Bucket.command, steps_atomic]
  split
  · split
    · rfl
    · split <;> rfl
  · rfl

/-- A lookup reads an entry of the index, and the record if there is one. -/
theorem steps_getByNumber (n : Nat) (s : Store) : steps (log.getByNumber n) s ≤ 2 := by
  unfold getByNumber
  rw [steps_bind, Bucket.get, Bucket.command, steps_atomic]
  split
  · split
    · exact Nat.le_succ 1
    · split
      · exact Nat.le_succ 1
      · rw [log.steps_readById]
  · exact Nat.le_succ 1

end Log

/-! What is counted -/

def inWindow (cutoff : Nat) (visibleGroups : Option (List String)) (record : UnmatchedRecord) :
    Bool :=
  decide (cutoff ≤ record.createdAt) && visibleTo visibleGroups record

/-- How many visible live records there are in the window. -/
def WindowCount (s : Store) (cutoff : Nat) (visibleGroups : Option (List String)) (total : Nat) :
    Prop :=
  ∃ ids : List String, ids.Nodup ∧ ids.length = total ∧ ∀ id, id ∈ ids ↔
    ∃ record, unmatchedLog.Live s id record ∧ cutoff ≤ record.createdAt ∧
      visibleTo visibleGroups record = true

/-- A log of unmatched requests: each is where its number leads, and none is above the counter. -/
structure UnmatchedLog (s : Store) (count : Nat) (known : String → Prop) : Prop where
  kinded : s.WellKinded
  counts : Log.Counts (s.bytesAt .unmatchedCounter) u64Size count
  addressed : (unmatchedLog.view s count).Addressed UnmatchedRecord.number known

/-- Timestamps do not decrease with the number. -/
def InOrder (s : Store) : Prop :=
  ∀ id id' record record', unmatchedLog.Live s id record → unmatchedLog.Live s id' record' →
    record.number ≤ record'.number → record.createdAt ≤ record'.createdAt

section Counting
variable {s : Store} {count : Nat} {known : String → Prop} (log : UnmatchedLog s count known)
  (cutoff : Nat) (groups : Option (List String))
include log

theorem windowCount_tally : WindowCount s cutoff groups
    (NumberedLog.tally (unmatchedLog.view s count).fetch (inWindow cutoff groups) count) := by
  refine ⟨(unmatchedLog.view s count).idsOf (inWindow cutoff groups) count,
    NumberedLog.nodup_idsOf log.addressed count, NumberedLog.length_idsOf count, ?_⟩
  intro id
  have members : id ∈ (unmatchedLog.view s count).idsOf (inWindow cutoff groups) count ↔ _ :=
    NumberedLog.mem_idsOf_counter log.addressed
  refine members.trans ?_
  simp only [inWindow, Bool.and_eq_true, decide_eq_true_eq]
  rfl

/-- From a record that is too old on, no record is in the window. -/
theorem tally_old (order : InOrder s) {n : Nat} {old : UnmatchedRecord}
    (found : (unmatchedLog.view s count).fetch n = some old) (early : old.createdAt < cutoff) :
    NumberedLog.tally (unmatchedLog.view s count).fetch (inWindow cutoff groups) n = 0 := by
  have live : ∀ {m a}, (unmatchedLog.view s count).fetch m = some a →
      ∃ id, unmatchedLog.Live s id a := by
    intro m a here
    obtain ⟨id, _, record⟩ := Option.bind_eq_some_iff.mp here
    exact ⟨id, record⟩
  apply NumberedLog.tally_zero
  intro m a small here
  obtain ⟨id, one⟩ := live here
  obtain ⟨id', two⟩ := live found
  have numberA := log.addressed.fetch_number here
  have numberOld := log.addressed.fetch_number found
  have before := order id id' a old one two (by omega)
  have outside : ¬ cutoff ≤ a.createdAt := Nat.not_le.mpr (Nat.lt_of_le_of_lt before early)
  simp [inWindow, outside]

/-- What the loop does: it counts what is in the window, all of it unless the cap stops it. -/
theorem run_scanWindow (order : InOrder s) (cap n scanned counted : Nat) :
    ∃ more saturated examined,
      run (scanWindow cap cutoff groups n scanned counted) s =
        (.ok (⟨counted + more, saturated⟩, scanned + examined), s) ∧
      more ≤ NumberedLog.tally (unmatchedLog.view s count).fetch (inWindow cutoff groups) n ∧
      (saturated = false →
        more = NumberedLog.tally (unmatchedLog.view s count).fetch (inWindow cutoff groups) n) ∧
      (scanned ≤ cap → scanned + examined ≤ cap) ∧
      steps (scanWindow cap cutoff groups n scanned counted) s ≤ 2 * examined := by
  induction n generalizing scanned counted with
  | zero => exact ⟨0, false, 0, rfl, Nat.le_refl _, fun _ => rfl, fun room => room, Nat.le_refl _⟩
  | succ n ih =>
    rw [scanWindow]
    by_cases room : scanned < cap
    · rw [if_pos room]
      obtain ⟨answer, ran, reads⟩ := unmatchedLog.run_getByNumber log.kinded count (n + 1)
      have cost := unmatchedLog.steps_getByNumber (n + 1) s
      rw [run_bind, run_attempt, steps_bind, run_attempt, steps_attempt, getUnmatched, ran,
        andThen_ok]
      cases answer with
      | error e =>
        have gap : (unmatchedLog.view s count).fetch (n + 1) = none := by
          cases fetched : (unmatchedLog.view s count).fetch (n + 1) with
          | none => rfl
          | some record => simpa using (reads record).mpr fetched
        obtain ⟨more, saturated, examined, later, below, exact_, bound, rest⟩ :=
          ih (scanned + 1) counted
        have same : NumberedLog.tally (unmatchedLog.view s count).fetch (inWindow cutoff groups)
            (n + 1) = NumberedLog.tally (unmatchedLog.view s count).fetch
              (inWindow cutoff groups) n := by
          simp [NumberedLog.tally, gap]
        rw [same]
        refine ⟨more, saturated, examined + 1, ?_, below, exact_, ?_, ?_⟩
        · simp only [later, Prod.mk.injEq, Except.ok.injEq, and_true, true_and]
          omega
        · omega
        · simp only
          omega
      | ok record =>
        have fetched := (reads record).mp rfl
        by_cases old : record.createdAt < cutoff
        · have none_ := tally_old log cutoff groups order fetched old
          rw [none_]
          simp only [if_pos old]
          exact ⟨0, false, 1, rfl, Nat.le_refl _, fun _ => rfl, fun _ => by omega, by
            simp only [steps_pure]
            omega⟩
        · simp only [if_neg old]
          obtain ⟨more, saturated, examined, later, below, exact_, bound, rest⟩ :=
            ih (scanned + 1) (if visibleTo groups record then counted + 1 else counted)
          have kind : inWindow cutoff groups record = visibleTo groups record := by
            simp [inWindow, Nat.not_lt.mp old]
          have next : NumberedLog.tally (unmatchedLog.view s count).fetch (inWindow cutoff groups)
              (n + 1) = NumberedLog.tally (unmatchedLog.view s count).fetch
                (inWindow cutoff groups) n + if visibleTo groups record then 1 else 0 := by
            rw [NumberedLog.tally, fetched, Option.any_some, kind]
          rw [next]
          refine ⟨more + (if visibleTo groups record then 1 else 0), saturated, examined + 1, ?_,
            ?_, ?_, ?_, ?_⟩
          · rw [later]
            simp only [Prod.mk.injEq, Except.ok.injEq, and_true, UnmatchedWindowCount.mk.injEq]
            split <;> omega
          · omega
          · intro unsaturated
            rw [exact_ unsaturated]
          · omega
          · omega
    · rw [if_neg room]
      refine ⟨0, true, 0, rfl, Nat.zero_le _, ?_, fun small => small, Nat.le_refl _⟩
      intro unsaturated
      cases unsaturated

end Counting

/-! Every run of the journal numbers the unmatched requests -/

structure UnmatchedKept (s : JournalState) : Prop where
  kinded : s.store.WellKinded
  kept : Scope.unmatched.Kept s.store s.minted
  lasting : s.store.armed .unmatchedCounter = none

section Runs
variable {s : JournalState} (held : UnmatchedKept s)
include held

/-- A record of another log leaves the unmatched requests alone. -/
theorem unmatched_elsewhere {A : Type} (log : Log A) {x : Scope} (other : .unmatched ≠ x)
    (records : log.recordKey = x.recordKey) (index : log.indexKey = x.indexKey) {u : Store}
    (kinded : u.WellKinded) (issued : Scope.unmatched.Same s.store u)
    (lasting : ∀ k, u.armed k = s.store.armed k) (id : String) (record : A)
    (recordEnds indexEnds : Option Nat) :
    UnmatchedKept ⟨log.stored u id record recordEnds indexEnds, id :: s.minted⟩ := by
  refine ⟨Log.wellKinded_stored _ _ _ _ _ _ kinded, ?_, ?_⟩
  · exact held.kept.same (issued.trans (Scope.same_stored log other records index u id record
      recordEnds indexEnds)) (fun _ old => List.mem_cons_of_mem id old)
  · have same := log.stored_other u id record recordEnds indexEnds (k := .unmatchedCounter)
      (by rw [records]; cases x <;> simp [Scope.recordKey])
      (by rw [index]; cases x <;> simp [Scope.indexKey])
    show (log.stored u id record recordEnds indexEnds).armed .unmatchedCounter = none
    rw [same.2.2, lasting]
    exact held.lasting

theorem unmatched_grown (id : String) : UnmatchedKept { s with minted := id :: s.minted } :=
  ⟨held.kinded, held.kept.same (.refl _ _) (fun _ old => List.mem_cons_of_mem id old), held.lasting⟩

theorem unmatched_step {a : JournalAction} {u : JournalState}
    (stepped : journaling.step s a = some u) :
    UnmatchedKept u := by
  cases a with
  | recordHandled entry id now =>
    obtain ⟨_, rfl⟩ := recording_some stepped
    rcases run_recordHandled held.kinded entry id now with
      ⟨e, _, _, ran⟩ | ⟨n, record, ends, _, _, _, ran⟩
    · rw [ran]
      exact unmatched_grown held id
    · rw [ran]
      exact unmatched_elsewhere held (handledLog entry.groupId) (x := .handled entry.groupId)
        (by simp) rfl rfl (wellKinded_numberIssued held.kinded _ _ _) (same_handledIssued (by simp))
        (by simp [numberIssued]) id record ends ends
  | recordCallback entry id now =>
    obtain ⟨_, rfl⟩ := recording_some stepped
    rcases run_recordCallback held.kinded entry id now with
      ⟨e, _, _, ran⟩ | ⟨n, record, ends, _, _, ran⟩
    · rw [ran]
      exact unmatched_grown held id
    · rw [ran]
      exact unmatched_elsewhere held (callbackLog entry.groupId) (x := .callbacks entry.groupId)
        (by simp) rfl rfl (wellKinded_numberIssued held.kinded _ _ _)
          (same_callbackIssued (by simp))
        (by simp [numberIssued]) id record ends none
  | recordUnmatched entry id now =>
    obtain ⟨new, rfl⟩ := recording_some stepped
    rcases run_recordUnmatched held.kinded entry id now with
      ⟨e, ran⟩ | ⟨n, record, ends, sum, number, ran⟩
    · rw [ran]
      exact unmatched_grown held id
    · rw [ran]
      refine ⟨Log.wellKinded_stored _ _ _ _ _ _ (Storage.wellKinded_write held.kinded _
        (by simp [MemValue.kind])), unmatched_stored held.kept sum number new ends, ?_⟩
      have same := unmatchedLog.stored_other (s.store.write .unmatchedCounter (.bytes (.int n))) id
        record ends none (k := .unmatchedCounter) (by simp [unmatchedLog]) (by simp [unmatchedLog])
      show (unmatchedLog.stored _ id record ends none).armed .unmatchedCounter = none
      rw [same.2.2, Storage.armed_write]
      exact held.lasting
  | clearGroupJournal gid =>
    cases stepped
    show UnmatchedKept ⟨(run (clearGroupJournal gid) s.store).2, s.minted⟩
    rw [(leads_clearGroupJournal gid).run_eq held.kinded]
    refine ⟨(leads_clearGroupJournal gid held.kinded).2, ?_, ?_⟩
    · refine held.kept.same ⟨?_, ?_, ?_⟩ (fun _ old => old) <;>
        simp [Scope.recordKey, Scope.indexKey, Scope.counter, journalCleared, KeyPrefix.covers]
    · have lasting := held.lasting
      simp [journalCleared, KeyPrefix.covers, lasting]
  | wait seconds =>
    cases stepped
    have early : s.store.due .unmatchedCounter seconds = false := by
      rw [Storage.due, held.lasting]
      rfl
    refine ⟨Storage.wellKinded_advance held.kinded seconds, ?_, ?_⟩
    · have counter : (s.store.advance seconds).bytesAt .unmatchedCounter =
          s.store.bytesAt .unmatchedCounter := by
        rw [Storage.bytesAt_advance, early, if_neg Bool.false_ne_true]
      simp only [Scope.Kept, counter]
      exact Log.Kept.advance held.kept seconds
    · show (s.store.advance seconds).armed .unmatchedCounter = none
      rw [Storage.armed_advance, early, if_neg Bool.false_ne_true]
      exact held.lasting

end Runs

theorem numbered_of_reached {s : JournalState} (reached : Reached journaling (fun _ _ => True) s) :
    ∃ count, UnmatchedLog s.store count (· ∈ s.minted) := by
  have base : ∀ s, journaling.start s → UnmatchedKept s := by
    intro s first
    have kept := kept_unrecorded first s.minted
    exact ⟨kept.kinded, kept.scopes .unmatched, kept.lasting .unmatched⟩
  have held := reached_invariant base (fun _ _ _ held _ stepped => unmatched_step held
      stepped) reached
  obtain ⟨⟨count, counts, addressed⟩, _⟩ := held.kept
  exact ⟨count, held.kinded, counts, addressed⟩

/-- The count is what is in the window, or less of it where the cap stopped the walk, and the walk
    scans no more numbers than the cap, with two reads for each. -/
theorem count_unmatched_since_exact {t : Timeline} {s : Store} {count : Nat}
    {known : String → Prop} (log : UnmatchedLog s count known) (order : InOrder s) (cap : Nat)
    (now : t.Instant) (window : Int) (groups : Option (List String)) :
    match now.shift (-window) with
    | none => run (countUnmatchedSince cap now window groups) s = (.ok none, s)
    | some cutoff => ∃ result scanned total,
      run (countUnmatchedWithin cap now window groups) s = (.ok (some (result, scanned)), s) ∧
        run (countUnmatchedSince cap now window groups) s = (.ok (some result), s) ∧
        WindowCount s cutoff.pos groups total ∧
        (result.saturated = false → result.count = total) ∧
        (result.saturated = true → result.count ≤ total) ∧
        scanned ≤ cap ∧ steps (countUnmatchedSince cap now window groups) s ≤ 1 + 2 * scanned := by
  have start : ((s.bytesAt .unmatchedCounter).bind (Val.parseBelow u64Size)).getD 0 = count :=
    Log.starting_from_counter log.counts 0
  cases cutoff : now.shift (-window) with
  | none =>
    simp only [countUnmatchedSince, countUnmatchedWithin, run_map, run_bind, cutoff]
    rw [run_get log.kinded rfl]
    rfl
  | some cutoff' =>
    obtain ⟨more, saturated, examined, ran, below, exact_, bound, cost⟩ :=
      run_scanWindow log cutoff'.pos groups order cap count 0 0
    rw [Nat.zero_add, Nat.zero_add] at ran
    have within : run (countUnmatchedWithin cap now window groups) s =
        (.ok (some (⟨more, saturated⟩, examined)), s) := by
      simp only [countUnmatchedWithin, run_bind, cutoff]
      rw [run_get log.kinded rfl, andThen_ok, start, run_map, ran]
      rfl
    refine ⟨⟨more, saturated⟩, examined, _, within, ?_, windowCount_tally log cutoff'.pos groups,
      exact_, fun _ => below, ?_, ?_⟩
    · rw [countUnmatchedSince, run_map, within]
      rfl
    · have capped := bound (Nat.zero_le cap)
      omega
    · rw [countUnmatchedSince, steps_map, countUnmatchedWithin, steps_bind, run_get log.kinded rfl]
      simp only [cutoff, start, steps_map]
      rw [Bucket.get, Bucket.command, steps_atomic]
      omega

theorem inOrder_of_fetch {s : Store} {count : Nat} {known : String → Prop}
    (log : UnmatchedLog s count known)
    (order : ∀ m n a b, 0 < m → m ≤ n → n ≤ count → (unmatchedLog.view s count).fetch m = some a →
      (unmatchedLog.view s count).fetch n = some b → a.createdAt ≤ b.createdAt) : InOrder s := by
  intro id id' record record' live live' before
  exact order _ _ _ _ (log.addressed.counted id record live).1 before
    (log.addressed.counted id' record' live').2 (log.addressed.fetch live)
      (log.addressed.fetch live')

namespace Sample

def stray : NewUnmatchedEntry :=
  ⟨none, idA, "shop", ⟨"GET", "/v1/carts", [], [], false, 0⟩, []⟩

def strays : Option JournalState :=
  exec journaling ⟨Storage.empty .valkey, []⟩
    [.recordUnmatched stray idC 10, .recordUnmatched stray idD 20]

def minutes : Timeline := ⟨1000, 1, 1000, Nat.one_pos⟩

theorem strays_ran : strays.isSome = true := by decide +kernel

def strayLog : JournalState := strays.get strays_ran

theorem strayLog_numbered :
    UnmatchedLog strayLog.store 2 (· ∈ strayLog.minted) ∧ InOrder strayLog.store := by
  have reached := reached_of_exec (m := journaling) (s := ⟨Storage.empty .valkey, []⟩)
    (t := strayLog) _ unrecorded_empty (Option.some_get strays_ran).symm
  obtain ⟨count, log⟩ := numbered_of_reached reached
  have two : strayLog.store.bytesAt .unmatchedCounter = some (.int (2 : Nat)) := by
    decide +kernel
  have same := Log.counts_unique (.inr ⟨two, by decide⟩) log.counts
  subst same
  refine ⟨log, inOrder_of_fetch log ?_⟩
  have first : ((unmatchedLog.view strayLog.store 2).fetch 1).map
      UnmatchedRecord.createdAt = some 10 := by
    decide +kernel
  have second : ((unmatchedLog.view strayLog.store 2).fetch 2).map
      UnmatchedRecord.createdAt = some 20 := by
    decide +kernel
  intro m n a b positive before bound foundA foundB
  by_cases same : m = n
  · subst same
    rw [foundA, Option.some.injEq] at foundB
    exact foundB ▸ Nat.le_refl _
  · obtain ⟨rfl, rfl⟩ : m = 1 ∧ n = 2 := by omega
    rw [foundA, Option.map_some, Option.some.injEq] at first
    rw [foundB, Option.map_some, Option.some.injEq] at second
    rw [first, second]
    decide

end Sample

theorem count_unmatched_since_exact_strays : ∃ s : Store, ∃ result scanned,
    run (countUnmatchedWithin unmatchedWindowScanCap (⟨25, by decide⟩ : Sample.minutes.Instant) 10
      none) s = (.ok (some (result, scanned)), s) ∧
      result = ⟨1, false⟩ ∧ WindowCount s 15 none 1 := by
  obtain ⟨log, order⟩ := Sample.strayLog_numbered
  obtain ⟨result, scanned, total, within, _, window, exact_, _⟩ :=
    count_unmatched_since_exact log order unmatchedWindowScanCap
      (⟨25, by decide⟩ : Sample.minutes.Instant) 10 none
  have answer : (run (countUnmatchedWithin unmatchedWindowScanCap
      (⟨25, by decide⟩ : Sample.minutes.Instant) 10 none) Sample.strayLog.store).1 =
        .ok (some (⟨1, false⟩, 2)) := by
    decide +kernel
  rw [within] at answer
  obtain ⟨rfl, rfl⟩ := Prod.mk.inj (Option.some.inj (Except.ok.inj answer))
  have total : 1 = _ := exact_ rfl
  exact ⟨_, _, _, within, rfl, total ▸ window⟩

end WireMirage
