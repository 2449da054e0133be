import WireMirage.Library.StepMachine
import WireMirage.Journal.Logs
import WireMirage.Registry.Changes

/-!
Journal addressing: what lookups by number and listings owe the records that are
stored, over any sequence of recordings, clearings and expiries. Clearing a group's
journal resets the counter of its callbacks and leaves the callbacks; and a number
is cut to 32 bits while the counter is not.
-/
namespace WireMirage
open Prog StepMachine

namespace Log
variable {A : Type}

/-- A record and its index entry, with the deadlines they are written with. -/
def stored (log : Log A) (s : Store) (id : String) (record : A)
    (recordEnds indexEnds : Option Nat) :
    Store :=
  (s.put (log.recordKey id) (log.encode record) recordEnds).put (log.indexKey (log.number record))
    (.text id) indexEnds

section Storing
variable (log : Log A) (s : Store) (id : String) (record : A) (recordEnds indexEnds : Option Nat)

theorem stored_records (x : String) :
    (log.stored s id record recordEnds indexEnds).bytesAt (log.recordKey x) =
        (if x = id then some (log.encode record) else s.bytesAt (log.recordKey x)) ∧
      (log.stored s id record recordEnds indexEnds).armed (log.recordKey x) =
        if x = id then recordEnds else s.armed (log.recordKey x) := by
  have apart := log.apart x (log.number record)
  have same : log.recordKey x = log.recordKey id ↔ x = id :=
    ⟨log.recordKey_inj x id, fun same => same ▸ rfl⟩
  simp [stored, apart, same]

theorem stored_index (n : Nat) :
    (log.stored s id record recordEnds indexEnds).bytesAt (log.indexKey n) =
        (if n = log.number record then some (.text id) else s.bytesAt (log.indexKey n)) ∧
      (log.stored s id record recordEnds indexEnds).armed (log.indexKey n) =
        if n = log.number record then indexEnds else s.armed (log.indexKey n) := by
  have apart := (log.apart id n).symm
  have same : log.indexKey n = log.indexKey (log.number record) ↔ n = log.number record :=
    ⟨log.indexKey_inj n _, fun same => same ▸ rfl⟩
  simp [stored, apart, same]

theorem stored_other {k : Key} (record_ : ∀ x, k ≠ log.recordKey x)
    (index : ∀ n, k ≠ log.indexKey n) :
    (log.stored s id record recordEnds indexEnds).bytesAt k = s.bytesAt k ∧
      (log.stored s id record recordEnds indexEnds).hashAt k = s.hashAt k ∧
      (log.stored s id record recordEnds indexEnds).armed k = s.armed k := by
  simp [stored, record_ id, index (log.number record)]

theorem wellKinded_stored (wk : s.WellKinded) :
    (log.stored s id record recordEnds indexEnds).WellKinded :=
  Storage.wellKinded_put (Storage.wellKinded_put wk (by simpa using log.recordBytes id) _ _)
    (by simpa using log.indexBytes _) _ _

end Storing
end Log

/-! The journal of a host -/

structure JournalState where
  store : Store
  minted : List String

inductive JournalAction where
  | recordHandled (entry : NewJournalEntry) (id : String) (now : Time)
  | recordCallback (entry : NewCallbackEntry) (id : String) (now : Time)
  | recordUnmatched (entry : NewUnmatchedEntry) (id : String) (now : Time)
  | clearGroupJournal (groupId : String)
  | wait (seconds : Nat)

/-- A recording draws an id that was not drawn before. -/
def recording {A : Type} (s : JournalState) (id : String) (p : Jnl A) : Option JournalState :=
  if id ∈ s.minted then none else some ⟨(run p s.store).2, id :: s.minted⟩

/-- Nothing is recorded: no record, no index entry and no number issued. -/
structure Unrecorded (s : Store) : Prop where
  kinded : s.WellKinded
  journal : ∀ gid id, s.lookup (.journal gid id) = none
  callback : ∀ gid id, s.lookup (.callback gid id) = none
  unmatched : ∀ id, s.lookup (.unmatched id) = none
  journalIndex : ∀ gid n, s.lookup (.journalByNumber gid n) = none
  callbackIndex : ∀ gid n, s.lookup (.callbackByNumber gid n) = none
  unmatchedIndex : ∀ n, s.lookup (.unmatchedByNumber n) = none
  unmatchedCounter : s.lookup .unmatchedCounter = none ∧ s.armed .unmatchedCounter = none
  counters : ∀ gid, s.armed (.groupCounters gid) = none ∧
    (s.hashAt (.groupCounters gid)).lookup "next_journal_number" = none ∧
    (s.hashAt (.groupCounters gid)).lookup "next_callback_number" = none

def journaling : Machine JournalState JournalAction where
  start s := Unrecorded s.store
  step s
    | .recordHandled entry id now => recording s id (recordHandled entry id now)
    | .recordCallback entry id now => recording s id (recordCallback entry id now)
    | .recordUnmatched entry id now => recording s id (recordUnmatched entry id now)
    | .clearGroupJournal groupId => some
      { s with store := (run (clearGroupJournal groupId) s.store).2 }
    | .wait seconds => some { s with store := s.store.advance seconds }

/-- What the journal owes its readers, in every group and over all unmatched requests. -/
structure JournalAnswers (s : Store) : Prop where
  handled : ∀ gid, (handledLog gid).Answers s (listForGroup gid) (fun _ => true)
  callbacks : ∀ gid, (callbackLog gid).Answers s (listCallbacksForGroup gid) (fun _ => true)
  unmatched : ∀ groups, unmatchedLog.Answers s (fun cursor => listUnmatched cursor groups)
    (visibleTo groups)

/-- The last number a counter issued. -/
def issued (v : Option Val) : Int :=
  match v with
  | some (.int n) => n
  | _ => 0

def journalCounter (s : Store) (gid : String) : Option Val :=
  (s.hashAt (.groupCounters gid)).lookup "next_journal_number"

def callbackCounter (s : Store) (gid : String) : Option Val :=
  (s.hashAt (.groupCounters gid)).lookup "next_callback_number"

/-- Numbers stay within 32 bits, and a journal is cleared only while the group has
    no callback recorded. -/
def WithinNumbers (s : JournalState) : JournalAction → Prop
  | .recordHandled entry _ _ => issued (journalCounter s.store entry.groupId) + 1 < u32Size
  | .recordCallback entry _ _ => issued (callbackCounter s.store entry.groupId) + 1 < u32Size
  | .clearGroupJournal groupId => ∀ id record, ¬ (callbackLog groupId).Live s.store id record
  | _ => True

/-! The scopes that numbers are issued in -/

inductive Scope where
  | handled (groupId : String)
  | callbacks (groupId : String)
  | unmatched
  deriving DecidableEq

namespace Scope

def recordKey : Scope → String → Key
  | .handled gid => .journal gid
  | .callbacks gid => .callback gid
  | .unmatched => .unmatched

def indexKey : Scope → Nat → Key
  | .handled gid => .journalByNumber gid
  | .callbacks gid => .callbackByNumber gid
  | .unmatched => .unmatchedByNumber

def counterKey : Scope → Key
  | .handled gid => .groupCounters gid
  | .callbacks gid => .groupCounters gid
  | .unmatched => .unmatchedCounter

def counter (s : Store) : Scope → Option Val
  | .handled gid => journalCounter s gid
  | .callbacks gid => callbackCounter s gid
  | .unmatched => s.bytesAt .unmatchedCounter

def Kept (s : Store) (minted : List String) : Scope → Prop
  | .handled gid => (handledLog gid).Kept s minted (journalCounter s gid) u32Size
  | .callbacks gid => (callbackLog gid).Kept s minted (callbackCounter s gid) u32Size
  | .unmatched => unmatchedLog.Kept s minted (s.bytesAt .unmatchedCounter) u64Size

/-- A scope holds in one store what it holds in another. -/
structure Same (s t : Store) (x : Scope) : Prop where
  records : ∀ id, t.bytesAt (x.recordKey id) = s.bytesAt (x.recordKey id) ∧
    t.armed (x.recordKey id) = s.armed (x.recordKey id)
  index : ∀ n, t.bytesAt (x.indexKey n) = s.bytesAt (x.indexKey n) ∧
    t.armed (x.indexKey n) = s.armed (x.indexKey n)
  counter : x.counter t = x.counter s

theorem Kept.same {s t : Store} {minted grown : List String} {x : Scope} (kept : x.Kept s minted)
    (same : x.Same s t) (more : ∀ id ∈ minted, id ∈ grown) : x.Kept t grown := by
  obtain ⟨records, index, counter⟩ := same
  cases x with
  | handled gid =>
    have counter : journalCounter t gid = journalCounter s gid := counter
    simp only [Scope.Kept, counter] at kept ⊢
    exact kept.congr more records index
  | callbacks gid =>
    have counter : callbackCounter t gid = callbackCounter s gid := counter
    simp only [Scope.Kept, counter] at kept ⊢
    exact kept.congr more records index
  | unmatched =>
    have counter : t.bytesAt .unmatchedCounter = s.bytesAt .unmatchedCounter := counter
    simp only [Scope.Kept, counter] at kept ⊢
    exact kept.congr more records index

theorem Same.refl (s : Store) (x : Scope) : x.Same s s :=
  ⟨fun _ => ⟨rfl, rfl⟩, fun _ => ⟨rfl, rfl⟩, rfl⟩

theorem Same.trans {s t u : Store} {x : Scope} (one : x.Same s t) (two : x.Same t u) : x.Same s u :=
  ⟨fun id => ⟨(two.records id).1.trans (one.records id).1,
      (two.records id).2.trans (one.records id).2⟩,
    fun n => ⟨(two.index n).1.trans (one.index n).1, (two.index n).2.trans (one.index n).2⟩,
    two.counter.trans one.counter⟩

/-- Different scopes keep their records apart. -/
theorem keys_apart {x y : Scope} (other : y ≠ x) (a b : String) (n m : Nat) :
    y.recordKey a ≠ x.recordKey b ∧ y.recordKey a ≠ x.indexKey m ∧
      y.indexKey n ≠ x.recordKey b ∧ y.indexKey n ≠ x.indexKey m := by
  cases x <;> cases y <;> simp_all [recordKey, indexKey]

/-- What is written to the log of one scope stays out of every other. -/
theorem same_stored {A : Type} (log : Log A) {x y : Scope} (other : y ≠ x)
    (records : log.recordKey = x.recordKey) (index : log.indexKey = x.indexKey) (s : Store)
    (id : String) (record : A) (recordEnds indexEnds : Option Nat) :
    y.Same s (log.stored s id record recordEnds indexEnds) := by
  have apart := fun a b n m => keys_apart other a b n m
  have stays := fun k => log.stored_other s id record recordEnds indexEnds (k := k)
  rw [records, index] at stays
  refine ⟨?_, ?_, ?_⟩
  · intro a
    have same := stays (y.recordKey a) (fun b => (apart a b 0 0).1) (fun m => (apart a "" 0 m).2.1)
    exact ⟨same.1, same.2.2⟩
  · intro n
    have same := stays (y.indexKey n) (fun b => (apart "" b n 0).2.2.1)
      (fun m => (apart "" "" n m).2.2.2)
    exact ⟨same.1, same.2.2⟩
  · have same := stays y.counterKey (fun b =>
      by cases x <;> cases y <;> simp [counterKey, recordKey])
      (fun m => by cases x <;> cases y <;> simp [counterKey, indexKey])
    cases y with
    | handled gid => exact congrArg (AList.lookup "next_journal_number") same.2.1
    | callbacks gid => exact congrArg (AList.lookup "next_callback_number") same.2.1
    | unmatched => exact same.1

end Scope

structure JournalKept (s : Store) (minted : List String) : Prop where
  kinded : s.WellKinded
  scopes : ∀ x : Scope, x.Kept s minted
  lasting : ∀ x : Scope, s.armed x.counterKey = none

theorem kept_unrecorded {s : Store} (none : Unrecorded s) (minted : List String) :
    JournalKept s minted := by
  have vacant : ∀ {A : Type} (log : Log A) (v : Option Val) (bound : Nat), v = Option.none →
      (∀ id, s.lookup (log.recordKey id) = Option.none) →
      (∀ n, s.lookup (log.indexKey n) = Option.none) → log.Kept s minted v bound := by
    intro A log v bound counter records index
    have bare : ∀ id record, ¬ log.Live s id record := by
      intro id record live
      simp [Log.Live, Storage.bytesAt, records, Storage.asBytes] at live
    refine ⟨⟨0, .inl ⟨counter, rfl⟩, ?_⟩, fun id record live => absurd live (bare id record)⟩
    constructor
    · exact fun id record live => absurd live (bare id record)
    · exact fun n id record _ live => absurd live (bare id record)
    · exact fun id record live => absurd live (bare id record)
    · intro n id at_
      simp [Log.view, Storage.bytesAt, index, Storage.asBytes] at at_
  refine ⟨none.kinded, ?_, ?_⟩
  · rintro (gid | gid | _)
    · exact vacant _ _ _ (none.counters gid).2.1 (none.journal gid) (none.journalIndex gid)
    · exact vacant _ _ _ (none.counters gid).2.2 (none.callback gid) (none.callbackIndex gid)
    · refine vacant _ _ _ ?_ none.unmatched none.unmatchedIndex
      simp [Storage.bytesAt, none.unmatchedCounter.1, Storage.asBytes]
  · rintro (gid | gid | _)
    · exact (none.counters gid).1
    · exact (none.counters gid).1
    · exact none.unmatchedCounter.2

section Steps
variable {s : Store} {minted : List String} (kept : JournalKept s minted)
include kept

theorem kept_grown (id : String) : JournalKept s (id :: minted) where
  kinded := kept.kinded
  scopes := fun x => (kept.scopes x).same (.refl s x) (fun _ old => List.mem_cons_of_mem id old)
  lasting := kept.lasting

theorem kept_advance (seconds : Nat) : JournalKept (s.advance seconds) minted := by
  have early : ∀ x : Scope, s.due x.counterKey seconds = false := by
    intro x
    rw [Storage.due, kept.lasting x]
    rfl
  have counts : ∀ x : Scope, x.counter (s.advance seconds) = x.counter s := by
    intro x
    have first := early x
    cases x <;>
      simp_all [Scope.counter, Scope.counterKey, journalCounter, callbackCounter]
  refine ⟨Storage.wellKinded_advance kept.kinded seconds, ?_, ?_⟩
  · intro x
    have held := kept.scopes x
    have counter := counts x
    cases x with
    | handled gid =>
      have counter : journalCounter (s.advance seconds) gid = journalCounter s gid := counter
      simp only [Scope.Kept, counter] at held ⊢
      exact held.advance seconds
    | callbacks gid =>
      have counter : callbackCounter (s.advance seconds) gid = callbackCounter s gid := counter
      simp only [Scope.Kept, counter] at held ⊢
      exact held.advance seconds
    | unmatched =>
      have counter : (s.advance seconds).bytesAt .unmatchedCounter = s.bytesAt .unmatchedCounter :=
        counter
      simp only [Scope.Kept, counter] at held ⊢
      exact held.advance seconds
  · intro x
    rw [Storage.armed_advance, kept.lasting x]
    split <;> rfl

/-- Clearing the journal of a group takes its handled requests and both of its counters. -/
theorem kept_journalCleared {gid : String}
    (none : ∀ id record, ¬ (callbackLog gid).Live s id record) :
    JournalKept (journalCleared s gid) minted := by
  refine ⟨(leads_clearGroupJournal gid kept.kinded).2, ?_, ?_⟩
  · intro x
    by_cases mine : x = .handled gid ∨ x = .callbacks gid
    · rcases mine with rfl | rfl
      · have held := kept.scopes (.handled gid)
        have counter : journalCounter (journalCleared s gid) gid = Option.none := by
          simp [journalCounter, journalCleared]
        simp only [Scope.Kept, counter] at held ⊢
        apply held.restart
        · intro id record live
          simp [Log.Live, handledLog, journalCleared, KeyPrefix.covers] at live
        · intro n
          left
          simp [handledLog, journalCleared, KeyPrefix.covers]
      · have held := kept.scopes (.callbacks gid)
        have counter : callbackCounter (journalCleared s gid) gid = Option.none := by
          simp [callbackCounter, journalCleared]
        simp only [Scope.Kept, counter] at held ⊢
        apply held.restart
        · intro id record live
          refine none id record ?_
          simpa [Log.Live, callbackLog, journalCleared, KeyPrefix.covers] using live
        · intro n
          right
          simp [callbackLog, journalCleared, KeyPrefix.covers]
    · rw [not_or] at mine
      refine (kept.scopes x).same ⟨?_, ?_, ?_⟩ (fun _ old => old) <;> cases x <;>
        simp_all [Scope.recordKey, Scope.indexKey, Scope.counter, journalCounter,
          callbackCounter, journalCleared, KeyPrefix.covers, eq_comm]
  · intro x
    have first := kept.lasting x
    cases x <;> simp_all [Scope.counterKey, journalCleared, KeyPrefix.covers]

end Steps

/-! Recording -/

section Recording
variable {s : Store} (wk : s.WellKinded)
include wk

/-- The store after a number of a group was issued under the given field. -/
def numberIssued (s : Store) (gid field : String) (n : Int) : Store :=
  s.putHash (.groupCounters gid) ((s.hashAt (.groupCounters gid)).insert field (.int n))

theorem wellKinded_numberIssued (gid field : String) (n : Int) :
    (numberIssued s gid field n).WellKinded :=
  Storage.wellKinded_putHash wk (by simp) _

theorem run_issueNumber (gid field : String) :
    (∃ e e', s.addInt (.groupCounters gid) (some field)
        ((s.hashAt (.groupCounters gid)).lookup field) 1 = .error e' ∧
        run (Bucket.hashIncr (.groupCounters gid) field 1 : Jnl Int) s = (.error e, s)) ∨
      ∃ n, run (Bucket.hashIncr (.groupCounters gid) field 1 : Jnl Int) s =
          (.ok n, numberIssued s gid field n) ∧
        s.addInt (.groupCounters gid) (some field)
          ((s.hashAt (.groupCounters gid)).lookup field) 1 = .ok n := by
  unfold Bucket.hashIncr
  rw [run_command, Storage.hashIncr_eq wk (by simp)]
  unfold Storage.storeSum
  cases sum : s.addInt (.groupCounters gid) (some field)
      ((s.hashAt (.groupCounters gid)).lookup field) 1 with
  | error e => exact .inl ⟨_, e, rfl, rfl⟩
  | ok n => exact .inr ⟨n, rfl, rfl⟩

theorem run_recordHandled (entry : NewJournalEntry) (id : String) (now : Time) :
    (∃ e e', s.addInt (.groupCounters entry.groupId) (some "next_journal_number")
        (journalCounter s entry.groupId) 1 = .error e' ∧
        run (recordHandled entry id now) s = (.error e, s)) ∨
      ∃ n record ends, s.addInt (.groupCounters entry.groupId) (some "next_journal_number")
          (journalCounter s entry.groupId) 1 = .ok n ∧
        record.number = asU32 n ∧ record.toNewJournalEntry = entry ∧
        run (recordHandled entry id now) s = (.ok record, (handledLog entry.groupId).stored
          (numberIssued s entry.groupId "next_journal_number" n) id record ends ends) := by
  unfold recordHandled
  rw [run_bind]
  rcases run_issueNumber wk entry.groupId "next_journal_number" with
    ⟨e, e', sum, ran⟩ | ⟨n, ran, sum⟩
  · exact .inl ⟨e, e', sum, by rw [ran, andThen_error]⟩
  · right
    rw [ran, andThen_ok]
    simp only [run_bind, run_setWithTtl, andThen_ok, run_pure]
    exact ⟨n, _, s.ttlDeadline handledTtlSeconds, sum, rfl, rfl, rfl⟩

theorem run_recordCallback (entry : NewCallbackEntry) (id : String) (now : Time) :
    (∃ e e', s.addInt (.groupCounters entry.groupId) (some "next_callback_number")
        (callbackCounter s entry.groupId) 1 = .error e' ∧
        run (recordCallback entry id now) s = (.error e, s)) ∨
      ∃ n record ends, s.addInt (.groupCounters entry.groupId) (some "next_callback_number")
          (callbackCounter s entry.groupId) 1 = .ok n ∧
        record.number = asU32 n ∧
        run (recordCallback entry id now) s = (.ok record, (callbackLog entry.groupId).stored
          (numberIssued s entry.groupId "next_callback_number" n) id record ends none) := by
  unfold recordCallback
  rw [run_bind]
  rcases run_issueNumber wk entry.groupId "next_callback_number" with
    ⟨e, e', sum, ran⟩ | ⟨n, ran, sum⟩
  · exact .inl ⟨e, e', sum, by rw [ran, andThen_error]⟩
  · right
    rw [ran, andThen_ok]
    simp only [run_bind, run_setWithTtl, run_set, andThen_ok, run_pure]
    exact ⟨n, _, s.ttlDeadline callbackTtlSeconds, sum, rfl, rfl⟩

theorem run_recordUnmatched (entry : NewUnmatchedEntry) (id : String) (now : Time) :
    (∃ e, run (recordUnmatched entry id now) s = (.error e, s)) ∨
      ∃ n, ∃ record : UnmatchedRecord, ∃ ends,
        s.addInt .unmatchedCounter none (s.bytesAt .unmatchedCounter) 1 = .ok n ∧
        record.number = asU64 n ∧
        run (recordUnmatched entry id now) s = (.ok record, unmatchedLog.stored
          (s.write .unmatchedCounter (.bytes (.int n))) id record ends none) := by
  unfold recordUnmatched
  rw [run_bind]
  unfold Bucket.incr
  rw [run_command, Storage.incr_eq wk (by simp)]
  unfold Storage.storeSum
  cases sum : s.addInt .unmatchedCounter none (s.bytesAt .unmatchedCounter) 1 with
  | error e => exact .inl ⟨_, rfl⟩
  | ok n =>
    right
    show ∃ n', ∃ record : UnmatchedRecord, ∃ ends, Except.ok n = .ok n' ∧ record.number = asU64 n' ∧
      andThen (.ok n, s.write .unmatchedCounter (.bytes (Decimal.ofInt n))) _ = _
    simp only [andThen_ok, run_bind, run_setWithTtl, run_set, run_pure]
    exact ⟨n, _, s.ttlDeadline unmatchedTtlSeconds, rfl, rfl, rfl⟩

end Recording

section RecordingSteps
variable {s : Store} {minted : List String}

theorem cut_u32 {n : Int} (m : Nat) (same : n = m) (small : m < u32Size) : asU32 n = m := by
  subst same
  unfold asU32 u32Size at *
  omega

theorem cut_u64 {n : Int} (m : Nat) (same : n = m) (small : m < u64Size) : asU64 n = m := by
  subst same
  unfold asU64 u64Size at *
  omega

theorem issued_counts {v : Option Val} {bound count : Nat} (counts : Log.Counts v bound count) :
    issued v = count := by
  rcases counts with ⟨rfl, rfl⟩ | ⟨rfl, _⟩ <;> rfl

/-- A log whose counter goes up takes a record under the number issued. -/
theorem kept_stored {A : Type} {log : Log A} {v : Option Val} {bound : Nat}
    (kept : log.Kept s minted v bound) {t : Store}
    (records : ∀ id, t.bytesAt (log.recordKey id) = s.bytesAt (log.recordKey id) ∧
      t.armed (log.recordKey id) = s.armed (log.recordKey id))
    (index : ∀ n, t.bytesAt (log.indexKey n) = s.bytesAt (log.indexKey n) ∧
      t.armed (log.indexKey n) = s.armed (log.indexKey n))
    {k : Key} {f : Option String} {n : Int} (sum : s.addInt k f v 1 = .ok n) {record : A}
    (cut : ∀ m : Nat, n = m → m < bound → log.number record = m) {id : String}
    (new : id ∉ minted) (room : issued v + 1 < bound) {recordEnds indexEnds : Option Nat}
    (outlasts : indexEnds = none ∨ ∃ d d', recordEnds = some d ∧ indexEnds = some d' ∧ d ≤ d') :
    log.Kept (log.stored t id record recordEnds indexEnds) (id :: minted)
      (some (.int n)) bound := by
  obtain ⟨⟨count, counts, addressed⟩, outlived⟩ := kept
  obtain ⟨rfl, _⟩ := Log.counts_next counts sum
  rw [issued_counts counts] at room
  have below : count + 1 < bound := by omega
  refine Log.Kept.recorded ⟨⟨count, counts, addressed⟩, outlived⟩ counts new
    (cut (count + 1) rfl below) below outlasts ?_ ?_
  · intro x
    rw [← (records x).1, ← (records x).2]
    exact log.stored_records t id record recordEnds indexEnds x
  · intro m
    rw [← (index m).1, ← (index m).2]
    exact log.stored_index t id record recordEnds indexEnds m

/-- Issuing a number changes the counter of one scope only. -/
theorem same_handledIssued {gid : String} {n : Int} {y : Scope} (other : y ≠ .handled gid) :
    y.Same s (numberIssued s gid "next_journal_number" n) := by
  refine ⟨?_, ?_, ?_⟩ <;> cases y <;>
    simp [Scope.recordKey, Scope.indexKey, Scope.counter, journalCounter, callbackCounter,
      numberIssued] at other ⊢
  · simp [other]
  · split <;> simp_all

theorem same_callbackIssued {gid : String} {n : Int} {y : Scope} (other : y ≠ .callbacks gid) :
    y.Same s (numberIssued s gid "next_callback_number" n) := by
  refine ⟨?_, ?_, ?_⟩ <;> cases y <;>
    simp [Scope.recordKey, Scope.indexKey, Scope.counter, journalCounter, callbackCounter,
      numberIssued] at other ⊢
  · split <;> simp_all
  · simp [other]

@[simp] theorem journalCounter_stored (gid : String) (n : Int) (id : String)
    (record : JournalRecord) (recordEnds indexEnds : Option Nat) :
    journalCounter ((handledLog gid).stored (numberIssued s gid "next_journal_number" n) id record
      recordEnds indexEnds) gid = some (.int n) := by
  simp [journalCounter, Log.stored, handledLog, numberIssued]

@[simp] theorem callbackCounter_stored (gid : String) (n : Int) (id : String)
    (record : CallbackRecord) (recordEnds indexEnds : Option Nat) :
    callbackCounter ((callbackLog gid).stored
      (numberIssued s gid "next_callback_number" n) id record
      recordEnds indexEnds) gid = some (.int n) := by
  simp [callbackCounter, Log.stored, callbackLog, numberIssued]

variable (kept : JournalKept s minted)
include kept

/-- The scope a record goes to is kept; so are the others, which it does not touch. -/
theorem kept_recorded {A : Type} {log : Log A} {x : Scope} (records : log.recordKey = x.recordKey)
    (index : log.indexKey = x.indexKey) {t : Store} (kinded : t.WellKinded)
    (issued : ∀ y, y ≠ x → y.Same s t) (lasting : ∀ k, t.armed k = s.armed k) {id : String}
    {record : A} {recordEnds indexEnds : Option Nat}
    (here : x.Kept (log.stored t id record recordEnds indexEnds) (id :: minted)) :
    JournalKept (log.stored t id record recordEnds indexEnds) (id :: minted) where
  kinded := Log.wellKinded_stored _ _ _ _ _ _ kinded
  scopes := by
    intro y
    by_cases mine : y = x
    · exact mine ▸ here
    · exact (kept.scopes y).same ((issued y mine).trans (Scope.same_stored log mine records index t
        id record recordEnds indexEnds)) (fun _ old => List.mem_cons_of_mem id old)
  lasting := by
    intro y
    have same := log.stored_other t id record recordEnds indexEnds (k := y.counterKey)
      (by rw [records]; cases x <;> cases y <;> simp [Scope.counterKey, Scope.recordKey])
      (by rw [index]; cases x <;> cases y <;> simp [Scope.counterKey, Scope.indexKey])
    rw [same.2.2, lasting]
    exact kept.lasting y

theorem kept_recordHandled (entry : NewJournalEntry) {id : String} (now : Time)
    (new : id ∉ minted) (room : issued (journalCounter s entry.groupId) + 1 < u32Size) :
    JournalKept (run (recordHandled entry id now) s).2 (id :: minted) := by
  rcases run_recordHandled kept.kinded entry id now with
    ⟨e, _, _, ran⟩ | ⟨n, record, ends, sum, number, _, ran⟩
  · rw [ran]
    exact kept_grown kept id
  · rw [ran]
    refine kept_recorded kept (x := .handled entry.groupId)
      (t := numberIssued s entry.groupId "next_journal_number" n) rfl rfl
      (wellKinded_numberIssued kept.kinded _ _ _) (fun y => same_handledIssued)
      (by simp [numberIssued]) ?_
    simp only [Scope.Kept, journalCounter_stored]
    refine kept_stored (kept.scopes (.handled entry.groupId)) (by simp [handledLog, numberIssued])
      (by simp [handledLog, numberIssued]) sum
      (fun m same below => number.trans (cut_u32 m same below)) new room ?_
    cases ends with
    | none => exact .inl rfl
    | some d => exact .inr ⟨d, d, rfl, rfl, Nat.le_refl d⟩

theorem kept_recordCallback (entry : NewCallbackEntry) {id : String} (now : Time)
    (new : id ∉ minted) (room : issued (callbackCounter s entry.groupId) + 1 < u32Size) :
    JournalKept (run (recordCallback entry id now) s).2 (id :: minted) := by
  rcases run_recordCallback kept.kinded entry id now with
    ⟨e, _, _, ran⟩ | ⟨n, record, ends, sum, number, ran⟩
  · rw [ran]
    exact kept_grown kept id
  · rw [ran]
    refine kept_recorded kept (x := .callbacks entry.groupId)
      (t := numberIssued s entry.groupId "next_callback_number" n) rfl rfl
      (wellKinded_numberIssued kept.kinded _ _ _) (fun y => same_callbackIssued)
      (by simp [numberIssued]) ?_
    simp only [Scope.Kept, callbackCounter_stored]
    exact kept_stored (kept.scopes (.callbacks entry.groupId)) (by simp [callbackLog, numberIssued])
      (by simp [callbackLog, numberIssued]) sum
      (fun m same below => number.trans (cut_u32 m same below)) new room (.inl rfl)

omit kept in
/-- The count of unmatched requests stays in 63 bits, so it always has room. -/
theorem unmatched_stored (held : Scope.unmatched.Kept s minted) {n : Int}
    (sum : s.addInt .unmatchedCounter none (s.bytesAt .unmatchedCounter) 1 = .ok n)
    {record : UnmatchedRecord} (number : record.number = asU64 n) {id : String} (new : id ∉ minted)
    (ends : Option Nat) : Scope.unmatched.Kept (unmatchedLog.stored
      (s.write .unmatchedCounter (.bytes (.int n))) id record ends none) (id :: minted) := by
  have room : issued (s.bytesAt .unmatchedCounter) + 1 < u64Size := by
    obtain ⟨⟨count, counts, _⟩, _⟩ := held
    rw [issued_counts counts]
    have := (Log.counts_next counts sum).2
    omega
  have counter : (unmatchedLog.stored (s.write .unmatchedCounter (.bytes (.int n))) id record
      ends none).bytesAt .unmatchedCounter = some (.int n) := by
    simp [Log.stored, unmatchedLog, Storage.bytesAt, Storage.put, Storage.lookup_replace,
      Storage.lookup_write, Storage.asBytes]
  simp only [Scope.Kept, counter]
  refine kept_stored held ?_ ?_ sum
    (fun m same below => number.trans (cut_u64 m same below)) new room (.inl rfl)
  · simp [unmatchedLog, Storage.armed_write, Storage.bytesAt, Storage.lookup_write]
  · simp [unmatchedLog, Storage.armed_write, Storage.bytesAt, Storage.lookup_write]

theorem kept_recordUnmatched (entry : NewUnmatchedEntry) {id : String} (now : Time)
    (new : id ∉ minted) : JournalKept (run (recordUnmatched entry id now) s).2 (id :: minted) := by
  rcases run_recordUnmatched kept.kinded entry id now with
    ⟨e, ran⟩ | ⟨n, record, ends, sum, number, ran⟩
  · rw [ran]
    exact kept_grown kept id
  · rw [ran]
    have elsewhere : ∀ y : Scope, y ≠ .unmatched →
        y.Same s (s.write .unmatchedCounter (.bytes (.int n))) := by
      intro y other
      refine ⟨?_, ?_, ?_⟩ <;> cases y <;>
        simp_all [Scope.recordKey, Scope.indexKey, Scope.counter, journalCounter, callbackCounter,
          Storage.armed_write, Storage.bytesAt, Storage.hashAt, Storage.lookup_write]
    exact kept_recorded kept (x := .unmatched) rfl rfl
      (Storage.wellKinded_write kept.kinded _ (by simp [MemValue.kind])) elsewhere
      (fun k => Storage.armed_write s .unmatchedCounter k _)
      (unmatched_stored (kept.scopes .unmatched) sum number new ends)

end RecordingSteps

/-! Every state that is reached within the numbers answers -/

section Answering
variable {s : Store} (wk : s.WellKinded)
include wk

theorem run_listForGroup (gid : String) (cursor : ListCursor) :
    run (listForGroup gid cursor) s = run ((handledLog gid).collectDown (fun _ => true)
      (Log.clampLimit cursor.limit) (Log.startingFrom
        (journalCounter s gid) u32Size cursor)) s := by
  unfold listForGroup
  rw [run_bind, run_hashGet wk rfl, andThen_ok]
  rfl

theorem run_listCallbacksForGroup (gid : String) (cursor : ListCursor) :
    run (listCallbacksForGroup gid cursor) s = run ((callbackLog gid).collectDown (fun _ => true)
      (Log.clampLimit cursor.limit) (Log.startingFrom
        (callbackCounter s gid) u32Size cursor)) s := by
  unfold listCallbacksForGroup
  rw [run_bind, run_hashGet wk rfl, andThen_ok]
  rfl

theorem run_listUnmatched (groups : Option (List String)) (cursor : ListCursor) :
    run (listUnmatched cursor groups) s = run (unmatchedLog.collectDown (visibleTo groups)
      (Log.clampLimit cursor.limit)
      (Log.startingFrom (s.bytesAt .unmatchedCounter) u64Size cursor)) s := by
  unfold listUnmatched
  rw [run_bind, run_get wk rfl, andThen_ok]

end Answering

theorem answers_of_journalKept {s : Store} {minted : List String} (kept : JournalKept s minted) :
    JournalAnswers s where
  handled := fun gid => Log.answers_of_kept _ kept.kinded (kept.scopes (.handled gid))
    (run_listForGroup kept.kinded gid)
  callbacks := fun gid => Log.answers_of_kept _ kept.kinded (kept.scopes (.callbacks gid))
    (run_listCallbacksForGroup kept.kinded gid)
  unmatched := fun groups => Log.answers_of_kept _ kept.kinded (kept.scopes .unmatched)
    (run_listUnmatched kept.kinded groups)

theorem recording_some {A : Type} {s t : JournalState} {id : String} {p : Jnl A}
    (recorded : recording s id p = some t) : id ∉ s.minted ∧ t =
      ⟨(run p s.store).2, id :: s.minted⟩ := by
  unfold recording at recorded
  split at recorded
  · cases recorded
  · rename_i new
    exact ⟨new, (Option.some.inj recorded).symm⟩

theorem journaling_step {s t : JournalState} {a : JournalAction}
    (kept : JournalKept s.store s.minted)
    (within : WithinNumbers s a) (stepped : journaling.step s a = some t) :
    JournalKept t.store t.minted := by
  cases a with
  | recordHandled entry id now =>
    obtain ⟨new, rfl⟩ := recording_some stepped
    exact kept_recordHandled kept entry now new within
  | recordCallback entry id now =>
    obtain ⟨new, rfl⟩ := recording_some stepped
    exact kept_recordCallback kept entry now new within
  | recordUnmatched entry id now =>
    obtain ⟨new, rfl⟩ := recording_some stepped
    exact kept_recordUnmatched kept entry now new
  | clearGroupJournal gid =>
    cases stepped
    show JournalKept (run (clearGroupJournal gid) s.store).2 s.minted
    rw [(leads_clearGroupJournal gid).run_eq kept.kinded]
    exact kept_journalCleared kept within
  | wait seconds =>
    cases stepped
    exact kept_advance kept seconds

theorem reached_journalKept {s : JournalState} (reached : Reached journaling WithinNumbers s) :
    JournalKept s.store s.minted := by
  have base : ∀ s, journaling.start s → JournalKept s.store s.minted :=
    fun s first => kept_unrecorded first s.minted
  exact reached_invariant base
    (fun _ _ _ kept within stepped => journaling_step kept within stepped) reached

/-! The first step beyond them loses a record -/

/-- A record is stored while the counter of its log reads as no number. -/
def Log.Lost {A : Type} (log : Log A) (s : Store) (v : Option Val) : Prop :=
  v.bind (Val.parseBelow u32Size) = none ∧ ∃ id record, log.Live s id record

/-- A listing of a lost log starts from nothing. -/
theorem Log.lost_page {A : Type} {log : Log A} {s : Store} (wk : s.WellKinded) {v : Option Val}
    {list : ListCursor → Jnl (List A)} {visible : A → Bool}
    (walks : ∀ cursor, run (list cursor) s = run (log.collectDown visible
      (Log.clampLimit cursor.limit) (Log.startingFrom v u32Size cursor)) s)
    (lost : log.Lost s v) (limit : Nat) : run (list ⟨none, limit⟩) s = (.ok [], s) := by
  have start : Log.startingFrom v u32Size ⟨none, limit⟩ = 0 := by
    simp [Log.startingFrom, lost.1]
  rw [walks, start, log.run_collectDown wk 0]
  cases Log.clampLimit limit <;> rfl

theorem Log.unlisted {A : Type} {log : Log A} {s : Store} (wk : s.WellKinded) {v : Option Val}
    {list : ListCursor → Jnl (List A)}
    (walks : ∀ cursor, run (list cursor) s = run (log.collectDown (fun _ => true)
      (Log.clampLimit cursor.limit) (Log.startingFrom v u32Size cursor)) s)
    (lost : log.Lost s v) : ¬ log.Answers s list (fun _ => true) := by
  intro answers
  obtain ⟨id, record, live⟩ := lost.2
  obtain ⟨fuel, listed⟩ := answers.listed defaultLimit id record live rfl
  have empty : Log.page list s defaultLimit none = [] := by
    unfold Log.page
    rw [Log.lost_page wk walks lost]
  cases fuel with
  | zero => cases listed
  | succ fuel =>
    unfold Log.listing at listed
    rw [empty] at listed
    cases listed

/-- Some group has a log that lists nothing of what it holds. -/
structure JournalLost (s : Store) : Prop where
  kinded : s.WellKinded
  lost : ∃ gid, (handledLog gid).Lost s (journalCounter s gid) ∨
    (callbackLog gid).Lost s (callbackCounter s gid)

theorem unanswered_of_lost {s : Store} (lost : JournalLost s) : ¬ JournalAnswers s := by
  intro answers
  obtain ⟨wk, gid, handled | callbacks⟩ := lost
  · exact Log.unlisted wk (run_listForGroup wk gid) handled (answers.handled gid)
  · exact Log.unlisted wk (run_listCallbacksForGroup wk gid) callbacks (answers.callbacks gid)

/-- A counter within its width can go up once more. -/
theorem sum_of_counts {s : Store} {k : Key} {f : Option String} {v : Option Val} {count : Nat}
    (counts : Log.Counts v u32Size count) : s.addInt k f v 1 = .ok ((count : Int) + 1) := by
  rcases counts with ⟨rfl, rfl⟩ | ⟨rfl, below⟩
  · rfl
  · have reads : s.readInt (Val.int count) = some (count : Int) := by
      unfold Storage.readInt
      cases s.backend <;> rfl
    simp only [Storage.addInt, reads]
    rw [if_pos]
    unfold u32Size at below
    unfold i64Min i64Max
    omega

theorem last_count {v : Option Val} {count : Nat} (counts : Log.Counts v u32Size count)
    (full : ¬ issued v + 1 < u32Size) : (count : Int) + 1 = u32Size := by
  have now := issued_counts counts
  rcases counts with ⟨_, rfl⟩ | ⟨_, below⟩
  · rw [now] at full
    exact absurd (by decide) full
  · rw [now] at full
    omega

theorem live_stored {A : Type} (log : Log A) (s : Store) (id : String) (record : A)
    (recordEnds indexEnds : Option Nat) :
    log.Live (log.stored s id record recordEnds indexEnds) id record := by
  unfold Log.Live
  rw [(log.stored_records s id record recordEnds indexEnds id).1, if_pos rfl]
  exact log.reads record

section Beyond
variable {s : Store} {minted : List String} (kept : JournalKept s minted)
include kept

/-- A counter that outgrows its readers' width leaves every record of the group unlisted. -/
theorem handled_overflow (entry : NewJournalEntry) (id : String) (now : Time)
    (full : ¬ issued (journalCounter s entry.groupId) + 1 < u32Size) :
    JournalLost (run (recordHandled entry id now) s).2 := by
  obtain ⟨⟨count, counts, _⟩, _⟩ := kept.scopes (.handled entry.groupId)
  have next := last_count counts full
  rcases run_recordHandled kept.kinded entry id now with
    ⟨e, e', sum, _⟩ | ⟨n, record, ends, sum, _, _, ran⟩
  · rw [sum_of_counts counts] at sum
    cases sum
  · rw [sum_of_counts counts, next, Except.ok.injEq] at sum
    rw [ran, ← sum]
    refine ⟨?_, entry.groupId, .inl ⟨?_, id, record, live_stored _ _ _ _ _ _⟩⟩
    · exact Log.wellKinded_stored (handledLog entry.groupId) _ id record ends ends
        (wellKinded_numberIssued kept.kinded entry.groupId "next_journal_number" u32Size)
    · rw [journalCounter_stored]
      simp [Val.parseBelow]

theorem callback_overflow (entry : NewCallbackEntry) (id : String) (now : Time)
    (full : ¬ issued (callbackCounter s entry.groupId) + 1 < u32Size) :
    JournalLost (run (recordCallback entry id now) s).2 := by
  obtain ⟨⟨count, counts, _⟩, _⟩ := kept.scopes (.callbacks entry.groupId)
  have next := last_count counts full
  rcases run_recordCallback kept.kinded entry id now with
    ⟨e, e', sum, _⟩ | ⟨n, record, ends, sum, _, ran⟩
  · rw [sum_of_counts counts] at sum
    cases sum
  · rw [sum_of_counts counts, next, Except.ok.injEq] at sum
    rw [ran, ← sum]
    refine ⟨?_, entry.groupId, .inr ⟨?_, id, record, live_stored _ _ _ _ _ _⟩⟩
    · exact Log.wellKinded_stored (callbackLog entry.groupId) _ id record ends none
        (wellKinded_numberIssued kept.kinded entry.groupId "next_callback_number" u32Size)
    · rw [callbackCounter_stored]
      simp [Val.parseBelow]

/-- A callback that outlives the clearing of its group's journal is listed no more. -/
theorem cleared_unlisted {gid id : String} {record : CallbackRecord}
    (live : (callbackLog gid).Live s id record) : JournalLost (journalCleared s gid) := by
  refine ⟨(leads_clearGroupJournal gid kept.kinded).2, gid, .inr ⟨?_, id, record, ?_⟩⟩
  · simp [callbackCounter, journalCleared]
  · simpa [Log.Live, callbackLog, journalCleared, KeyPrefix.covers] using live

end Beyond

/-- The first step beyond the numbers loses a record. -/
theorem lost_beyond {s t : JournalState} (kept : JournalKept s.store s.minted) {a : JournalAction}
    (stepped : journaling.step s a = some t) (beyond : ¬ WithinNumbers s a) :
    JournalLost t.store := by
  cases a with
  | recordHandled entry id now =>
    rw [(recording_some stepped).2]
    exact handled_overflow kept entry id now beyond
  | recordCallback entry id now =>
    rw [(recording_some stepped).2]
    exact callback_overflow kept entry id now beyond
  | recordUnmatched entry id now => exact absurd trivial beyond
  | clearGroupJournal gid =>
    cases stepped
    obtain ⟨id, notAll⟩ := not_forall.mp beyond
    obtain ⟨record, live⟩ := not_forall_not.mp notAll
    show JournalLost (run (clearGroupJournal gid) s.store).2
    rw [(leads_clearGroupJournal gid).run_eq kept.kinded]
    exact cleared_unlisted kept live
  | wait seconds => exact absurd trivial beyond

/-- The journal answers exactly as long as the numbers stay in bounds and no journal
    is cleared over callbacks: within them always, and not after the first step beyond. -/
theorem journal_addressing (s : JournalState) (reached : Reached journaling WithinNumbers s) :
    JournalAnswers s.store ∧ ∀ a t, journaling.step s a = some t →
      ¬ WithinNumbers s a → ¬ JournalAnswers t.store := by
  have kept := reached_journalKept reached
  refine ⟨answers_of_journalKept kept, ?_⟩
  intro a t stepped beyond
  exact unanswered_of_lost (lost_beyond kept stepped beyond)

def Sample.callback (gid url : String) : NewCallbackEntry where
  traceId := none
  groupId := gid
  groupName := "shop"
  routeId := Sample.idB
  routeNumber := 1
  url := url
  method := "POST"
  requestHeaders := []
  requestBody := []
  requestBodyTruncated := false
  requestBodySize := 0
  delayMs := 0
  outcome := .delivered 200
  durationMs := 1

theorem unrecorded_empty : Unrecorded (Storage.empty .valkey) := by
  constructor <;> simp [Storage.empty, Storage.lookup, Storage.entry, Storage.armed,
    Storage.hashAt, Storage.asHash, Storage.WellKinded]

/-- The journal of a group is cleared before its first callback. -/
theorem journal_addressing_shop : ∃ s, Reached journaling WithinNumbers s ∧
    s.minted = [Sample.idC] ∧ JournalAnswers s.store ∧
    ∀ a t, journaling.step s a = some t → ¬ WithinNumbers s a → ¬ JournalAnswers t.store := by
  have start : Reached journaling WithinNumbers ⟨Storage.empty .valkey, []⟩ :=
    reached_start unrecorded_empty
  have none : WithinNumbers ⟨Storage.empty .valkey, []⟩ (.clearGroupJournal Sample.idA) := by
    intro id record live
    simp [Log.Live, callbackLog] at live
  have cleared := reached_step start none rfl
  have few : issued (callbackCounter (run (clearGroupJournal Sample.idA)
      (Storage.empty .valkey)).2 Sample.idA) + 1 < u32Size := by
    decide +kernel
  have recorded := reached_step cleared
    (a := JournalAction.recordCallback (Sample.callback Sample.idA "https://a.test/") Sample.idC 1)
    few rfl
  exact ⟨_, recorded, rfl, journal_addressing _ recorded⟩

/-- A callback, a clearing of the group's journal, and a callback under the number of the first. -/
theorem callback_number_reused :
    ∃ s, Reached journaling (fun _ _ => True) s ∧ ¬ JournalAnswers s.store := by
  refine ⟨_, reached_of_exec (m := journaling) (s := ⟨Storage.empty .valkey, []⟩)
    [.recordCallback (Sample.callback Sample.idA "https://a.test/") Sample.idC 1,
      .clearGroupJournal Sample.idA,
      .recordCallback (Sample.callback Sample.idA "https://b.test/") Sample.idD 2]
        unrecorded_empty rfl, ?_⟩
  intro answers
  have same := (answers.callbacks Sample.idA).unique Sample.idC Sample.idD _ _ rfl rfl rfl
  exact absurd same (by decide)

end WireMirage
