import WireMirage.Library.NumberedLog
import WireMirage.Journal.Operations
import WireMirage.Registry.Effects
import WireMirage.Store.Expiry

/-!
The logs of the journal as numbered logs: what lookups and listings answer, and
which changes of the store keep every record where its number leads.
-/
namespace WireMirage
open Prog

namespace Log
variable {A : Type} (log : Log A)

/-- A record that is stored. -/
def Live (s : Store) (id : String) (record : A) : Prop :=
  (s.bytesAt (log.recordKey id)).bind log.decode = some record

/-- What a store holds of a log, with the count its counter stands at. -/
def view (s : Store) (count : Nat) : NumberedLog String A where
  counter := count
  index := fun n => (s.bytesAt (log.indexKey n)).bind Val.utf8
  record := fun id => (s.bytesAt (log.recordKey id)).bind log.decode

section Reading
variable {s : Store} (wk : s.WellKinded) (count : Nat)
include wk

theorem run_readById (id : String) :
    ∃ answer, run (log.readById id) s = (answer, s) ∧
      ∀ record, answer = .ok record ↔ (log.view s count).record id = some record := by
  unfold readById view
  rw [run_bind, run_get wk (log.recordBytes id), andThen_ok]
  cases found : s.bytesAt (log.recordKey id) with
  | none => exact ⟨_, rfl, by simp [found]⟩
  | some v =>
    cases read : log.decode v with
    | none =>
      simp only [read]
      exact ⟨_, rfl, by simp [found, read]⟩
    | some record =>
      simp only [read]
      exact ⟨_, rfl, by simp [found, read]⟩

theorem run_getByNumber (n : Nat) :
    ∃ answer, run (log.getByNumber n) s = (answer, s) ∧
      ∀ record, answer = .ok record ↔ (log.view s count).fetch n = some record := by
  unfold getByNumber NumberedLog.fetch
  rw [run_bind, run_get wk (log.indexBytes n), andThen_ok]
  cases found : s.bytesAt (log.indexKey n) with
  | none => exact ⟨_, rfl, by simp [view, found]⟩
  | some v =>
    cases text : v.utf8 with
    | none =>
      simp only [text]
      exact ⟨_, rfl, by simp [view, found, text]⟩
    | some id =>
      obtain ⟨answer, ran, reads⟩ := log.run_readById wk count id
      simp only [text]
      exact ⟨answer, ran, by simpa [view, found, text] using reads⟩

/-- A listing answers what walking down the log answers. -/
theorem run_collectDown (visible : A → Bool) (limit n : Nat) :
    run (log.collectDown visible limit n) s =
      (.ok (NumberedLog.walkDown (log.view s count).fetch visible limit n), s) := by
  induction n generalizing limit with
  | zero => cases limit <;> rfl
  | succ n ih =>
    cases limit with
    | zero => rfl
    | succ limit =>
      obtain ⟨answer, ran, reads⟩ := log.run_getByNumber wk count (n + 1)
      unfold collectDown NumberedLog.walkDown
      rw [run_bind, run_attempt, ran, andThen_ok]
      cases answer with
      | error e =>
        have none : (log.view s count).fetch (n + 1) = Option.none := by
          cases fetched : (log.view s count).fetch (n + 1) with
          | none => rfl
          | some record => simpa using (reads record).mpr fetched
        rw [none]
        exact ih (limit + 1)
      | ok record =>
        rw [(reads record).mp rfl]
        cases seen : visible record with
        | true => simp only [seen, if_true, run_bind, ih limit, andThen_ok, run_pure]
        | false => simp only [seen, Bool.false_eq_true, if_false, ih (limit + 1)]

end Reading

/-! Counters -/

/-- The value under a counter, absent until the first number is issued. -/
def Counts (v : Option Val) (bound count : Nat) : Prop :=
  (v = none ∧ count = 0) ∨ (v = some (.int count) ∧ count < bound)

/-- A count that goes up is the next number. -/
theorem counts_next {v : Option Val} {bound count : Nat} {s : Store} {k : Key}
    {f : Option String} {n : Int} (counts : Counts v bound count)
    (sum : s.addInt k f v 1 = .ok n) : n = (count + 1 : Nat) ∧ count + 1 < u64Size := by
  unfold Storage.addInt at sum
  rcases counts with ⟨rfl, rfl⟩ | ⟨rfl, _⟩
  · simp only [Except.ok.injEq] at sum
    exact ⟨sum.symm, by decide⟩
  · have reads : s.readInt (Val.int count) = some (count : Int) := by
      unfold Storage.readInt
      cases s.backend <;> rfl
    simp only [reads] at sum
    split at sum
    · rename_i range
      cases sum
      refine ⟨by simp, ?_⟩
      unfold i64Max at range
      unfold u64Size
      omega
    · cases sum

theorem counts_unique {v : Option Val} {bound count count' : Nat} (one : Counts v bound count)
    (two : Counts v bound count') : count' = count := by
  rcases one with ⟨rfl, rfl⟩ | ⟨rfl, _⟩
  · rcases two with ⟨_, rfl⟩ | ⟨same, _⟩
    · rfl
    · cases same
  · rcases two with ⟨same, _⟩ | ⟨same, _⟩
    · cases same
    · rw [Option.some.injEq, Val.int.injEq, Int.natCast_inj] at same
      exact same.symm

theorem starting_from_counter {v : Option Val} {bound count : Nat} (counts : Counts v bound count)
    (limit : Nat) : startingFrom v bound ⟨none, limit⟩ = count := by
  unfold startingFrom
  rcases counts with ⟨rfl, rfl⟩ | ⟨rfl, below⟩
  · rfl
  · simp [Val.parseBelow, below]

/-! What a store keeps of a log -/

/-- Records are addressed, and no index entry expires before the record it leads to. -/
structure Kept (s : Store) (minted : List String) (v : Option Val) (bound : Nat) : Prop where
  intro ::
  addressed : ∃ count, Counts v bound count ∧
    (log.view s count).Addressed log.number (· ∈ minted)
  outlived : ∀ id record, log.Live s id record → s.armed (log.indexKey (log.number record)) = none ∨
    ∃ d d', s.armed (log.recordKey id) = some d ∧
      s.armed (log.indexKey (log.number record)) = some d' ∧ d ≤ d'

section Keeping
variable {log} {s : Store} {minted : List String} {v : Option Val} {bound : Nat}
  (kept : log.Kept s minted v bound)
include kept

/-- A log that a change of the store does not touch stays kept. -/
theorem Kept.congr {t : Store} {grown : List String} (more : ∀ id ∈ minted, id ∈ grown)
    (records : ∀ id, t.bytesAt (log.recordKey id) = s.bytesAt (log.recordKey id) ∧
      t.armed (log.recordKey id) = s.armed (log.recordKey id))
    (index : ∀ n, t.bytesAt (log.indexKey n) = s.bytesAt (log.indexKey n) ∧
      t.armed (log.indexKey n) = s.armed (log.indexKey n)) : log.Kept t grown v bound := by
  have same : ∀ count, log.view t count = log.view s count := by
    intro count
    simp only [view, NumberedLog.mk.injEq, true_and]
    exact ⟨funext (fun n => by rw [(index n).1]), funext (fun id => by rw [(records id).1])⟩
  obtain ⟨⟨count, counts, addressed⟩, outlived⟩ := kept
  refine ⟨⟨count, counts, ?_⟩, ?_⟩
  · rw [same]
    exact NumberedLog.addressed_mono addressed more
  · intro id record live
    rw [(index _).2, (records id).2]
    refine outlived id record ?_
    unfold Live at live ⊢
    rw [← (records id).1]
    exact live

/-- A record and its index entry are written under a new id and the next number. -/
theorem Kept.recorded {t : Store} {id : String} {record : A} {count : Nat}
    {recordEnds indexEnds : Option Nat} (counts : Counts v bound count) (new : id ∉ minted)
    (next : log.number record = count + 1) (room : count + 1 < bound)
    (outlasts : indexEnds = none ∨ ∃ d d', recordEnds = some d ∧ indexEnds = some d' ∧ d ≤ d')
    (records : ∀ x, t.bytesAt (log.recordKey x) =
        (if x = id then some (log.encode record) else s.bytesAt (log.recordKey x)) ∧
      t.armed (log.recordKey x) = if x = id then recordEnds else s.armed (log.recordKey x))
    (index : ∀ n, t.bytesAt (log.indexKey n) =
        (if n = log.number record then some (.text id) else s.bytesAt (log.indexKey n)) ∧
      t.armed (log.indexKey n) =
        if n = log.number record then indexEnds else s.armed (log.indexKey n)) :
    log.Kept t (id :: minted) (some (.int (count + 1 : Nat))) bound := by
  obtain ⟨⟨count', counts', addressed⟩, outlived⟩ := kept
  have same := counts_unique counts counts'
  subst same
  refine ⟨⟨count' + 1, .inr ⟨rfl, room⟩, ?_⟩, ?_⟩
  · have grown := NumberedLog.addressed_append addressed (m := log.view t (count' + 1)) new next rfl
      (fun n => by
        simp only [view, (index n).1]
        split <;> rfl)
      (fun x => by
        simp only [view, (records x).1]
        split
        · exact log.reads record
        · rfl)
    refine NumberedLog.addressed_mono grown ?_
    rintro x (rfl | old)
    · exact List.mem_cons_self
    · exact List.mem_cons_of_mem _ old
  · intro x r live
    unfold Live at live
    rw [(records x).1] at live
    rw [(index _).2, (records x).2]
    by_cases here : x = id
    · rw [if_pos here] at live
      have is : record = r := by simpa [log.reads] using live
      rw [is, if_pos rfl, if_pos here]
      exact outlasts
    · rw [if_neg here] at live
      have below := (addressed.counted x r live).2
      have apart : log.number r ≠ log.number record := by
        rw [next]
        simp only [view] at below
        omega
      rw [if_neg apart, if_neg here]
      exact outlived x r live

/-- Time takes records, and index entries no earlier than their records. -/
theorem Kept.advance (seconds : Nat) : log.Kept (s.advance seconds) minted v bound := by
  obtain ⟨⟨count, counts, addressed⟩, outlived⟩ := kept
  have stays : ∀ id record, log.Live (s.advance seconds) id record →
      log.Live s id record ∧ s.due (log.recordKey id) seconds = false := by
    intro id record live
    unfold Live at live ⊢
    rw [Storage.bytesAt_advance] at live
    split at live
    · cases live
    · rename_i early
      exact ⟨live, by simpa using early⟩
  have reaches : ∀ id record, log.Live (s.advance seconds) id record →
      s.due (log.indexKey (log.number record)) seconds = false := by
    intro id record live
    obtain ⟨before, early⟩ := stays id record live
    unfold Storage.due at early ⊢
    rcases outlived id record before with never | ⟨d, d', recordEnds, indexEnds, order⟩
    · simp [never]
    · simp only [recordEnds, Option.any_some, decide_eq_false_iff_not] at early
      simp only [indexEnds, Option.any_some, decide_eq_false_iff_not]
      omega
  refine ⟨⟨count, counts, ?_⟩, ?_⟩
  · apply NumberedLog.addressed_shrink addressed (m := log.view (s.advance seconds) count) rfl
    · exact fun id record live => (stays id record live).1
    · intro n id at_
      simp only [view, Storage.bytesAt_advance] at at_ ⊢
      split at at_
      · cases at_
      · exact at_
    · intro id record live
      simp [view, reaches id record live]
  · intro id record live
    rw [Storage.armed_advance, Storage.armed_advance, reaches id record live,
      (stays id record live).2]
    exact outlived id record (stays id record live).1

/-- Once a log has no record left, its counter may go. -/
theorem Kept.restart {t : Store} (empty : ∀ id record, ¬ log.Live t id record)
    (index : ∀ n, t.bytesAt (log.indexKey n) = none ∨
      t.bytesAt (log.indexKey n) = s.bytesAt (log.indexKey n)) : log.Kept t minted none bound := by
  obtain ⟨⟨count, counts, addressed⟩, outlived⟩ := kept
  refine ⟨⟨0, .inl ⟨rfl, rfl⟩, ?_⟩, fun id record live => absurd live (empty id record)⟩
  apply NumberedLog.addressed_restart addressed
  · intro id
    cases found : (log.view t 0).record id with
    | none => rfl
    | some record => exact absurd found (empty id record)
  · intro n id at_
    simp only [view] at at_ ⊢
    rcases index n with none | same
    · rw [none] at at_
      cases at_
    · rw [same] at at_
      exact at_

end Keeping

/-! What a log owes its readers -/

/-- The records of one request for a page; none if the request fails. -/
def page (list : ListCursor → Jnl (List A)) (s : Store) (limit : Nat) (before : Option Nat) :
    List A :=
  match (run (list ⟨before, limit⟩) s).1 with
  | .ok records => records
  | .error _ => []

/-- A listing from the newest record down, each page from below the one before. -/
def listing (list : ListCursor → Jnl (List A)) (s : Store) (limit : Nat) : Nat → Option Nat → List A
  | 0, _ => []
  | fuel + 1, before =>
    match (page list s limit before).getLast? with
    | none => []
    | some last =>
      page list s limit before ++ listing list s limit fuel (some (log.number last))

structure Answers (s : Store) (list : ListCursor → Jnl (List A)) (visible : A → Bool) : Prop where
  lookup : ∀ id record, log.Live s id record →
    (run (log.getByNumber (log.number record)) s).1 = .ok record
  unique : ∀ id id' record record', log.Live s id record → log.Live s id' record' →
    log.number record = log.number record' → id = id'
  listed : ∀ limit id record, log.Live s id record → visible record = true →
    ∃ fuel, record ∈ log.listing list s limit fuel none

/-- A log that is kept answers, when its listing walks down from its counter. -/
theorem answers_of_kept {s : Store} {minted : List String} {v : Option Val} {bound : Nat}
    (wk : s.WellKinded) (kept : log.Kept s minted v bound)
    {list : ListCursor → Jnl (List A)} {visible : A → Bool}
    (walks : ∀ cursor, run (list cursor) s =
      run (log.collectDown visible (clampLimit cursor.limit) (startingFrom v bound cursor)) s) :
    log.Answers s list visible := by
  obtain ⟨⟨count, counts, addressed⟩, _⟩ := kept
  have pages : ∀ limit before, page list s limit before =
      NumberedLog.walkDown (log.view s count).fetch visible (clampLimit limit - 1 + 1)
        (startingFrom v bound ⟨before, limit⟩) := by
    intro limit before
    have positive : clampLimit limit - 1 + 1 = clampLimit limit := by
      unfold clampLimit
      omega
    unfold page
    rw [walks, log.run_collectDown wk count, positive]
  have follows : ∀ limit fuel before, log.listing list s limit fuel before =
      NumberedLog.follow
        (NumberedLog.walkDown (log.view s count).fetch visible (clampLimit limit - 1 + 1))
        log.number fuel (startingFrom v bound ⟨before, limit⟩) := by
    intro limit fuel
    induction fuel with
    | zero => intro before; rfl
    | succ fuel ih =>
      intro before
      unfold listing NumberedLog.follow
      rw [pages]
      cases (NumberedLog.walkDown (log.view s count).fetch visible (clampLimit limit - 1 + 1)
          (startingFrom v bound ⟨before, limit⟩)).getLast? with
      | none => rfl
      | some last =>
        simp only [ih]
        rfl
  constructor
  · intro id record live
    obtain ⟨answer, ran, reads⟩ := log.run_getByNumber wk count (log.number record)
    rw [ran]
    exact (reads record).mpr (addressed.fetch live)
  · intro id id' record record' live live' same
    exact addressed.unique live live' same
  · intro limit id record live seen
    refine ⟨count + 1, ?_⟩
    obtain ⟨positive, below⟩ := addressed.counted id record live
    rw [follows, starting_from_counter counts]
    exact NumberedLog.mem_follow (fun n a found => addressed.fetch_number found) (by omega) positive
      below (addressed.fetch live) seen

end Log
end WireMirage
