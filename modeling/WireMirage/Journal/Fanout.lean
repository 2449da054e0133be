import WireMirage.Library.Fanout
import WireMirage.Library.StepMachine
import WireMirage.Journal.Operations

/-!
The live tails of the journal on any number of replicas: what is recorded is heard at
once by the tails of the same replica, and over the bus by those of the others. The
origin on a published event keeps a replica from hearing its own events again.
-/
namespace WireMirage
open Prog StepMachine Fanout

inductive JournalEvent where
  | handled (r : JournalRecord)
  | unmatched (r : UnmatchedRecord)
  deriving DecidableEq, Repr

def JournalEvent.id : JournalEvent → String
  | .handled r => r.id
  | .unmatched r => r.id

/-- What is recorded of a request, and published. -/
inductive Recording where
  | handled (entry : NewJournalEntry) (id : String) (now : Time)
  | unmatched (entry : NewUnmatchedEntry) (id : String) (now : Time)

def Recording.id : Recording → String
  | .handled _ id _ => id
  | .unmatched _ id _ => id

def Recording.record : Recording → Jnl JournalEvent
  | .handled entry id now => do
    let r ← recordHandled entry id now
    return .handled r
  | .unmatched entry id now => do
    let r ← recordUnmatched entry id now
    return .unmatched r

def isDistributed (s : Store) : Bool := s.backend = .valkey

structure FanoutState (R : Type) where
  store : Store
  minted : List String
  net : Net R String JournalEvent

inductive FanoutAction (R : Type) where
  | record (replica : R) (recording : Recording)
  | net (m : Move R)
  | storage (t : Store)

/-- Replicas over one storage. Sessions begin and end at any time, and so do tails; what else
    happens in the storage is left open. -/
def fanOut {R : Type} [DecidableEq R] (origin : R → String) :
    Machine (FanoutState R) (FanoutAction R) where
  start s := s.minted = [] ∧ s.net = Net.quiet
  step s
    | .record r recording =>
      if recording.id ∈ s.minted then none
      else match run recording.record s.store with
        | (.ok event, t) =>
          some ⟨t, recording.id :: s.minted, s.net.emit (isDistributed s.store) r event⟩
        | (.error _, t) => some ⟨t, recording.id :: s.minted, s.net⟩
    | .net m => (s.net.move origin m).map (fun net => { s with net := net })
    | .storage t => if t.backend = s.store.backend then some { s with store := t } else none

theorem andThen_answer {S E A B : Type} {x : Except E A × S} {f : A → S → Except E B × S} {b : B}
    (answered : (andThen x f).1 = .ok b) : ∃ a, x.1 = .ok a ∧ (f a x.2).1 = .ok b := by
  obtain ⟨answer | answer, s⟩ := x
  · cases answered
  · exact ⟨_, rfl, answered⟩

theorem recordHandled_id {entry : NewJournalEntry} {id : String} {now : Time} {s : Store}
    {r : JournalRecord} (recorded : (run (recordHandled entry id now) s).1 = .ok r) :
    r.id = id := by
  unfold recordHandled at recorded
  rw [run_bind] at recorded
  obtain ⟨n, _, counted⟩ := andThen_answer recorded
  rw [run_bind] at counted
  obtain ⟨_, _, stored⟩ := andThen_answer counted
  rw [run_bind] at stored
  obtain ⟨_, _, indexed⟩ := andThen_answer stored
  cases indexed
  rfl

theorem recordUnmatched_id {entry : NewUnmatchedEntry} {id : String} {now : Time} {s : Store}
    {r : UnmatchedRecord} (recorded : (run (recordUnmatched entry id now) s).1 = .ok r) :
    r.id = id := by
  unfold recordUnmatched at recorded
  rw [run_bind] at recorded
  obtain ⟨n, _, counted⟩ := andThen_answer recorded
  rw [run_bind] at counted
  obtain ⟨_, _, stored⟩ := andThen_answer counted
  rw [run_bind] at stored
  obtain ⟨_, _, indexed⟩ := andThen_answer stored
  cases indexed
  rfl

theorem recorded_id {recording : Recording} {s : Store} {event : JournalEvent}
    (recorded : (run recording.record s).1 = .ok event) : event.id = recording.id := by
  cases recording with
  | handled entry id now =>
    simp only [Recording.record, run_bind] at recorded
    obtain ⟨r, made, same⟩ := andThen_answer recorded
    cases same
    exact recordHandled_id made
  | unmatched entry id now =>
    simp only [Recording.record, run_bind] at recorded
    obtain ⟨r, made, same⟩ := andThen_answer recorded
    cases same
    exact recordUnmatched_id made

section Machine
variable {R : Type} [DecidableEq R] {origin : R → String} {s t : FanoutState R}

/-- No tail is due an event twice, and events of ids that were not drawn are not about. -/
structure HeardOnce (origin : R → String) (s : FanoutState R) : Prop where
  once : s.net.Once origin
  new : ∀ event : JournalEvent, event.id ∉ s.minted → s.net.Unheard event

/-- What a step that records has done. -/
theorem record_cases {r : R} {recording : Recording}
    (next : (fanOut origin).step s (.record r recording) = some t) :
    recording.id ∉ s.minted ∧ t.minted = recording.id :: s.minted ∧
      ((∃ event, (run recording.record s.store).1 = .ok event ∧
          t.net = s.net.emit (isDistributed s.store) r event) ∨
        (∃ e, (run recording.record s.store).1 = .error e) ∧ t.net = s.net) := by
  simp only [fanOut] at next
  split at next
  · cases next
  · rename_i drawn
    rcases ran : run recording.record s.store with ⟨e | event, u⟩
    · rw [ran] at next
      cases next
      exact ⟨drawn, rfl, .inr ⟨⟨e, rfl⟩, rfl⟩⟩
    · rw [ran] at next
      cases next
      exact ⟨drawn, rfl, .inl ⟨event, rfl, rfl⟩⟩

theorem heardOnce_step (distinct : Function.Injective origin) {a : FanoutAction R}
    (heard : HeardOnce origin s) (next : (fanOut origin).step s a = some t) :
    HeardOnce origin t := by
  cases a with
  | record r recording =>
    obtain ⟨drawn, minted, recorded⟩ := record_cases next
    have further : ∀ event : JournalEvent, event.id ∉ t.minted →
        event.id ≠ recording.id ∧ event.id ∉ s.minted := by
      intro event unknown
      rw [minted, List.mem_cons, not_or] at unknown
      exact unknown
    rcases recorded with ⟨event, made, net⟩ | ⟨_, net⟩
    · have id := recorded_id made
      constructor
      · rw [net]
        exact Net.once_emit heard.once (heard.new event (id ▸ drawn))
      · intro other unknown
        obtain ⟨apart, old⟩ := further other unknown
        rw [net]
        refine Net.unheard_emit (heard.new other old) ?_
        rintro rfl
        exact apart id
    · constructor
      · rw [net]
        exact heard.once
      · intro other unknown
        rw [net]
        exact heard.new other (further other unknown).2
  | net m =>
    obtain ⟨net, moved, rfl⟩ := Option.map_eq_some_iff.mp next
    exact ⟨Net.once_move distinct heard.once moved,
      fun event unknown => Net.unheard_move (heard.new event unknown) moved⟩
  | storage u =>
    simp only [fanOut, Option.ite_none_right_eq_some, Option.some.injEq] at next
    obtain ⟨_, rfl⟩ := next
    exact ⟨heard.once, heard.new⟩

theorem heardOnce_run (distinct : Function.Injective origin) (heard : HeardOnce origin s)
    (path : Run (fanOut origin) (fun _ _ => True) s t) : HeardOnce origin t :=
  run_invariant (fun _ _ _ hold _ next => heardOnce_step distinct hold next) path heard

theorem heardOnce_reached (distinct : Function.Injective origin)
    (reached : Reached (fanOut origin) (fun _ _ => True) s) : HeardOnce origin s := by
  obtain ⟨first, ⟨_, quiet⟩, path⟩ := reached
  refine heardOnce_run distinct ⟨?_, ?_⟩ path
  · rw [quiet]
    exact Net.once_quiet origin
  · intro event _
    rw [quiet]
    exact ⟨by simp [Net.quiet], by simp [Net.quiet], by simp [Net.quiet]⟩

theorem grows_step {a : FanoutAction R} (next : (fanOut origin).step s a = some t) :
    Net.Grows s.net t.net := by
  cases a with
  | record r recording =>
    obtain ⟨_, _, ⟨event, _, net⟩ | ⟨_, net⟩⟩ := record_cases next
    · rw [net]
      exact Net.grows_deliver (n := s.net) r event
    · rw [net]
      exact Net.Grows.refl s.net
  | net m =>
    obtain ⟨net, moved, rfl⟩ := Option.map_eq_some_iff.mp next
    exact Net.grows_move moved
  | storage u =>
    simp only [fanOut, Option.ite_none_right_eq_some, Option.some.injEq] at next
    obtain ⟨_, rfl⟩ := next
    exact Net.Grows.refl s.net

theorem grows_run (path : Run (fanOut origin) (fun _ _ => True) s t) :
    Net.Grows s.net t.net := by
  induction path with
  | refl => exact Net.Grows.refl _
  | tail _ _ next ih => exact ih.trans (grows_step next)

/-- No tail receives an event twice. A tail that is attached where an event is recorded has
    received it, once, whatever happens from then on. -/
theorem fan_out_at_most_once (distinct : Function.Injective origin)
    (reached : Reached (fanOut origin) (fun _ _ => True) s) :
    (∀ tail ∈ s.net.tails, ∀ event, tail.received.count event ≤ 1) ∧
      ∀ (r : R) (recording : Recording) (event : JournalEvent) (t u : FanoutState R),
        (fanOut origin).step s (.record r recording) = some t →
        (run recording.record s.store).1 = .ok event →
        Run (fanOut origin) (fun _ _ => True) t u →
        ∀ (i : Nat) (tail : Tail R JournalEvent), s.net.tails[i]? = some tail →
          tail.attached = true → tail.replica = r →
          ∃ later, u.net.tails[i]? = some later ∧ later.received.count event = 1 := by
  have heard := heardOnce_reached distinct reached
  refine ⟨fun tail member event => ?_, ?_⟩
  · have bound := heard.once.heard tail member event
    omega
  · intro r recording event t u next made path i tail at_ attached home
    obtain ⟨_, _, recorded⟩ := record_cases next
    have net : t.net = s.net.emit (isDistributed s.store) r event := by
      rcases recorded with ⟨same, made', net⟩ | ⟨⟨e, failed⟩, _⟩
      · rw [made] at made'
        cases made'
        exact net
      · rw [made] at failed
        cases failed
    have now : t.net.tails[i]? = some { tail with received := tail.received ++ [event] } := by
      rw [net]
      simp [Net.emit, Net.deliverLocal, at_, Tail.hear, attached, home]
    obtain ⟨later, at', _, more⟩ := grows_run path i _ now
    refine ⟨later, at', ?_⟩
    have bound := (heardOnce_run distinct
        (heardOnce_step distinct heard next) path).once.heard later
      (List.mem_of_getElem? at') event
    have least := more.sublist.count_le event
    rw [List.count_append, List.count_singleton_self] at least
    omega

end Machine

namespace Sample

/-- Two replicas by their origins. -/
def twoOrigins (replica : Bool) : String := if replica then "one" else "two"

def missed : Recording := .unmatched ⟨none, idA, "shop", ⟨"GET", "/a", [], [], false, 0⟩, []⟩ idB 1

def tailing : List (FanoutAction Bool) :=
  [.net (.attach false), .net (.attach true), .net (.connect false), .net (.connect true)]

end Sample

/-- A request is recorded at one of two replicas, and what is posted arrives at both. -/
theorem fan_out_at_most_once_two : ∃ (s t u : FanoutState Bool) (event : JournalEvent),
    (∀ tail ∈ s.net.tails, ∀ event, tail.received.count event ≤ 1) ∧
      (fanOut Sample.twoOrigins).step s (.record false Sample.missed) = some t ∧
      Run (fanOut Sample.twoOrigins) (fun _ _ => True) t u ∧
      u.net.tails[0]?.map (fun tail => tail.received.count event) = some 1 := by
  have distinct : Function.Injective Sample.twoOrigins := by
    intro one two same
    cases one <;> cases two <;> first | rfl | exact absurd same (by decide)
  have ran : ((exec (fanOut Sample.twoOrigins) ⟨Storage.empty .valkey, [], Net.quiet⟩
      Sample.tailing).bind (fun s => ((fanOut Sample.twoOrigins).step s
        (.record false Sample.missed)).bind (fun t => (exec (fanOut Sample.twoOrigins) t
          [.net (.post 0), .net (.arrive false 0), .net (.arrive true 0)]).bind (fun u =>
            (run Sample.missed.record s.store).1.toOption.map (fun event =>
              (s.net.tails[0]?.map (fun tail => (tail.attached, tail.replica)),
                u.net.tails.map (fun tail => tail.received.count event))))))) =
      some (some (true, false), [1, 1]) := by decide +kernel
  obtain ⟨s, tailing, recorded⟩ := Option.bind_eq_some_iff.mp ran
  obtain ⟨t, next, passed⟩ := Option.bind_eq_some_iff.mp recorded
  obtain ⟨u, rest, counted⟩ := Option.bind_eq_some_iff.mp passed
  obtain ⟨event, made, counts⟩ := Option.map_eq_some_iff.mp counted
  rw [Prod.mk.injEq] at counts
  obtain ⟨tail, first, here⟩ := Option.map_eq_some_iff.mp counts.1
  rw [Prod.mk.injEq] at here
  have reached : Reached (fanOut Sample.twoOrigins) (fun _ _ => True) s :=
    reached_of_exec Sample.tailing ⟨rfl, rfl⟩ tailing
  have answered : (run Sample.missed.record s.store).1 = .ok event := by
    cases answer : (run Sample.missed.record s.store).1 with
    | error e =>
      rw [answer] at made
      cases made
    | ok other =>
      rw [answer] at made
      cases made
      rfl
  have path := run_of_exec _ rest
  obtain ⟨once, exactly⟩ := fan_out_at_most_once distinct reached
  obtain ⟨later, at_, one⟩ := exactly false Sample.missed event t u next answered path 0 tail first
    here.1 here.2
  exact ⟨s, t, u, event, once, next, path, by rw [at_, Option.map_some, one]⟩

end WireMirage
