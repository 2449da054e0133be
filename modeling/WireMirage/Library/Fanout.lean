import Mathlib.Data.List.Perm.Basic
import Mathlib.Logic.Function.Basic

/-!
The fan-out of events to listeners: an event is heard at once where it is emitted, and
is posted to the sessions of all replicas, over a channel that may lose it on the way.
Each session drops what its own replica has emitted.
-/
namespace Fanout

structure Tail (R E : Type) where
  replica : R
  attached : Bool
  received : List E
  deriving DecidableEq, Repr

structure Message (O E : Type) where
  origin : O
  event : E
  deriving DecidableEq, Repr

structure Net (R O E : Type) where
  tails : List (Tail R E)
  /-- What is emitted and not yet posted. -/
  outbox : List (R × E)
  /-- What is on its way to each session; none where there is no session. -/
  sessions : R → Option (List (Message O E))

def Net.quiet {R O E : Type} : Net R O E := ⟨[], [], fun _ => none⟩

inductive Move (R : Type) where
  | attach (r : R)
  | detach (i : Nat)
  | connect (r : R)
  | disconnect (r : R)
  | post (i : Nat)
  | withhold (i : Nat)
  | arrive (r : R) (i : Nat)
  | lose (r : R) (i : Nat)
  deriving DecidableEq, Repr

section
variable {R O E : Type} [DecidableEq R] [DecidableEq O]

def Tail.hear (r : R) (e : E) (tail : Tail R E) : Tail R E :=
  if tail.attached ∧ tail.replica = r then { tail with received := tail.received ++ [e] }
  else tail

namespace Net

def deliverLocal (n : Net R O E) (r : R) (e : E) : Net R O E :=
  { n with tails := n.tails.map (Tail.hear r e) }

def setSession (n : Net R O E) (r : R) (session : Option (List (Message O E))) : Net R O E :=
  { n with sessions := fun q => if q = r then session else n.sessions q }

/-- Heard where it is emitted, and left to be posted when there are other replicas. -/
def emit (distributed : Bool) (n : Net R O E) (r : R) (e : E) : Net R O E :=
  { n.deliverLocal r e with outbox := if distributed then n.outbox ++ [(r, e)] else n.outbox }

variable (origin : R → O)

/-- A session passes on what another replica has emitted, and drops the rest. -/
def receive (n : Net R O E) (r : R) (m : Message O E) : Net R O E :=
  if m.origin = origin r then n else n.deliverLocal r m.event

def move (n : Net R O E) : Move R → Option (Net R O E)
  | .attach r => some { n with tails := n.tails ++ [⟨r, true, []⟩] }
  | .detach i => 
    some { n with tails := n.tails.modify i (fun tail => { tail with attached := false }) }
  | .connect r => if n.sessions r = none then some (n.setSession r (some [])) else none
  | .disconnect r => some (n.setSession r none)
  | .post i => n.outbox[i]?.map (fun p =>
      { n with
        outbox := n.outbox.eraseIdx i
        sessions := fun r => (n.sessions r).map (· ++ [⟨origin p.1, p.2⟩]) })
  | .withhold i => some { n with outbox := n.outbox.eraseIdx i }
  | .arrive r i => (n.sessions r).bind (fun queue => queue[i]?.map (fun m =>
      (n.setSession r (some (queue.eraseIdx i))).receive origin r m))
  | .lose r i => (n.sessions r).map (fun queue => n.setSession r (some (queue.eraseIdx i)))

end Net
end

/-! Copies on their way -/

section
variable {R O E : Type} [DecidableEq R] [DecidableEq O] [DecidableEq E] (origin : R → O)

namespace Net

/-- The copies of an event that can still come to be heard at a replica. -/
def due (n : Net R O E) (r : R) (e : E) : Nat :=
  n.outbox.countP (fun p => p.1 ≠ r ∧ p.2 = e) +
    ((n.sessions r).getD []).countP (fun m => m.origin ≠ origin r ∧ m.event = e)

/-- An event that has not been emitted. -/
structure Unheard (n : Net R O E) (e : E) : Prop where
  received : ∀ tail ∈ n.tails, e ∉ tail.received
  outbox : ∀ p ∈ n.outbox, p.2 ≠ e
  sessions : ∀ r queue, n.sessions r = some queue → ∀ m ∈ queue, m.event ≠ e

/-- No listener has heard an event twice, nor has one that it can still come to hear. -/
structure Once (n : Net R O E) : Prop where
  due : ∀ r e, n.due origin r e ≤ 1
  heard : ∀ tail ∈ n.tails, ∀ e, tail.received.count e + n.due origin tail.replica e ≤ 1

theorem once_quiet : (quiet : Net R O E).Once origin where
  due := by simp [quiet, Net.due]
  heard := by simp [quiet]

variable {origin}

theorem due_setSession (n : Net R O E) (r : R) (session : Option (List (Message O E))) (q : R)
    (e : E) : (n.setSession r session).due origin q e =
      n.outbox.countP (fun p => p.1 ≠ q ∧ p.2 = e) +
        ((if q = r then session else n.sessions q).getD []).countP
          (fun m => m.origin ≠ origin q ∧ m.event = e) := rfl

theorem due_deliver (n : Net R O E) (r q : R) (e x : E) :
    (n.deliverLocal r e).due origin q x = n.due origin q x := rfl

end Net

/-- One element fewer, counted. -/
theorem countP_eraseIdx {A : Type} {l : List A} {i : Nat} {a : A} (at_ : l[i]? = some a)
    (p : A → Bool) : l.countP p = (l.eraseIdx i).countP p + if p a then 1 else 0 := by
  obtain ⟨inside, rfl⟩ := List.getElem?_eq_some_iff.mp at_
  rw [← (List.getElem_cons_eraseIdx_perm inside).countP_eq, List.countP_cons]

theorem countP_eraseIdx_le {A : Type} (l : List A) (i : Nat) (p : A → Bool) :
    (l.eraseIdx i).countP p ≤ l.countP p :=
  (List.eraseIdx_sublist l i).countP_le

namespace Net
variable {origin} {n n' : Net R O E}

/-- With fewer copies on their way nothing is heard twice that was not. -/
theorem once_of_fewer (once : n.Once origin)
    (fewer : ∀ r e, n'.due origin r e ≤ n.due origin r e)
    (tails : ∀ tail ∈ n'.tails, tail.received = [] ∨
      ∃ old ∈ n.tails, old.replica = tail.replica ∧ old.received = tail.received) :
    n'.Once origin := by
  have due := fun r e => Nat.le_trans (fewer r e) (once.due r e)
  refine ⟨due, ?_⟩
  intro tail member e
  rcases tails tail member with empty | ⟨old, before, same, heard⟩
  · rw [empty, List.count_nil, Nat.zero_add]
    exact due tail.replica e
  · have bound := once.heard old before e
    have less := fewer tail.replica e
    rw [same, heard] at bound
    omega

omit [DecidableEq O] [DecidableEq E] in
theorem mem_deliver {r : R} {e : E} {tail : Tail R E} (member : tail ∈ (n.deliverLocal r e).tails) :
    ∃ old ∈ n.tails, old.replica = tail.replica ∧
      (tail.received = old.received ∨
        old.replica = r ∧ tail.received = old.received ++ [e]) := by
  obtain ⟨old, before, rfl⟩ := List.mem_map.mp member
  refine ⟨old, before, ?_⟩
  unfold Tail.hear
  split
  · rename_i here
    exact ⟨rfl, .inr ⟨here.2, rfl⟩⟩
  · exact ⟨rfl, .inl rfl⟩

/-- A last copy is heard by those who have not heard the event. -/
theorem once_deliver {r : R} {e : E} (once : n.Once origin) (last : n.due origin r e = 0)
    (unheard : ∀ tail ∈ n.tails, tail.replica = r → tail.received.count e = 0) :
    (n.deliverLocal r e).Once origin := by
  refine ⟨once.due, ?_⟩
  intro tail member x
  obtain ⟨old, before, same, heard⟩ := mem_deliver member
  have bound := once.heard old before x
  rw [due_deliver, ← same]
  rcases heard with heard | ⟨here, heard⟩
  · rwa [heard]
  · rw [heard, List.count_append]
    by_cases this : x = e
    · subst this
      rw [here, last, unheard old before here]
      simp
    · have other : [e].count x = 0 := by
        rw [List.count_eq_zero]
        simpa using this
      omega

theorem once_emit {distributed : Bool} {r : R} {e : E} (once : n.Once origin)
    (new : n.Unheard e) : (n.emit distributed r e).Once origin := by
  have outbox : ∀ q, n.outbox.countP (fun p => p.1 ≠ q ∧ p.2 = e) = 0 := by
    intro q
    rw [List.countP_eq_zero]
    intro p member
    simp [new.outbox p member]
  have session : ∀ q, ((n.sessions q).getD []).countP
      (fun m => m.origin ≠ origin q ∧ m.event = e) = 0 := by
    intro q
    rw [List.countP_eq_zero]
    intro m member
    cases open_ : n.sessions q with
    | none => simp [open_] at member
    | some queue =>
      rw [open_] at member
      simp [new.sessions q queue open_ m member]
  have none : ∀ tail ∈ n.tails, tail.received.count e = 0 :=
    fun tail member => List.count_eq_zero.mpr (new.received tail member)
  -- the event is left to be posted before it is heard: no replica but the others is due a copy
  let left : Net R O E := { n with outbox := if distributed then n.outbox ++
    [(r, e)] else n.outbox }
  have due : ∀ q x, left.due origin q x =
      n.due origin q x + if distributed ∧ r ≠ q ∧ e = x then 1 else 0 := by
    intro q x
    cases distributed with
    | false => simp [left, Net.due]
    | true =>
      simp only [left, Net.due, if_true, List.countP_append, List.countP_cons, List.countP_nil,
        decide_eq_true_eq, true_and, Nat.zero_add]
      omega
  have zero : ∀ q, n.due origin q e = 0 := fun q => by rw [Net.due, outbox, session]
  have once' : left.Once origin := by
    constructor
    · intro q x
      rw [due]
      split
      · rename_i here
        have gone := zero q
        rw [here.2.2] at gone
        omega
      · exact once.due q x
    · intro tail member x
      rw [due]
      split
      · rename_i here
        have gone := zero tail.replica
        have unheard := none tail member
        rw [here.2.2] at gone unheard
        omega
      · exact once.heard tail member x
  refine once_deliver once' ?_ (fun tail member _ => none tail member)
  rw [due, zero]
  simp

theorem once_receive {r : R} {queue : List (Message O E)} {i : Nat} {m : Message O E}
    (once : n.Once origin) (open_ : n.sessions r = some queue) (at_ : queue[i]? = some m) :
    ((n.setSession r (some (queue.eraseIdx i))).receive origin r m).Once origin := by
  have due : ∀ q x, n.due origin q x = (n.setSession r (some (queue.eraseIdx i))).due origin q x +
      if q = r ∧ m.origin ≠ origin r ∧ m.event = x then 1 else 0 := by
    intro q x
    rw [due_setSession, Net.due]
    by_cases here : q = r
    · subst here
      rw [open_, if_pos rfl, Option.getD_some, Option.getD_some, countP_eraseIdx at_]
      simp only [decide_eq_true_eq, true_and, Nat.add_assoc]
    · simp [here]
  have less : (n.setSession r (some (queue.eraseIdx i))).Once origin := by
    refine once_of_fewer once (fun q x => ?_) (fun tail member => .inr ⟨tail, member, rfl, rfl⟩)
    have split := due q x
    omega
  unfold receive
  split
  · exact less
  · rename_i foreign
    have split := due r m.event
    rw [if_pos ⟨rfl, foreign, rfl⟩] at split
    refine once_deliver less ?_ ?_
    · have bound := once.due r m.event
      omega
    · intro tail member here
      have bound := once.heard tail member m.event
      rw [here] at bound
      omega

theorem due_post (distinct : Function.Injective origin) {i : Nat} {p : R × E}
    (at_ : n.outbox[i]? = some p) (q : R) (x : E) :
    ({ n with
        outbox := n.outbox.eraseIdx i
        sessions := fun r => (n.sessions r).map (· ++ [⟨origin p.1, p.2⟩]) } : Net R O E).due
      origin q x ≤ n.due origin q x := by
  have away : origin p.1 = origin q ↔ p.1 = q := ⟨fun same => distinct same, fun same => same ▸ rfl⟩
  simp only [Net.due]
  rw [countP_eraseIdx at_]
  cases n.sessions q with
  | none =>
    simp only [Option.map_none, Option.getD_none, List.countP_nil]
    omega
  | some queue =>
    simp only [Option.map_some, Option.getD_some, List.countP_append, List.countP_cons,
      List.countP_nil, decide_eq_true_eq, ne_eq, away]
    omega

/-- Each move keeps events from being heard twice. -/
theorem once_move (distinct : Function.Injective origin) {a : Move R} (once : n.Once origin)
    (next : n.move origin a = some n') : n'.Once origin := by
  have same : ∀ {t : Net R O E}, (∀ r e, t.due origin r e ≤ n.due origin r e) →
      t.tails = n.tails → t.Once origin := by
    intro t fewer tails
    exact once_of_fewer once fewer (fun tail member => .inr ⟨tail, tails ▸ member, rfl, rfl⟩)
  have closed : ∀ r session, (∀ e, (session.getD []).countP
      (fun m => m.origin ≠ origin r ∧ m.event = e) ≤ ((n.sessions r).getD []).countP
        (fun m => m.origin ≠ origin r ∧ m.event = e)) →
      (n.setSession r session).Once origin := by
    intro r session fewer
    refine same (fun q e => ?_) rfl
    rw [due_setSession, Net.due]
    split
    · rename_i here
      subst here
      have bound := fewer e
      omega
    · exact Nat.le_refl _
  cases a with
  | attach r =>
    cases next
    refine once_of_fewer once (fun _ _ => Nat.le_refl _) ?_
    intro tail member
    rcases List.mem_append.mp member with old | new
    · exact .inr ⟨tail, old, rfl, rfl⟩
    · rw [List.mem_singleton.mp new]
      exact .inl rfl
  | detach i =>
    cases next
    refine once_of_fewer once (fun _ _ => Nat.le_refl _) ?_
    intro tail member
    obtain ⟨j, at_⟩ := List.getElem?_of_mem member
    rw [List.getElem?_modify] at at_
    obtain ⟨old, here, rfl⟩ := Option.map_eq_some_iff.mp at_
    refine .inr ⟨old, List.mem_of_getElem? here, ?_⟩
    split <;> exact ⟨rfl, rfl⟩
  | connect r =>
    simp only [Net.move, Option.ite_none_right_eq_some, Option.some.injEq] at next
    obtain ⟨_, rfl⟩ := next
    exact closed r (some []) (by simp)
  | disconnect r =>
    cases next
    exact closed r none (by simp)
  | post i =>
    obtain ⟨p, at_, rfl⟩ := Option.map_eq_some_iff.mp next
    exact same (due_post distinct at_) rfl
  | withhold i =>
    cases next
    refine same (fun r e => ?_) rfl
    have less := countP_eraseIdx_le n.outbox i (fun p => p.1 ≠ r ∧ p.2 = e)
    simp only [Net.due]
    omega
  | arrive r i =>
    obtain ⟨queue, open_, moved⟩ := Option.bind_eq_some_iff.mp next
    obtain ⟨m, at_, rfl⟩ := Option.map_eq_some_iff.mp moved
    exact once_receive once open_ at_
  | lose r i =>
    obtain ⟨queue, open_, rfl⟩ := Option.map_eq_some_iff.mp next
    refine closed r _ (fun e => ?_)
    rw [open_]
    exact countP_eraseIdx_le queue i _

/-! New events -/

omit [DecidableEq O] [DecidableEq E] in
theorem unheard_deliver {r : R} {e x : E} (new : n.Unheard x) (other : e ≠ x) :
    (n.deliverLocal r e).Unheard x := by
  refine ⟨?_, new.outbox, new.sessions⟩
  intro tail member
  obtain ⟨old, before, _, heard⟩ := mem_deliver member
  have unheard := new.received old before
  rcases heard with heard | ⟨_, heard⟩
  · rwa [heard]
  · rw [heard]
    simp [unheard, Ne.symm other]

omit [DecidableEq O] [DecidableEq E] in
theorem unheard_emit {distributed : Bool} {r : R} {e x : E} (new : n.Unheard x) (other : e ≠ x) :
    (n.emit distributed r e).Unheard x := by
  have heard := unheard_deliver (r := r) new other
  refine ⟨heard.received, ?_, heard.sessions⟩
  intro p member
  cases distributed with
  | false => exact new.outbox p member
  | true =>
    rcases List.mem_append.mp member with old | left
    · exact new.outbox p old
    · rw [List.mem_singleton.mp left]
      exact other

omit [DecidableEq O] [DecidableEq E] in
theorem unheard_setSession {r : R} {session : Option (List (Message O E))} {x : E}
    (new : n.Unheard x) (none : ∀ queue, session = some queue → ∀ m ∈ queue, m.event ≠ x) :
    (n.setSession r session).Unheard x := by
  refine ⟨new.received, new.outbox, ?_⟩
  intro q queue open_
  simp only [setSession] at open_
  split at open_
  · exact none queue open_
  · exact new.sessions q queue open_

omit [DecidableEq E] in
theorem unheard_move {a : Move R} {x : E} (new : n.Unheard x)
    (next : n.move origin a = some n') : n'.Unheard x := by
  cases a with
  | attach r =>
    cases next
    refine ⟨?_, new.outbox, new.sessions⟩
    intro tail member
    rcases List.mem_append.mp member with old | first
    · exact new.received tail old
    · rw [List.mem_singleton.mp first]
      exact List.not_mem_nil
  | detach i =>
    cases next
    refine ⟨?_, new.outbox, new.sessions⟩
    intro tail member
    obtain ⟨j, at_⟩ := List.getElem?_of_mem member
    rw [List.getElem?_modify] at at_
    obtain ⟨old, here, rfl⟩ := Option.map_eq_some_iff.mp at_
    have unheard := new.received old (List.mem_of_getElem? here)
    split <;> exact unheard
  | connect r =>
    simp only [Net.move, Option.ite_none_right_eq_some, Option.some.injEq] at next
    obtain ⟨_, rfl⟩ := next
    exact unheard_setSession new (by rintro _ ⟨⟩; simp)
  | disconnect r =>
    cases next
    exact unheard_setSession new (by simp)
  | post i =>
    obtain ⟨p, at_, rfl⟩ := Option.map_eq_some_iff.mp next
    refine ⟨new.received, fun q member => new.outbox q (List.mem_of_mem_eraseIdx member), ?_⟩
    intro r queue open_ m member
    obtain ⟨before, held, rfl⟩ := Option.map_eq_some_iff.mp open_
    rcases List.mem_append.mp member with old | added
    · exact new.sessions r before held m old
    · rw [List.mem_singleton.mp added]
      exact new.outbox p (List.mem_of_getElem? at_)
  | withhold i =>
    cases next
    exact ⟨new.received, fun q member => new.outbox q (List.mem_of_mem_eraseIdx member),
      new.sessions⟩
  | arrive r i =>
    obtain ⟨queue, open_, moved⟩ := Option.bind_eq_some_iff.mp next
    obtain ⟨m, at_, rfl⟩ := Option.map_eq_some_iff.mp moved
    have less : (n.setSession r (some (queue.eraseIdx i))).Unheard x := by
      refine unheard_setSession new ?_
      rintro _ ⟨⟩ k member
      exact new.sessions r queue open_ k (List.mem_of_mem_eraseIdx member)
    unfold receive
    split
    · exact less
    · exact unheard_deliver less (new.sessions r queue open_ m (List.mem_of_getElem? at_))
  | lose r i =>
    obtain ⟨queue, open_, rfl⟩ := Option.map_eq_some_iff.mp next
    refine unheard_setSession new ?_
    rintro _ ⟨⟩ k member
    exact new.sessions r queue open_ k (List.mem_of_mem_eraseIdx member)

/-! What is heard stays heard -/

def Grows (n n' : Net R O E) : Prop :=
  ∀ (i : Nat) (tail : Tail R E), n.tails[i]? = some tail → ∃ later, n'.tails[i]? = some later ∧
    later.replica = tail.replica ∧ tail.received <+: later.received

omit [DecidableEq R] [DecidableEq O] [DecidableEq E] in
theorem Grows.refl (n : Net R O E) : Grows n n :=
  fun _ tail at_ => ⟨tail, at_, rfl, List.prefix_refl _⟩

omit [DecidableEq R] [DecidableEq O] [DecidableEq E] in
theorem Grows.trans {n n' n'' : Net R O E} (one : Grows n n') (two : Grows n' n'') :
    Grows n n'' := by
  intro i tail at_
  obtain ⟨next, at', same, more⟩ := one i tail at_
  obtain ⟨last, at'', same', more'⟩ := two i next at'
  exact ⟨last, at'', same'.trans same, more.trans more'⟩

omit [DecidableEq O] [DecidableEq E] in
theorem grows_deliver (r : R) (e : E) : Grows n (n.deliverLocal r e) := by
  intro i tail at_
  refine ⟨tail.hear r e, by simp [deliverLocal, at_], ?_⟩
  unfold Tail.hear
  split
  · exact ⟨rfl, List.prefix_append _ _⟩
  · exact ⟨rfl, List.prefix_refl _⟩

omit [DecidableEq E] in
theorem grows_move {a : Move R} (next : n.move origin a = some n') : Grows n n' := by
  cases a with
  | attach r =>
    cases next
    intro i tail at_
    exact ⟨tail, List.getElem?_append_left (List.getElem?_eq_some_iff.mp at_).1 ▸ at_, rfl,
      List.prefix_refl _⟩
  | detach i =>
    cases next
    intro j tail at_
    refine ⟨if i = j then { tail with attached := false } else tail, ?_, ?_⟩
    · simp [List.getElem?_modify, at_]
    · split <;> exact ⟨rfl, List.prefix_refl _⟩
  | connect r =>
    simp only [Net.move, Option.ite_none_right_eq_some, Option.some.injEq] at next
    obtain ⟨_, rfl⟩ := next
    exact Grows.refl n
  | disconnect r =>
    cases next
    exact Grows.refl n
  | post i =>
    obtain ⟨p, _, rfl⟩ := Option.map_eq_some_iff.mp next
    exact Grows.refl n
  | withhold i =>
    cases next
    exact Grows.refl n
  | arrive r i =>
    obtain ⟨queue, _, moved⟩ := Option.bind_eq_some_iff.mp next
    obtain ⟨m, _, rfl⟩ := Option.map_eq_some_iff.mp moved
    unfold receive
    split
    · exact Grows.refl n
    · exact grows_deliver (n := n) r m.event
  | lose r i =>
    obtain ⟨queue, _, rfl⟩ := Option.map_eq_some_iff.mp next
    exact Grows.refl n

end Net
end

end Fanout
