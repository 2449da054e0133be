import WireMirage.Library.Pool
import WireMirage.Store.Leases
import WireMirage.Records

/-!
The throttle of failed logins of one address: a window and a lockout that are leases, and
the count of the failures in the window. Failures are recorded concurrently, one storage
step at a time.
-/
namespace WireMirage
open Prog StepMachine

instance : Deadline Val where
  read
    | .time t => some t
    | _ => none
  ofDeadline := .time
  reads := fun _ => rfl

inductive ThrottleKey where
  | fails (ip : String)
  | window (ip : String)
  | lock (ip : String)
  deriving DecidableEq, Repr

abbrev ThrottleStore := Storage ThrottleKey Val
abbrev ThrottleProg (A : Type) := Prog ThrottleStore (StoreError ThrottleKey) A

def windowSeconds : Nat := 60
def maxFails : Int := 5
def lockoutSeconds : Nat := 60

def isLockedOut (ip : String) : ThrottleProg Bool := do
  match ← attempt (Bucket.get (.lock ip)) with
  | .error _ => return false
  | .ok none => return false
  | .ok (some raw) => do
    let now ← Prog.atomic (fun s => (.ok s.clock, s))
    return (Deadline.read raw).any (now < ·)

section Recording
variable (ip : String)

def closeWindow (newlyLocked : Bool) : ThrottleProg Bool := do
  let _ ← attempt (Bucket.delete (.window ip))
  return newlyLocked

def clearCounters (newlyLocked : Bool) : ThrottleProg Bool := do
  let _ ← attempt (Bucket.delete (.fails ip))
  closeWindow ip newlyLocked

def tripLockout : ThrottleProg Bool := do
  let newlyLocked ← attempt (Bucket.tryAcquireLease (.lock ip) lockoutSeconds)
  clearCounters ip (newlyLocked.toOption.getD false)

def afterCount : Except (StoreError ThrottleKey) Int → ThrottleProg Bool
  | .error _ => return false
  | .ok fails => do
    let _ ← attempt (Bucket.setTtl (.fails ip) windowSeconds)
    if fails < maxFails then return false else tripLockout ip

def resetCount : ThrottleProg Int := do
  Bucket.set (.fails ip) (.int 1)
  return 1

/-- The failure that claims the window starts the count, the others add to it. -/
def recordFailure : ThrottleProg Bool := do
  let freshWindow ← attempt (Bucket.tryAcquireLease (.window ip) windowSeconds)
  let fails ← attempt (if freshWindow.toOption.getD false then resetCount ip
    else Bucket.incr (.fails ip) 1)
  afterCount ip fails

end Recording

/-! How far a call has come -/

inductive FailureTask where
  | claiming
  | resetting
  | counting
  | touching (fails : Int)
  | locking
  | clearing (newlyLocked : Bool)
  | closing (newlyLocked : Bool)
  | finished
  deriving DecidableEq, Repr

namespace FailureTask

def code (ip : String) : FailureTask → ThrottleProg Unit
  | claiming => settle (recordFailure ip)
  | resetting => settle (attempt (resetCount ip) >>= afterCount ip)
  | counting => settle (attempt (Bucket.incr (.fails ip) 1) >>= afterCount ip)
  | touching fails => settle (afterCount ip (.ok fails))
  | locking => settle (tripLockout ip)
  | clearing newlyLocked => settle (clearCounters ip newlyLocked)
  | closing newlyLocked => settle (closeWindow ip newlyLocked)
  | finished => .done ()

def counted : Except (StoreError ThrottleKey) Int → FailureTask
  | .ok fails => .touching fails
  | .error _ => .finished

def step (ip : String) : FailureTask → ThrottleStore → Option (FailureTask × ThrottleStore)
  | claiming, s =>
    let (acquired, t) := s.tryAcquireLease (.window ip) windowSeconds
    some (if acquired.toOption.getD false then .resetting else .counting, t)
  | resetting, s => some (.touching 1, s.put (.fails ip) (.int 1) none)
  | counting, s =>
    let (sum, t) := s.incr (.fails ip) 1
    some (counted sum, t)
  | touching fails, s =>
    some (if fails < maxFails then .finished else .locking,
      s.arm (.fails ip) (some (s.clock + windowSeconds)))
  | locking, s =>
    let (acquired, t) := s.tryAcquireLease (.lock ip) lockoutSeconds
    some (.clearing (acquired.toOption.getD false), t)
  | clearing newlyLocked, s => some (.closing newlyLocked, s.erase (.fails ip))
  | closing _, s => some (.finished, s.erase (.window ip))
  | finished, _ => none

end FailureTask

theorem attempt_command {A : Type} (f : ThrottleStore → Storage.Reply ThrottleKey Val A)
    (s : ThrottleStore) :
    run (attempt (Bucket.command f) : ThrottleProg _) s = (.ok (f s).1, (f s).2) := by
  rw [run_attempt, run_command]
  cases (f s).1 <;> rfl

/-- The positions follow the program step by step. -/
theorem failure_agree (ip : String) (t : FailureTask) (s : ThrottleStore) :
    Prog.step (t.code ip) s = (t.step ip s).map (fun b => (b.1.code ip, b.2)) := by
  have single : ∀ {A : Type} (f : ThrottleStore → Storage.Reply ThrottleKey Val A),
      Single (attempt (Bucket.command f) : ThrottleProg _) :=
    fun f => single_attempt (single_atomic _)
  cases t with
  | claiming =>
    refine (step_settle_ok (single _) _ (attempt_command _ s)).trans ?_
    simp only [FailureTask.step, Option.map_some]
    split <;> rfl
  | resetting =>
    have ran : run (attempt (resetCount ip)) s =
        (.ok (.ok 1), s.put (.fails ip) (.int 1) none) := by
      rw [run_attempt, resetCount, run_bind, run_set]
      rfl
    have one : Single (attempt (resetCount ip)) :=
      single_attempt (single_bind (single_atomic _) (fun _ => trivial))
    exact step_settle_ok one _ ran
  | counting =>
    refine (step_settle_ok (single _) _ (attempt_command _ s)).trans ?_
    simp only [FailureTask.step, Option.map_some]
    cases (s.incr (.fails ip) 1).1 <;> rfl
  | touching fails =>
    have ran : run (attempt (Bucket.setTtl (.fails ip) windowSeconds) : ThrottleProg _) s =
        (.ok (.ok ()), s.arm (.fails ip) (some (s.clock + windowSeconds))) := by
      rw [run_attempt, run_setTtl (by decide)]
    refine (step_settle_ok (single _) _ ran).trans ?_
    simp only [FailureTask.step, Option.map_some]
    split <;> rfl
  | locking => exact step_settle_ok (single _) _ (attempt_command _ s)
  | clearing newlyLocked => exact step_settle_ok (single _) _ (attempt_command _ s)
  | closing newlyLocked => exact step_settle_ok (single _) _ (attempt_command _ s)
  | finished => rfl

/-! Calls of one address, in one window -/

abbrev FailurePool := Pool ThrottleStore FailureTask Unit

def failureWork (ip : String) : Work ThrottleStore FailureTask Unit Unit Nat where
  begin _ _ := some (.claiming, ())
  step := FailureTask.step ip
  outside seconds s := s.advance seconds

/-- The failures counted in the window that is running. -/
structure Counts (s : ThrottleStore) (ip : String) (ends n : Nat) : Prop where
  value : s.lookup (.fails ip) = some (.bytes (.int n)) ∨ n = 0 ∧ s.lookup (.fails ip) = none
  armed : ∀ e, s.armed (.fails ip) = some e → ends ≤ e

/-- An address that is not locked out, with no window running or one that runs until a time. -/
structure Untripped (ip : String) (ends : Nat) (s : ThrottleStore) : Prop where
  lock : s.Free (.lock ip)
  before : s.clock < ends
  within : ends ≤ s.clock + windowSeconds
  window : s.Free (.window ip) ∨
    s.Held (.window ip) ends ∧ ∃ n, Counts s ip ends n ∧ (n : Int) < maxFails

def failures (ip : String) (ends : Nat) : Machine FailurePool (PoolAction Unit Nat) :=
  pool (failureWork ip) (fun s _ => Untripped ip ends s)

/-- Time stays within the window, and no failure is counted between the claim of the window
    and the start of its count. -/
def NoneBetween (ends : Nat) (p : FailurePool) : PoolAction Unit Nat → Prop
  | .launch _ => True
  | .resume i => p.tasks[i]? = some .counting → .resetting ∉ p.tasks
  | .outside seconds => p.shared.clock + seconds < ends

/-- Every run of the calls' programs is a run of their positions. -/
theorem failures_programs {ip : String} {starts : ThrottleStore → Unit → Prop} {p : FailurePool}
    {P Q : Pool ThrottleStore (ThrottleProg Unit) Unit}
    (path : Run (pool (programs (fun (_ : Unit) _ => some (settle (recordFailure ip), ()))
      (fun seconds s => Storage.advance seconds s)) starts) (fun _ _ => True) P Q)
    (first : P = ⟨p.shared, p.tasks.map (FailureTask.code ip), p.log⟩) :
    ∃ q : FailurePool, Q = ⟨q.shared, q.tasks.map (FailureTask.code ip), q.log⟩ ∧
      Run (pool (failureWork ip) starts) (fun _ _ => True) p q :=
  run_programs (FailureTask.code ip) (failure_agree ip) path first

section Throttle
variable {ip : String} {ends : Nat} {s s' : ThrottleStore}

omit ip ends s s' in
theorem incr_cases (s : ThrottleStore) (k : ThrottleKey) (delta : Int) :
    (s.incr k delta).2 = s ∨ ∃ v, (s.incr k delta).2 = s.write k v := by
  unfold Storage.incr
  cases s.lookup k with
  | none => exact .inr ⟨_, rfl⟩
  | some v =>
    cases v with
    | bytes b =>
      simp only [Storage.storeSum]
      split
      · exact .inl rfl
      · exact .inr ⟨_, rfl⟩
    | list q => exact .inl rfl
    | hash h => exact .inl rfl
    | set members => exact .inl rfl

/-- A call reaches for the lock in one position only. -/
theorem failure_frame {t u : FailureTask} (taken : t.step ip s = some (u, s')) :
    s'.clock = s.clock ∧ s'.backend = s.backend ∧
      (t ≠ .locking → s'.entry (.lock ip) = s.entry (.lock ip)) := by
  cases t with
  | claiming =>
    cases taken
    obtain ⟨clock, backend, others⟩ := Storage.lease_frame s (.window ip) windowSeconds
    exact ⟨clock, backend, fun _ => others _ (by simp)⟩
  | resetting =>
    cases taken
    exact ⟨rfl, rfl, fun _ => Storage.entry_replace_ne s (by simp) _ _⟩
  | counting =>
    simp only [FailureTask.step, Option.some.injEq, Prod.mk.injEq] at taken
    obtain ⟨_, rfl⟩ := taken
    rcases incr_cases s (.fails ip) 1 with same | ⟨v, written⟩
    · rw [same]
      exact ⟨rfl, rfl, fun _ => rfl⟩
    · rw [written]
      exact ⟨rfl, rfl, fun _ => Storage.entry_write_ne s (by simp) v⟩
  | touching fails =>
    cases taken
    exact ⟨Storage.clock_arm s _ _, Storage.backend_arm s _ _,
      fun _ => Storage.entry_arm_ne s (by simp) _⟩
  | locking =>
    cases taken
    obtain ⟨clock, backend, _⟩ := Storage.lease_frame s (.lock ip) lockoutSeconds
    exact ⟨clock, backend, fun other => absurd rfl other⟩
  | clearing newlyLocked =>
    cases taken
    exact ⟨rfl, rfl, fun _ => Storage.entry_erase_ne s (by simp)⟩
  | closing newlyLocked =>
    cases taken
    exact ⟨rfl, rfl, fun _ => Storage.entry_erase_ne s (by simp)⟩
  | finished => cases taken

/-- Whether a call has counted its failure. -/
def FailureTask.past : FailureTask → Bool
  | claiming => false
  | resetting => false
  | counting => false
  | _ => true

/-- How far the calls of a window have come together. -/
inductive Phase (ip : String) (ends : Nat) (s : ThrottleStore)
  (tasks : List FailureTask) : Prop where
  | opening (window : s.Free (.window ip)) (lock : s.Free (.lock ip))
      (idle : ∀ t ∈ tasks, t = .claiming)
  | starting (window : s.Held (.window ip) ends) (lock : s.Free (.lock ip)) (i : Nat)
      (opener : tasks[i]? = some .resetting)
      (others : ∀ (j : Nat) t, j ≠ i → tasks[j]? = some t → t = .claiming ∨ t = .counting)
  | counting (window : s.Held (.window ip) ends) (lock : s.Free (.lock ip)) (n : Nat)
      (counts : Counts s ip ends n) (below : (n : Int) < maxFails)
      (all : tasks.countP FailureTask.past ≤ n)
      (others : ∀ t ∈ tasks, t = .claiming ∨ t = .counting ∨ t = .finished ∨
        ∃ m, t = .touching m ∧ m < maxFails)
  | tripping (lock : s.Free (.lock ip)) (t : FailureTask) (one : t ∈ tasks)
      (trips : t = .locking ∨ ∃ m, t = .touching m ∧ maxFails ≤ m)
  | locked (lock : s.Held (.lock ip) ends)

structure Throttled (ip : String) (ends : Nat) (p : FailurePool) : Prop where
  before : p.shared.clock < ends
  within : ends ≤ p.shared.clock + windowSeconds
  phase : Phase ip ends p.shared p.tasks

/-- Counting a failure adds one to the count. -/
theorem counts_incr {n : Nat} (counts : Counts s ip ends n) (below : (n : Int) < maxFails) :
    ∃ t, s.incr (.fails ip) 1 = (.ok (n + 1), t) ∧ Counts t ip ends (n + 1) ∧
      ∀ k, k ≠ .fails ip → t.entry k = s.entry k := by
  have written : Counts (s.write (.fails ip) (.bytes (.int (n + 1)))) ip ends (n + 1) := by
    refine ⟨.inl ?_, ?_⟩
    · rw [Storage.lookup_write, if_pos rfl]
      rfl
    · rw [Storage.armed_write]
      exact counts.armed
  have others : ∀ k, k ≠ .fails ip →
      (s.write (.fails ip) (.bytes (.int (n + 1)))).entry k = s.entry k :=
    fun k other => Storage.entry_write_ne s other _
  refine ⟨_, ?_, written, others⟩
  rcases counts.value with found | ⟨rfl, absent⟩
  · have reads : s.readInt (.int n) = some (n : Int) := by
      unfold Storage.readInt
      cases s.backend <;> rfl
    have small : i64Min ≤ (n : Int) + 1 ∧ (n : Int) + 1 ≤ i64Max := by
      unfold maxFails at below
      unfold i64Min i64Max
      omega
    unfold Storage.incr
    rw [found]
    simp only [Storage.addInt, reads, if_pos small, Storage.storeSum]
    rfl
  · unfold Storage.incr
    rw [absent]
    rfl

theorem counts_arm {n : Nat} (counts : Counts s ip ends n)
    (within : ends ≤ s.clock + windowSeconds) :
    Counts (s.arm (.fails ip) (some (s.clock + windowSeconds))) ip ends n := by
  obtain ⟨value, armed⟩ := counts
  refine ⟨?_, ?_⟩
  · rw [Storage.lookup_arm]
    exact value
  · intro e deadline
    unfold Storage.arm at deadline
    split at deadline
    · simp only [Storage.armed, Storage.entry, Storage.replace, AList.lookup_insert,
        Option.bind_some, Option.some.injEq] at deadline
      omega
    · exact armed e deadline

theorem counts_advance {n : Nat} (counts : Counts s ip ends n) {seconds : Nat}
    (within : s.clock + seconds < ends) : Counts (s.advance seconds) ip ends n := by
  have kept := Storage.not_due counts.armed within
  refine ⟨?_, ?_⟩
  · rw [Storage.lookup_advance, kept, if_neg (by simp)]
    exact counts.value
  · rw [Storage.armed_advance, kept, if_neg (by simp)]
    exact counts.armed

/-! What each step does to the phase -/

variable {tasks : List FailureTask}

theorem phase_launch (phase : Phase ip ends s tasks) : Phase ip ends s (tasks ++ [.claiming]) := by
  cases phase with
  | opening window lock idle =>
    refine .opening window lock ?_
    intro t member
    rcases List.mem_append.mp member with old | new
    · exact idle t old
    · exact List.mem_singleton.mp new
  | starting window lock i opener others =>
    refine .starting window lock i ?_ ?_
    · rw [List.getElem?_append_left (List.getElem?_eq_some_iff.mp opener).1, opener]
    · intro j t other at_
      rcases at_launched at_ with ⟨_, rfl⟩ | old
      · exact .inl rfl
      · exact others j t other old
  | counting window lock n counts below all others =>
    refine .counting window lock n counts below ?_ ?_
    · simpa [List.countP_append, FailureTask.past] using all
    · intro t member
      rcases List.mem_append.mp member with old | new
      · exact others t old
      · exact .inl (List.mem_singleton.mp new)
  | tripping lock t one trips => exact .tripping lock t (List.mem_append_left _ one) trips
  | locked lock => exact .locked lock

theorem phase_advance (phase : Phase ip ends s tasks) {seconds : Nat}
    (within : s.clock + seconds < ends) : Phase ip ends (s.advance seconds) tasks := by
  cases phase with
  | opening window lock idle =>
    exact .opening (Storage.free_advance window seconds) (Storage.free_advance lock seconds) idle
  | starting window lock i opener others =>
    exact .starting (Storage.held_advance window within) (Storage.free_advance lock seconds) i
      opener others
  | counting window lock n counts below all others =>
    exact .counting (Storage.held_advance window within) (Storage.free_advance lock seconds) n
      (counts_advance counts within) below all others
  | tripping lock t one trips =>
    exact .tripping (Storage.free_advance lock seconds) t one trips
  | locked lock => exact .locked (Storage.held_advance lock within)

section Resume
variable {i : Nat} {t u : FailureTask} (found : tasks[i]? = some t)
  (taken : t.step ip s = some (u, s')) (before : s.clock < ends)
  (within : ends ≤ s.clock + windowSeconds)
include found taken

omit found in
/-- The lock stays free in all positions but one. -/
theorem free_lock (lock : s.Free (.lock ip)) (other : t ≠ .locking) : s'.Free (.lock ip) := by
  obtain ⟨clock, backend, entry⟩ := failure_frame taken
  exact Storage.free_of_entry lock (entry other) backend (Nat.le_of_eq clock.symm)

include within in
theorem resume_opening (window : s.Free (.window ip)) (lock : s.Free (.lock ip))
    (idle : ∀ t ∈ tasks, t = .claiming) : Phase ip ends s' (tasks.set i u) := by
  have first := idle t (List.mem_of_getElem? found)
  subst first
  have free := free_lock taken lock (by simp)
  obtain ⟨acquired, held⟩ := Storage.lease_free window windowSeconds within
  simp only [FailureTask.step, acquired, Option.some.injEq, Prod.mk.injEq] at taken
  obtain ⟨rfl, rfl⟩ := taken
  refine .starting held free i (List.getElem?_set_self (List.getElem?_eq_some_iff.mp found).1) ?_
  intro j v other at_
  rcases at_moved found at_ with ⟨here, _⟩ | ⟨_, old⟩
  · exact absurd here other
  · exact .inl (idle v (List.mem_of_getElem? old))

include before in
theorem resume_starting (ok : t = .counting → .resetting ∉ tasks)
    (window : s.Held (.window ip) ends) (lock : s.Free (.lock ip)) {k : Nat}
    (opener : tasks[k]? = some .resetting)
    (others : ∀ (j : Nat) t, j ≠ k → tasks[j]? = some t → t = .claiming ∨ t = .counting) :
    Phase ip ends s' (tasks.set i u) := by
  by_cases here : i = k
  · subst here
    rw [opener, Option.some.injEq] at found
    subst found
    simp only [FailureTask.step, Option.some.injEq, Prod.mk.injEq] at taken
    obtain ⟨rfl, rfl⟩ := taken
    obtain ⟨inside, at_⟩ := List.getElem?_eq_some_iff.mp opener
    have entry : ∀ k, k ≠ .fails ip →
        (s.put (.fails ip) (.int 1) none).entry k = s.entry k :=
      fun k other => Storage.entry_replace_ne s other _ _
    refine .counting (Storage.held_of_entry window (entry _ (by simp)))
      (Storage.free_of_entry lock (entry _ (by simp)) rfl (Nat.le_refl _)) 1 ⟨.inl ?_, ?_⟩
      (by decide) ?_ ?_
    · simp [Storage.put, Storage.lookup_replace]
    · simp
    · have none : tasks.countP FailureTask.past = 0 := by
        rw [List.countP_eq_zero]
        intro v member
        obtain ⟨j, held⟩ := List.mem_iff_getElem?.mp member
        by_cases same : j = i
        · rw [same, opener, Option.some.injEq] at held
          simp [← held, FailureTask.past]
        · rcases others j v same held with rfl | rfl <;> simp [FailureTask.past]
      rw [List.countP_set inside, none]
      simp [FailureTask.past]
    · intro v member
      rcases mem_moved opener member with rfl | ⟨_, j, away, held⟩
      · exact .inr (.inr (.inr ⟨1, rfl, by decide⟩))
      · rcases others j v away held with rfl | rfl
        · exact .inl rfl
        · exact .inr (.inl rfl)
  · rcases others i t here found with rfl | rfl
    · have refused := Storage.lease_held window before windowSeconds
      simp only [FailureTask.step, refused, Option.some.injEq, Prod.mk.injEq] at taken
      obtain ⟨rfl, rfl⟩ := taken
      refine .starting window lock k ?_ ?_
      · rw [List.getElem?_set_ne here, opener]
      · intro j v other at_
        rcases at_moved found at_ with ⟨_, rfl⟩ | ⟨_, old⟩
        · exact .inr rfl
        · exact others j v other old
    · exact absurd (List.mem_of_getElem? opener) (ok rfl)

include before within in
theorem resume_counting (window : s.Held (.window ip) ends) (lock : s.Free (.lock ip)) {n : Nat}
    (counts : Counts s ip ends n) (below : (n : Int) < maxFails)
    (all : tasks.countP FailureTask.past ≤ n)
    (others : ∀ t ∈ tasks, t = .claiming ∨ t = .counting ∨ t = .finished ∨
      ∃ m, t = .touching m ∧ m < maxFails) : Phase ip ends s' (tasks.set i u) := by
  obtain ⟨inside, at_⟩ := List.getElem?_eq_some_iff.mp found
  rcases others t (List.mem_of_getElem? found) with rfl | rfl | rfl | ⟨m, rfl, less⟩
  · have refused := Storage.lease_held window before windowSeconds
    simp only [FailureTask.step, refused, Option.some.injEq, Prod.mk.injEq] at taken
    obtain ⟨joined, rfl⟩ := taken
    have joins : u = .counting := joined.symm
    subst joins
    refine .counting window lock n counts below ?_ ?_
    · rw [List.countP_set inside]
      simpa [at_, FailureTask.past] using all
    · intro v member
      rcases mem_moved found member with rfl | ⟨old, _⟩
      · exact .inr (.inl rfl)
      · exact others v old
  · obtain ⟨t', sum, counts', entry⟩ := counts_incr counts below
    have free := free_lock taken lock (by simp)
    simp only [FailureTask.step, sum, FailureTask.counted, Option.some.injEq,
      Prod.mk.injEq] at taken
    obtain ⟨rfl, rfl⟩ := taken
    by_cases full : (n : Int) + 1 < maxFails
    · refine .counting (Storage.held_of_entry window (entry _ (by simp))) free (n + 1) counts'
        (by exact_mod_cast full) ?_ ?_
      · rw [List.countP_set inside]
        simp only [at_, FailureTask.past, Bool.false_eq_true, if_false, if_true]
        omega
      · intro v member
        rcases mem_moved found member with rfl | ⟨old, _⟩
        · exact .inr (.inr (.inr ⟨_, rfl, full⟩))
        · exact others v old
    · exact .tripping free _ (moved_mem found _) (.inr ⟨_, rfl, by omega⟩)
  · cases taken
  · have free := free_lock taken lock (by simp)
    simp only [FailureTask.step, if_pos less, Option.some.injEq, Prod.mk.injEq] at taken
    obtain ⟨rfl, rfl⟩ := taken
    refine .counting (Storage.held_of_entry window (Storage.entry_arm_ne s (by simp) _)) free n
      (counts_arm counts within) below ?_ ?_
    · have some_ := List.countP_pos_iff.mpr ⟨_, List.mem_of_getElem? found,
        (rfl : FailureTask.past (.touching m) = true)⟩
      rw [List.countP_set inside]
      simp only [at_, FailureTask.past, if_true]
      omega
    · intro v member
      rcases mem_moved found member with rfl | ⟨old, _⟩
      · exact .inr (.inr (.inl rfl))
      · exact others v old

include within in
theorem resume_tripping (lock : s.Free (.lock ip)) {v : FailureTask} (one : v ∈ tasks)
    (trips : v = .locking ∨ ∃ m, v = .touching m ∧ maxFails ≤ m) :
    Phase ip ends s' (tasks.set i u) := by
  by_cases locks : t = .locking
  · subst locks
    obtain ⟨_, held⟩ := Storage.lease_free lock lockoutSeconds within
    simp only [FailureTask.step, Option.some.injEq, Prod.mk.injEq] at taken
    obtain ⟨_, rfl⟩ := taken
    exact .locked held
  · have free := free_lock taken lock locks
    rcases mem_stays found one u with rfl | stays
    · rcases trips with rfl | ⟨m, rfl, full⟩
      · exact absurd rfl locks
      · simp only [FailureTask.step, Option.some.injEq, Prod.mk.injEq] at taken
        rw [if_neg (by omega)] at taken
        obtain ⟨rfl, _⟩ := taken
        exact .tripping free _ (moved_mem found _) (.inl rfl)
    · exact .tripping free v stays trips

omit found in
include before in
theorem resume_locked (lock : s.Held (.lock ip) ends) (tasks : List FailureTask) :
    Phase ip ends s' tasks := by
  by_cases locks : t = .locking
  · subst locks
    have refused := Storage.lease_held lock before lockoutSeconds
    simp only [FailureTask.step, refused, Option.some.injEq, Prod.mk.injEq] at taken
    obtain ⟨_, rfl⟩ := taken
    exact .locked lock
  · obtain ⟨_, _, entry⟩ := failure_frame taken
    exact .locked (Storage.held_of_entry lock (entry locks))

end Resume

theorem throttled_step {p q : FailurePool} {a : PoolAction Unit Nat}
    (throttled : Throttled ip ends p) (ok : NoneBetween ends p a)
    (next : (failures ip ends).step p a = some q) : Throttled ip ends q := by
  obtain ⟨before, within, phase⟩ := throttled
  rcases pool_cases next with ⟨r, t, l, rfl, begun, rfl⟩ | ⟨i, t, u, s, rfl, found, taken, rfl⟩ |
    ⟨seconds, rfl, rfl⟩
  · cases begun
    exact ⟨before, within, phase_launch phase⟩
  · obtain ⟨clock, _, _⟩ := failure_frame taken
    refine ⟨clock.symm ▸ before, clock.symm ▸ within, ?_⟩
    cases phase with
    | opening window lock idle => exact resume_opening found taken within window lock idle
    | starting window lock k opener others =>
      refine resume_starting found taken before ?_ window lock opener others
      rintro rfl
      exact ok found
    | counting window lock n counts below all others =>
      exact resume_counting found taken before within window lock counts below all others
    | tripping lock v one trips => exact resume_tripping found taken within lock one trips
    | locked lock => exact resume_locked taken before lock _
  · refine ⟨ok, ?_, phase_advance phase ok⟩
    simp only [failureWork, Storage.clock_advance]
    omega

theorem reached_throttled {p : FailurePool}
    (reached : Reached (failures ip ends) (NoneBetween ends) p) : Throttled ip ends p := by
  refine reached_invariant ?_ (fun _ _ _ hold ok next => throttled_step hold ok next) reached
  rintro p ⟨start, idle⟩
  refine ⟨start.before, start.within, ?_⟩
  rw [idle]
  rcases start.window with free | ⟨held, n, counts, below⟩
  · exact .opening free start.lock (by simp)
  · exact .counting held start.lock n counts below (by simp) (by simp)

theorem run_isLockedOut (held : s.Held (.lock ip) ends) (before : s.clock < ends) :
    (run (isLockedOut ip) s).1 = .ok true := by
  obtain ⟨⟨b, d, found, read, long⟩, _⟩ := held
  have got : s.get (.lock ip) = (.ok (some b), s) := by
    unfold Storage.get
    rw [found]
  unfold isLockedOut Bucket.get
  rw [run_bind, attempt_command, got, andThen_ok]
  simp only [run_bind, run_atomic, andThen_ok, run_pure, read, Option.any_some, Except.ok.injEq,
    decide_eq_true_eq]
  omega

/-- Once all of enough failures of one window have been recorded, the address is locked out. -/
theorem login_throttle_counts {p : FailurePool}
    (reached : Reached (failures ip ends) (NoneBetween ends) p)
    (enough : maxFails ≤ p.tasks.length) (all : ∀ t ∈ p.tasks, t = .finished) :
    (run (isLockedOut ip) p.shared).1 = .ok true := by
  obtain ⟨before, _, phase⟩ := reached_throttled reached
  cases phase with
  | opening window lock idle =>
    obtain ⟨t, one⟩ : ∃ t, t ∈ p.tasks := List.exists_mem_of_length_pos (by
      unfold maxFails at enough
      omega)
    have done := all t one
    rw [idle t one] at done
    cases done
  | starting window lock i opener others => cases all _ (List.mem_of_getElem? opener)
  | counting window lock n counts below past others =>
    have every : p.tasks.countP FailureTask.past = p.tasks.length := by
      rw [List.countP_eq_length]
      intro t one
      rw [all t one]
      rfl
    omega
  | tripping lock t one trips =>
    have done := all t one
    subst done
    rcases trips with trips | ⟨m, trips, _⟩ <;> cases trips
  | locked lock => exact run_isLockedOut lock before

end Throttle

instance (ends : Nat) (p : FailurePool) (a : PoolAction Unit Nat) :
    Decidable (NoneBetween ends p a) := by
  cases a <;> unfold NoneBetween <;> infer_instance

theorem untripped_empty (ip : String) (b : Backend) : Untripped ip 60 (Storage.empty b) :=
  ⟨.inl (by simp), Nat.zero_lt_succ 59, Nat.le_refl 60, .inl (.inl (by simp))⟩

namespace Sample

/-- One failure after the other. -/
def oneByOne : List (PoolAction Unit Nat) :=
  [.launch (), .resume 0, .resume 0, .resume 0, .launch (), .resume 1, .resume 1, .resume 1,
    .outside 10, .launch (), .resume 2, .resume 2, .resume 2, .launch (), .resume 3, .resume 3,
    .resume 3, .launch (), .resume 4, .resume 4, .resume 4, .resume 4, .resume 4, .resume 4]

/-- The first claims the window, and the others count before it starts the count. -/
def allAtOnce : List (PoolAction Unit Nat) :=
  [.launch (), .launch (), .launch (), .launch (), .launch (), .resume 0, .resume 1, .resume 2,
    .resume 3, .resume 4, .resume 1, .resume 2, .resume 3, .resume 4, .resume 0, .resume 0,
    .resume 1, .resume 2, .resume 3, .resume 4]

end Sample

theorem login_throttle_counts_five : ∃ p : FailurePool,
    Reached (failures "10.0.0.1" 60) (NoneBetween 60) p ∧ maxFails ≤ p.tasks.length ∧
      (run (isLockedOut "10.0.0.1") p.shared).1 = .ok true := by
  have ran : ((exec (guarded (failures "10.0.0.1" 60) (fun p a => NoneBetween 60 p a))
      ⟨Storage.empty .inMemory, [], ()⟩ Sample.oneByOne).map (fun p => p.tasks)) =
      some [.finished, .finished, .finished, .finished, .finished] := by decide +kernel
  obtain ⟨p, done, tasks⟩ := Option.map_eq_some_iff.mp ran
  have reached : Reached (failures "10.0.0.1" 60) (NoneBetween 60) p :=
    reached_mono (fun _ _ ok => of_decide_eq_true ok)
      (reached_of_guarded Sample.oneByOne ⟨untripped_empty _ .inMemory, rfl⟩ done)
  have enough : maxFails ≤ p.tasks.length := by rw [tasks]; decide
  exact ⟨p, reached, enough, login_throttle_counts reached enough (by rw [tasks]; simp)⟩

/-- Five failures at once are recorded, and the address is not locked out. -/
theorem failures_at_once_lost : ∃ p : FailurePool,
    Reached (failures "10.0.0.1" 60) (fun _ _ => True) p ∧ maxFails ≤ p.tasks.length ∧
      (∀ t ∈ p.tasks, t = .finished) ∧ p.shared.clock = 0 ∧
      (run (isLockedOut "10.0.0.1") p.shared).1 = .ok false := by
  have ran : ((exec (failures "10.0.0.1" 60) ⟨Storage.empty .valkey, [], ()⟩
      Sample.allAtOnce).map (fun p => (p.tasks, p.shared.clock,
        (run (isLockedOut "10.0.0.1") p.shared).1))) =
      some ([.finished, .finished, .finished, .finished, .finished], 0, .ok false) := by
    decide +kernel
  obtain ⟨p, done, answers⟩ := Option.map_eq_some_iff.mp ran
  simp only [Prod.mk.injEq] at answers
  obtain ⟨tasks, clock, open_⟩ := answers
  exact ⟨p, reached_of_exec Sample.allAtOnce ⟨untripped_empty _ .valkey, rfl⟩ done,
    by rw [tasks]; decide, by rw [tasks]; simp, clock, open_⟩

end WireMirage
