import WireMirage.Library.StepMachine
import WireMirage.Library.Prog

/-!
Any number of tasks over one shared state, one step of one task at a time, with
changes from outside in between. A log that only the launching of a task extends
is kept beside the shared state.
-/
namespace StepMachine

structure Pool (Shared Task Log : Type) where
  shared : Shared
  tasks : List Task
  log : Log

/-- What the tasks of a pool are: how a request becomes one, what one step of it does,
    and what the outside may do meanwhile. -/
structure Work (Shared Task Log Request Outside : Type) where
  begin : Request → Log → Option (Task × Log)
  step : Task → Shared → Option (Task × Shared)
  outside : Outside → Shared → Shared

inductive PoolAction (Request Outside : Type) where
  | launch (r : Request)
  | resume (i : Nat)
  | outside (o : Outside)

variable {Shared Task Log Request Outside : Type}

def pool (w : Work Shared Task Log Request Outside) (starts : Shared → Log → Prop) :
    Machine (Pool Shared Task Log) (PoolAction Request Outside) where
  start p := starts p.shared p.log ∧ p.tasks = []
  step p
    | .launch r => (w.begin r p.log).map (fun b => ⟨p.shared, p.tasks ++ [b.1], b.2⟩)
    | .resume i => p.tasks[i]?.bind (fun t =>
        (w.step t p.shared).map (fun b => ⟨b.2, p.tasks.set i b.1, p.log⟩))
    | .outside o => some { p with shared := w.outside o p.shared }

/-- Everything one step of a pool can be. -/
theorem pool_cases {w : Work Shared Task Log Request Outside} {starts : Shared → Log → Prop}
    {p q : Pool Shared Task Log} {a : PoolAction Request Outside}
    (next : (pool w starts).step p a = some q) :
    (∃ r t l, a = .launch r ∧ w.begin r p.log = some (t, l) ∧
      q = ⟨p.shared, p.tasks ++ [t], l⟩) ∨
    (∃ i t u s, a = .resume i ∧ p.tasks[i]? = some t ∧ w.step t p.shared = some (u, s) ∧
      q = ⟨s, p.tasks.set i u, p.log⟩) ∨
    (∃ o, a = .outside o ∧ q = { p with shared := w.outside o p.shared }) := by
  cases a with
  | launch r =>
    simp only [pool, Option.map_eq_some_iff] at next
    obtain ⟨⟨t, l⟩, begun, rfl⟩ := next
    exact .inl ⟨r, t, l, rfl, begun, rfl⟩
  | resume i =>
    simp only [pool, Option.bind_eq_some_iff, Option.map_eq_some_iff] at next
    obtain ⟨t, found, ⟨u, s⟩, taken, rfl⟩ := next
    exact .inr (.inl ⟨i, t, u, s, rfl, found, taken, rfl⟩)
  | outside o =>
    simp only [pool, Option.some.injEq] at next
    exact .inr (.inr ⟨o, rfl, next.symm⟩)

/-! Members of a list of tasks of which one has moved -/

theorem mem_moved {tasks : List Task} {i : Nat} {t u v : Task} (found : tasks[i]? = some t)
    (member : v ∈ tasks.set i u) : v = u ∨ v ∈ tasks ∧ ∃ j, j ≠ i ∧ tasks[j]? = some v := by
  obtain ⟨j, at_⟩ := List.mem_iff_getElem?.mp member
  rw [List.getElem?_set] at at_
  by_cases same : i = j
  · subst same
    obtain ⟨within, _⟩ := List.getElem?_eq_some_iff.mp found
    simp only [if_true, within, Option.some.injEq] at at_
    exact .inl at_.symm
  · rw [if_neg same] at at_
    exact .inr ⟨List.mem_of_getElem? at_, j, fun back => same back.symm, at_⟩

theorem moved_mem {tasks : List Task} {i : Nat} {t : Task} (found : tasks[i]? = some t)
    (u : Task) : u ∈ tasks.set i u := by
  obtain ⟨within, _⟩ := List.getElem?_eq_some_iff.mp found
  exact List.mem_set within u

/-- A task other than the one that moves stays. -/
theorem mem_stays {tasks : List Task} {i : Nat} {t v : Task} (found : tasks[i]? = some t)
    (member : v ∈ tasks) (u : Task) : v = t ∨ v ∈ tasks.set i u := by
  obtain ⟨j, at_⟩ := List.mem_iff_getElem?.mp member
  by_cases same : i = j
  · subst same
    rw [found, Option.some.injEq] at at_
    exact .inl at_.symm
  · refine .inr (List.mem_iff_getElem?.mpr ⟨j, ?_⟩)
    rw [List.getElem?_set_ne same, at_]

/-! The tasks of a pool by their places -/

theorem at_moved {tasks : List Task} {i j : Nat} {t u v : Task} (found : tasks[i]? = some t)
    (at_ : (tasks.set i u)[j]? = some v) : (j = i ∧ v = u) ∨ (j ≠ i ∧ tasks[j]? = some v) := by
  by_cases same : i = j
  · subst same
    obtain ⟨within, _⟩ := List.getElem?_eq_some_iff.mp found
    rw [List.getElem?_set_self within, Option.some.injEq] at at_
    exact .inl ⟨rfl, at_.symm⟩
  · rw [List.getElem?_set_ne same] at at_
    exact .inr ⟨fun back => same back.symm, at_⟩

theorem at_launched {tasks : List Task} {j : Nat} {t v : Task}
    (at_ : (tasks ++ [t])[j]? = some v) : (j = tasks.length ∧ v = t) ∨ tasks[j]? = some v := by
  by_cases within : j < tasks.length
  · rw [List.getElem?_append_left within] at at_
    exact .inr at_
  · obtain ⟨bound, _⟩ := List.getElem?_eq_some_iff.mp at_
    rw [List.length_append, List.length_singleton] at bound
    have last : j = tasks.length := by omega
    subst last
    rw [List.getElem?_concat_length, Option.some.injEq] at at_
    exact .inl ⟨rfl, at_.symm⟩

/-! Tasks that are programs -/

/-- Programs whose answers nobody waits for. -/
def programs {Err : Type} (begin : Request → Log → Option (Prog Shared Err Unit × Log))
    (outside : Outside → Shared → Shared) :
    Work Shared (Prog Shared Err Unit) Log Request Outside where
  begin := begin
  step := Prog.step
  outside := outside

/-- Invariants of a family each of which holds as long as the log has not used up its name. -/
theorem programs_keep_while {Err Name : Type}
    {begin : Request → Log → Option (Prog Shared Err Unit × Log)}
    {outside : Outside → Shared → Shared} {starts : Shared → Log → Prop}
    (unused : Name → Log → Prop) (inv : Name → Shared → Prop)
    (begins : ∀ x r l t l', begin r l = some (t, l') → unused x l' →
      unused x l ∧ Prog.Keeps (inv x) t)
    (outsides : ∀ x o s, inv x s → inv x (outside o s))
    {p q : Pool Shared (Prog Shared Err Unit) Log} {a : PoolAction Request Outside}
    (hold : ∀ x, unused x p.log → inv x p.shared ∧ ∀ t ∈ p.tasks, Prog.Keeps (inv x) t)
    (next : (pool (programs begin outside) starts).step p a = some q) :
    ∀ x, unused x q.log → inv x q.shared ∧ ∀ t ∈ q.tasks, Prog.Keeps (inv x) t := by
  intro x free
  rcases pool_cases next with ⟨r, t, l, rfl, begun, rfl⟩ | ⟨i, t, u, s, rfl, found, taken, rfl⟩ |
    ⟨o, rfl, rfl⟩
  · obtain ⟨before, keeps⟩ := begins x r p.log t l begun free
    obtain ⟨holds, others⟩ := hold x before
    refine ⟨holds, ?_⟩
    intro v member
    rcases List.mem_append.mp member with old | new
    · exact others v old
    · rw [List.mem_singleton.mp new]
      exact keeps
  · obtain ⟨holds, keeps⟩ := hold x free
    obtain ⟨after, rest⟩ := Prog.keeps_step (keeps t (List.mem_of_getElem? found)) holds taken
    refine ⟨after, ?_⟩
    intro v member
    rcases mem_moved found member with rfl | ⟨old, _⟩
    · exact rest
    · exact keeps v old
  · obtain ⟨holds, keeps⟩ := hold x free
    exact ⟨outsides x o _ holds, keeps⟩

/-- What every program that is launched keeps, a pool of them keeps. -/
theorem programs_keep {Err : Type} {begin : Request → Log → Option (Prog Shared Err Unit × Log)}
    {outside : Outside → Shared → Shared} {starts : Shared → Log → Prop} {inv : Shared → Prop}
    (begins : ∀ r l t l', begin r l = some (t, l') → Prog.Keeps inv t)
    (outsides : ∀ o s, inv s → inv (outside o s))
    {p q : Pool Shared (Prog Shared Err Unit) Log} {a : PoolAction Request Outside}
    (hold : inv p.shared ∧ ∀ t ∈ p.tasks, Prog.Keeps inv t)
    (next : (pool (programs begin outside) starts).step p a = some q) :
    inv q.shared ∧ ∀ t ∈ q.tasks, Prog.Keeps inv t :=
  programs_keep_while (fun (_ : Unit) _ => True) (fun _ => inv)
    (fun _ r l t l' begun _ => ⟨trivial, begins r l t l' begun⟩) (fun _ => outsides)
    (fun _ _ => hold) next () trivial

/-- Tasks given by their positions cover every run of the programs they are positions of. -/
theorem run_programs {Err : Type} {w : Work Shared Task Log Request Outside}
    {starts : Shared → Log → Prop} (code : Task → Prog Shared Err Unit)
    (agree : ∀ t s, Prog.step (code t) s = (w.step t s).map (fun b => (code b.1, b.2)))
    {p : Pool Shared Task Log} {P Q : Pool Shared (Prog Shared Err Unit) Log}
    (path : Run (pool (programs (fun r l => (w.begin r l).map (fun b => (code b.1, b.2)))
      w.outside) starts) (fun _ _ => True) P Q)
    (first : P = ⟨p.shared, p.tasks.map code, p.log⟩) :
    ∃ q : Pool Shared Task Log, Q = ⟨q.shared, q.tasks.map code, q.log⟩ ∧
      Run (pool w starts) (fun _ _ => True) p q := by
  induction path with
  | refl => exact ⟨p, first, .refl p⟩
  | @tail s t a path _ next ih =>
    obtain ⟨q, rfl, reached⟩ := ih
    rcases pool_cases next with ⟨r, c, l, rfl, begun, rfl⟩ |
      ⟨i, c, d, s, rfl, found, taken, rfl⟩ | ⟨o, rfl, rfl⟩
    · simp only [programs, Option.map_eq_some_iff, Prod.mk.injEq] at begun
      obtain ⟨b, begun, rfl, rfl⟩ := begun
      refine ⟨⟨q.shared, q.tasks ++ [b.1], b.2⟩, by simp, .tail (a := .launch r) reached trivial ?_⟩
      simp [pool, begun]
    · simp only [List.getElem?_map, Option.map_eq_some_iff] at found
      obtain ⟨v, found, rfl⟩ := found
      simp only [programs, agree, Option.map_eq_some_iff, Prod.mk.injEq] at taken
      obtain ⟨b, taken, rfl, rfl⟩ := taken
      refine ⟨⟨b.2, q.tasks.set i b.1, q.log⟩, by simp [List.map_set],
        .tail (a := .resume i) reached trivial ?_⟩
      simp [pool, found, taken]
    · refine ⟨{ q with shared := w.outside o q.shared }, rfl,
        .tail (a := .outside o) reached trivial ?_⟩
      simp [pool]

end StepMachine
