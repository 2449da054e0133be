import Mathlib.Data.List.Basic

/-!
Machines given by a partial step function, and what holds along their runs.
A side condition on the steps of a run is a parameter: `fun _ _ => True` gives
every run, and any other condition gives exactly the runs that keep to it.
-/
namespace StepMachine

structure Machine (State Action : Type) where
  start : State → Prop
  step : State → Action → Option State

variable {State Action : Type}

/-- A run from one state to another, every step of which meets the side condition
    in the state it is taken from. -/
inductive Run (m : Machine State Action) (allow : State → Action → Prop) : State →
  State → Prop where
  | refl (s : State) : Run m allow s s
  | tail {s t u : State} {a : Action} (path : Run m allow s t) (ok : allow t a)
      (next : m.step t a = some u) : Run m allow s u

def Reached (m : Machine State Action) (allow : State → Action → Prop) (s : State) : Prop :=
  ∃ s₀, m.start s₀ ∧ Run m allow s₀ s

def exec (m : Machine State Action) : State → List Action → Option State
  | s, [] => some s
  | s, a :: as => (m.step s a).bind (fun t => exec m t as)

theorem run_invariant {m : Machine State Action} {allow : State → Action → Prop}
    {inv : State → Prop}
    (preserved : ∀ s a t, inv s → allow s a → m.step s a = some t → inv t)
    {s t : State} (path : Run m allow s t) (hold : inv s) : inv t := by
  induction path with
  | refl => exact hold
  | tail path ok next ih => exact preserved _ _ _ ih ok next

theorem reached_invariant {m : Machine State Action} {allow : State → Action → Prop}
    {inv : State → Prop} (base : ∀ s, m.start s → inv s)
    (preserved : ∀ s a t, inv s → allow s a → m.step s a = some t → inv t)
    {s : State} (reached : Reached m allow s) : inv s := by
  obtain ⟨s₀, first, path⟩ := reached
  exact run_invariant preserved path (base s₀ first)

theorem reached_start {m : Machine State Action} {allow : State → Action → Prop} {s : State}
    (first : m.start s) : Reached m allow s :=
  ⟨s, first, .refl s⟩

theorem reached_step {m : Machine State Action} {allow : State → Action → Prop} {s t : State}
    {a : Action} (reached : Reached m allow s) (ok : allow s a) (next : m.step s a = some t) :
    Reached m allow t := by
  obtain ⟨s₀, first, path⟩ := reached
  exact ⟨s₀, first, .tail path ok next⟩

/-- Runs under a stronger side condition are runs under a weaker one. -/
theorem run_mono {m : Machine State Action} {allow wider : State → Action → Prop}
    (weaken : ∀ s a, allow s a → wider s a) {s t : State} (path : Run m allow s t) :
    Run m wider s t := by
  induction path with
  | refl => exact .refl _
  | tail path ok next ih => exact .tail ih (weaken _ _ ok) next

theorem run_trans {m : Machine State Action} {allow : State → Action → Prop} {s t u : State}
    (first : Run m allow s t) (second : Run m allow t u) : Run m allow s u := by
  induction second with
  | refl => exact first
  | tail _ allowed next ih => exact .tail ih allowed next

theorem reached_mono {m : Machine State Action} {allow wider : State → Action → Prop}
    (weaken : ∀ s a, allow s a → wider s a) {s : State} (reached : Reached m allow s) :
    Reached m wider s := by
  obtain ⟨s₀, first, path⟩ := reached
  exact ⟨s₀, first, run_mono weaken path⟩

/-- A run that the machine executes from a list of actions is a run of the relation. -/
theorem run_of_exec {m : Machine State Action} {s t : State} (as : List Action)
    (done : exec m s as = some t) : Run m (fun _ _ => True) s t := by
  have extend : ∀ (bs : List Action) (u : State), Run m (fun _ _ => True) s u →
      exec m u bs = some t → Run m (fun _ _ => True) s t := by
    intro bs
    induction bs with
    | nil =>
      intro u path done
      cases done
      exact path
    | cons b bs ih =>
      intro u path done
      obtain ⟨v, next, rest⟩ := Option.bind_eq_some_iff.mp done
      exact ih v (.tail path trivial next) rest
  exact extend as s (.refl s) done

theorem reached_of_exec {m : Machine State Action} {s t : State} (as : List Action)
    (first : m.start s) (done : exec m s as = some t) : Reached m (fun _ _ => True) t :=
  ⟨s, first, run_of_exec as done⟩

/-! Runs with the actions they take -/

inductive Traced (m : Machine State Action) : State → List Action → State → Prop where
  | refl (s : State) : Traced m s [] s
  | tail {s t u : State} {as : List Action} {a : Action} (path : Traced m s as t)
      (next : m.step t a = some u) : Traced m s (as ++ [a]) u

/-- What the actions so far and the state have in common holds along a run. -/
theorem traced_invariant {m : Machine State Action} {inv : List Action → State → Prop} {s : State}
    (base : inv [] s)
    (preserved : ∀ as t a u, inv as t → m.step t a = some u → inv (as ++ [a]) u)
    {as : List Action} {t : State} (path : Traced m s as t) : inv as t := by
  induction path with
  | refl => exact base
  | tail path next ih => exact preserved _ _ _ _ ih next

theorem traced_split {m : Machine State Action} {s u : State} {as bs : List Action}
    (path : Traced m s (as ++ bs) u) : ∃ t, Traced m s as t ∧ Traced m t bs u := by
  generalize whole : as ++ bs = cs at path
  induction path generalizing bs with
  | refl =>
    obtain ⟨rfl, rfl⟩ := List.append_eq_nil_iff.mp whole
    exact ⟨s, .refl s, .refl s⟩
  | @tail t u cs c path next ih =>
    rcases List.eq_nil_or_concat bs with rfl | ⟨bs, b, rfl⟩
    · rw [List.append_nil] at whole
      exact ⟨u, whole ▸ .tail path next, .refl u⟩
    · rw [List.concat_eq_append, ← List.append_assoc] at whole
      obtain ⟨front, last⟩ := List.append_inj' whole rfl
      obtain ⟨mid, early, late⟩ := ih front
      rw [List.concat_eq_append]
      obtain rfl := (List.cons.inj last).1
      exact ⟨mid, early, .tail late next⟩

theorem traced_of_exec {m : Machine State Action} {s t : State} {as : List Action}
    (done : exec m s as = some t) : Traced m s as t := by
  have extend : ∀ (cs bs : List Action) (u : State), Traced m s cs u → exec m u bs = some t →
      Traced m s (cs ++ bs) t := by
    intro cs bs
    induction bs generalizing cs with
    | nil =>
      intro u path done
      cases done
      rw [List.append_nil]
      exact path
    | cons b bs ih =>
      intro u path done
      obtain ⟨v, next, rest⟩ := Option.bind_eq_some_iff.mp done
      have longer := ih (cs ++ [b]) v (.tail path next) rest
      rw [List.append_assoc] at longer
      exact longer
  exact extend [] as s (.refl s) done

/-- A machine that also refuses the steps a check fails on. -/
def guarded (m : Machine State Action) (check : State → Action → Bool) : Machine State Action where
  start := m.start
  step s a := if check s a then m.step s a else none

/-- A list of actions that the guarded machine executes is a run whose steps pass the check. -/
theorem run_of_guarded {m : Machine State Action} {check : State → Action → Bool} {s t : State}
    (as : List Action) (done : exec (guarded m check) s as = some t) :
    Run m (fun s a => check s a) s t := by
  have path := run_of_exec (m := guarded m check) as done
  clear done
  induction path with
  | refl => exact .refl _
  | tail path _ next ih =>
    simp only [guarded, Option.ite_none_right_eq_some] at next
    exact .tail ih next.1 next.2

theorem reached_of_guarded {m : Machine State Action} {check : State → Action → Bool}
    {s t : State} (as : List Action) (first : m.start s)
    (done : exec (guarded m check) s as = some t) : Reached m (fun s a => check s a) t :=
  ⟨s, first, run_of_guarded as done⟩

end StepMachine
