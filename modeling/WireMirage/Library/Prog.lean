import Mathlib.Data.List.Basic

/-!
Programs over a shared state as trees of atomic actions. One definition serves
both readings: `run` executes a program with nothing in between, and `step`
exposes it one action at a time, so that other programs may act between two
actions. A failed program keeps the effects of the actions it has taken.
-/
inductive Prog (State Err Result : Type) where
  | done (a : Result)
  | fail (e : Err)
  | act (effect : State → State) (next : State → Prog State Err Result)

namespace Prog
variable {State Err A B : Type}

def bind (p : Prog State Err A) (k : A → Prog State Err B) : Prog State Err B :=
  match p with
  | .done a => k a
  | .fail e => .fail e
  | .act effect next => .act effect (fun s => bind (next s) k)

instance : Monad (Prog State Err) where
  pure := .done
  bind := bind

/-- One indivisible action that reads the state, changes it and answers. -/
def atomic (f : State → Except Err A × State) : Prog State Err A :=
  .act (fun s => (f s).2) (fun s => match (f s).1 with
    | .ok a => .done a
    | .error e => .fail e)

def ofExcept (r : Except Err A) : Prog State Err A :=
  match r with
  | .ok a => .done a
  | .error e => .fail e

/-- The outcome of a program as a value, so that its caller can handle an error. -/
def attempt : Prog State Err A → Prog State Err (Except Err A)
  | .done a => .done (.ok a)
  | .fail e => .done (.error e)
  | .act effect next => .act effect (fun s => attempt (next s))

/-- The same for a caller whose own errors are of another kind. -/
def outcome {Err' : Type} : Prog State Err A → Prog State Err' (Except Err A)
  | .done a => .done (.ok a)
  | .fail e => .done (.error e)
  | .act effect next => .act effect (fun s => outcome (next s))

/-- A program whose errors are reported as another kind of error. -/
def mapError {Err' : Type} (f : Err → Err') : Prog State Err A → Prog State Err' A
  | .done a => .done a
  | .fail e => .fail (f e)
  | .act effect next => .act effect (fun s => mapError f (next s))

def run : Prog State Err A → State → Except Err A × State
  | .done a, s => (.ok a, s)
  | .fail e, s => (.error e, s)
  | .act effect next, s => run (next s) (effect s)

/-- One action of a running program; finished programs do not step. -/
def step : Prog State Err A → State → Option (Prog State Err A × State)
  | .done _, _ => none
  | .fail _, _ => none
  | .act effect next, s => some (next s, effect s)

/-- What a program that has finished answers. -/
def answer : Prog State Err A → Option (Except Err A)
  | .done a => some (.ok a)
  | .fail e => some (.error e)
  | .act _ _ => none

def Finished : Prog State Err A → Prop
  | .act _ _ => False
  | _ => True

/-- The outcome of a program that runs on without error is handed to the next. -/
def andThen (r : Except Err A × State) (k : A → State → Except Err B × State) :
    Except Err B × State :=
  match r with
  | (.ok a, s) => k a s
  | (.error e, s) => (.error e, s)

@[simp] theorem andThen_ok (a : A) (s : State) (k : A → State → Except Err B × State) :
    andThen (.ok a, s) k = k a s := rfl

@[simp] theorem andThen_error (e : Err) (s : State) (k : A → State → Except Err B × State) :
    andThen (.error e, s) k = (.error e, s) := rfl

theorem andThen_ok_iff {r : Except Err A × State} {k : A → State → Except Err B × State}
    {b : B} {u : State} :
    andThen r k = (.ok b, u) ↔ ∃ a t, r = (.ok a, t) ∧ k a t = (.ok b, u) := by
  rcases r with ⟨e | a, t⟩
  · simp
  · simp

@[simp] theorem run_pure (a : A) (s : State) :
    run (pure a : Prog State Err A) s = (.ok a, s) := rfl

@[simp] theorem run_done (a : A) (s : State) :
    run (.done a : Prog State Err A) s = (.ok a, s) := rfl

@[simp] theorem run_fail (e : Err) (s : State) :
    run (.fail e : Prog State Err A) s = (.error e, s) := rfl

@[simp] theorem run_ofExcept (r : Except Err A) (s : State) :
    run (ofExcept r) s = (r, s) := by
  cases r <;> rfl

@[simp] theorem run_atomic (f : State → Except Err A × State) (s : State) :
    run (atomic f) s = f s := by
  simp only [atomic, run]
  rcases f s with ⟨e | a, t⟩ <;> rfl

@[simp] theorem run_bind (p : Prog State Err A) (k : A → Prog State Err B) (s : State) :
    run (p >>= k) s = andThen (run p s) (fun a => run (k a)) := by
  show run (bind p k) s = _
  induction p generalizing s with
  | done a => rfl
  | fail e => rfl
  | act effect next ih => exact ih s (effect s)

@[simp] theorem run_map (p : Prog State Err A) (f : A → B) (s : State) :
    run (f <$> p) s = andThen (run p s) (fun a t => (.ok (f a), t)) :=
  run_bind p (fun a => pure (f a)) s

@[simp] theorem run_attempt (p : Prog State Err A) (s : State) :
    run (attempt p) s = (.ok (run p s).1, (run p s).2) := by
  induction p generalizing s with
  | done a => rfl
  | fail e => rfl
  | act effect next ih => exact ih s (effect s)

@[simp] theorem run_outcome {Err' : Type} (p : Prog State Err A) (s : State) :
    run (outcome p : Prog State Err' (Except Err A)) s = (.ok (run p s).1, (run p s).2) := by
  induction p generalizing s with
  | done a => rfl
  | fail e => rfl
  | act effect next ih => exact ih s (effect s)

@[simp] theorem run_mapError {Err' : Type} (f : Err → Err') (p : Prog State Err A) (s : State) :
    run (mapError f p) s = ((run p s).1.mapError f, (run p s).2) := by
  induction p generalizing s with
  | done a => rfl
  | fail e => rfl
  | act effect next ih => exact ih s (effect s)

@[simp] theorem run_ite (c : Prop) [Decidable c] (p q : Prog State Err A) (s : State) :
    run (if c then p else q) s = if c then run p s else run q s := by
  split <;> rfl

/-- How many actions a run takes. -/
def steps : Prog State Err A → State → Nat
  | .done _, _ => 0
  | .fail _, _ => 0
  | .act effect next, s => steps (next s) (effect s) + 1

@[simp] theorem steps_pure (a : A) (s : State) : steps (pure a : Prog State Err A) s = 0 := rfl

@[simp] theorem steps_fail (e : Err) (s : State) :
    steps (.fail e : Prog State Err A) s = 0 := rfl

@[simp] theorem steps_atomic (f : State → Except Err A × State) (s : State) :
    steps (atomic f) s = 1 := by
  simp only [atomic, steps]
  rcases f s with ⟨e | a, t⟩ <;> rfl

@[simp] theorem steps_bind (p : Prog State Err A) (k : A → Prog State Err B) (s : State) :
    steps (p >>= k) s = steps p s + match run p s with
      | (.ok a, t) => steps (k a) t
      | (.error _, _) => 0 := by
  show steps (bind p k) s = _
  induction p generalizing s with
  | done a => exact (Nat.zero_add _).symm
  | fail e => rfl
  | act effect next ih =>
    simp only [bind, steps, run, ih]
    omega

@[simp] theorem steps_map (p : Prog State Err A) (f : A → B) (s : State) :
    steps (f <$> p) s = steps p s := by
  show steps (p >>= fun a => pure (f a)) s = _
  rw [steps_bind]
  split <;> rfl

@[simp] theorem steps_attempt (p : Prog State Err A) (s : State) :
    steps (attempt p) s = steps p s := by
  induction p generalizing s with
  | done a => rfl
  | fail e => rfl
  | act effect next ih => exact congrArg (· + 1) (ih s (effect s))

/-- Every action taken from a state with the invariant keeps the invariant,
    whatever happened between the actions, provided that kept it too. -/
def Keeps (inv : State → Prop) : Prog State Err A → Prop
  | .act effect next => ∀ s, inv s → inv (effect s) ∧ Keeps inv (next s)
  | _ => True

theorem keeps_run {inv : State → Prop} (p : Prog State Err A) (keeps : Keeps inv p)
    (s : State) (hold : inv s) : inv (run p s).2 := by
  induction p generalizing s with
  | done a => exact hold
  | fail e => exact hold
  | act effect next ih =>
    have here := keeps s hold
    exact ih s here.2 (effect s) here.1

/-- A program run without interruption leaves the invariant as it found it. -/
def Maintains (inv : State → Prop) (p : Prog State Err A) : Prop :=
  ∀ s, inv s → inv (run p s).2

theorem maintains_of_keeps {inv : State → Prop} {p : Prog State Err A} (keeps : Keeps inv p) :
    Maintains inv p := keeps_run p keeps

theorem maintains_bind {inv : State → Prop} {p : Prog State Err A} {k : A → Prog State Err B}
    (first : Maintains inv p) (rest : ∀ a, Maintains inv (k a)) : Maintains inv (p >>= k) := by
  intro s hold
  have kept := first s hold
  rw [run_bind]
  rcases ran : run p s with ⟨e | a, t⟩
  · rw [ran] at kept
    exact kept
  · rw [ran] at kept
    exact rest a t kept

theorem maintains_attempt {inv : State → Prop} {p : Prog State Err A} (first : Maintains inv p) :
    Maintains inv (attempt p) := by
  intro s hold
  rw [run_attempt]
  exact first s hold

theorem keeps_step {inv : State → Prop} {p q : Prog State Err A} {s t : State}
    (keeps : Keeps inv p) (hold : inv s) (taken : step p s = some (q, t)) :
    inv t ∧ Keeps inv q := by
  cases p with
  | done a => simp [step] at taken
  | fail e => simp [step] at taken
  | act effect next =>
    simp only [step, Option.some.injEq, Prod.mk.injEq] at taken
    obtain ⟨rfl, rfl⟩ := taken
    exact keeps s hold

theorem keeps_bind {inv : State → Prop} (p : Prog State Err A) (k : A → Prog State Err B)
    (first : Keeps inv p) (rest : ∀ a, Keeps inv (k a)) : Keeps inv (p >>= k) := by
  show Keeps inv (bind p k)
  induction p with
  | done a => exact rest a
  | fail e => trivial
  | act effect next ih =>
    intro s hold
    exact ⟨(first s hold).1, ih s (first s hold).2⟩

theorem keeps_atomic {inv : State → Prop} (f : State → Except Err A × State)
    (keeps : ∀ s, inv s → inv (f s).2) : Keeps inv (atomic f) := by
  intro s hold
  refine ⟨keeps s hold, ?_⟩
  show Keeps inv (match (f s).1 with | .ok a => .done a | .error e => .fail e)
  cases (f s).1 <;> trivial

/-! Loops over a list -/

def forEach : List A → (A → Prog State Err Unit) → Prog State Err Unit
  | [], _ => pure ()
  | a :: rest, body => body a >>= fun _ => forEach rest body

def collect : List A → (A → Prog State Err B) → Prog State Err (List B)
  | [], _ => pure []
  | a :: rest, body => body a >>= fun b => collect rest body >>= fun bs => pure (b :: bs)

theorem maintains_collect {inv : State → Prop} (items : List A) {body : A → Prog State Err B}
    (each : ∀ a, Maintains inv (body a)) : Maintains inv (collect items body) := by
  induction items with
  | nil => exact fun s hold => hold
  | cons a rest ih =>
    exact maintains_bind (each a) (fun b => maintains_bind ih (fun bs s hold => hold))

/-- A loop whose body succeeds and changes the state by `change` folds `change`. -/
theorem run_forEach (inv : State → Prop) (change : A → State → State)
    (items : List A) (body : A → Prog State Err Unit)
    (each : ∀ a ∈ items, ∀ s, inv s → run (body a) s = (.ok (), change a s) ∧ inv (change a s))
    (s : State) (hold : inv s) :
    run (forEach items body) s = (.ok (), items.foldl (fun t a => change a t) s) ∧
      inv (items.foldl (fun t a => change a t) s) := by
  induction items generalizing s with
  | nil => exact ⟨rfl, hold⟩
  | cons a rest ih =>
    obtain ⟨first, kept⟩ := each a List.mem_cons_self s hold
    have later := ih (fun b member => each b (List.mem_cons_of_mem a member)) (change a s) kept
    simp only [forEach, run_bind, first, andThen_ok, List.foldl_cons]
    exact later

/-- A loop that only reads answers what reading item by item answers. -/
theorem run_collect (items : List A) (body : A → Prog State Err B) (s : State)
    (answer : A → Except Err B) (each : ∀ a ∈ items, run (body a) s = (answer a, s)) :
    run (collect items body) s = (items.mapM answer, s) := by
  induction items with
  | nil => rfl
  | cons a rest ih =>
    have later := ih (fun b member => each b (List.mem_cons_of_mem a member))
    simp only [collect, run_bind, each a List.mem_cons_self, List.mapM_cons]
    cases answer a with
    | error e => rfl
    | ok b =>
      simp only [andThen_ok, run_bind, later]
      cases List.mapM answer rest with
      | error e => rfl
      | ok bs => rfl

theorem keeps_forEach {inv : State → Prop} (items : List A) (body : A → Prog State Err Unit)
    (each : ∀ a ∈ items, Keeps inv (body a)) : Keeps inv (forEach items body) := by
  induction items with
  | nil => trivial
  | cons a rest ih =>
    apply keeps_bind
    · exact each a List.mem_cons_self
    · intro _
      exact ih (fun b member => each b (List.mem_cons_of_mem a member))

/-! Runs that succeed, under an invariant that each of their actions needs and keeps -/

def Leads (inv : State → Prop) (p : Prog State Err A) (s : State) (a : A) (t : State) : Prop :=
  inv s → run p s = (.ok a, t) ∧ inv t

namespace Leads
variable {inv : State → Prop} {p : Prog State Err A} {s t u : State} {a : A}

theorem pure : Leads inv (Pure.pure a : Prog State Err A) s a s := fun hold => ⟨rfl, hold⟩

theorem bind {k : A → Prog State Err B} {b : B} (first : Leads inv p s a t)
    (rest : Leads inv (k a) t b u) : Leads inv (p >>= k) s b u := by
  intro hold
  obtain ⟨ran, kept⟩ := first hold
  rw [run_bind, ran]
  exact rest kept

theorem forEach {change : A → State → State} {items : List A} {body : A → Prog State Err Unit}
    (each : ∀ a ∈ items, ∀ s, Leads inv (body a) s () (change a s)) :
    Leads inv (Prog.forEach items body) s () (items.foldl (fun t a => change a t) s) :=
  fun hold => run_forEach inv change items body (fun a member t held => each a member t held) s hold

theorem ends (leads : Leads inv p s a t) (same : t = u) : Leads inv p s a u := same ▸ leads

theorem run_eq (leads : Leads inv p s a t) (hold : inv s) : run p s = (.ok a, t) :=
  (leads hold).1

end Leads

/-! What every answer of a program is, whatever happens between its actions -/

def Yields (ok : A → Prop) : Prog State Err A → Prop
  | .done a => ok a
  | .fail _ => True
  | .act _ next => ∀ s, Yields ok (next s)

theorem yields_bind {ok : B → Prop} (p : Prog State Err A) (k : A → Prog State Err B)
    (rest : ∀ a, Yields ok (k a)) : Yields ok (p >>= k) := by
  show Yields ok (bind p k)
  induction p with
  | done a => exact rest a
  | fail e => trivial
  | act effect next ih => exact fun s => ih s

theorem yields_after {mid : A → Prop} {ok : B → Prop} {p : Prog State Err A}
    {k : A → Prog State Err B} (first : Yields mid p) (rest : ∀ a, mid a → Yields ok (k a)) :
    Yields ok (p >>= k) := by
  show Yields ok (bind p k)
  induction p with
  | done a => exact rest a first
  | fail e => trivial
  | act effect next ih => exact fun s => ih s (first s)

/-! The steps of a program whose answer nobody waits for -/

def settle : Prog State Err A → Prog State Err Unit
  | .done _ => .done ()
  | .fail _ => .done ()
  | .act effect next => .act effect (fun s => settle (next s))

/-- A program of one action. -/
def Single (p : Prog State Err A) : Prop :=
  ∃ effect next, p = .act effect next ∧ ∀ s, Finished (next s)

theorem single_atomic (f : State → Except Err A × State) : Single (atomic f) := by
  refine ⟨fun s => (f s).2, _, rfl, ?_⟩
  intro s
  cases (f s).1 <;> trivial

theorem single_bind {p : Prog State Err A} {k : A → Prog State Err B} (one : Single p)
    (rest : ∀ a, Finished (k a)) : Single (p >>= k) := by
  obtain ⟨effect, next, rfl, finished⟩ := one
  refine ⟨effect, fun s => bind (next s) k, rfl, ?_⟩
  intro s
  show Finished (bind (next s) k)
  have ends := finished s
  cases answer : next s with
  | done a => exact rest a
  | fail e => trivial
  | act effect' next' =>
    rw [answer] at ends
    exact ends.elim

theorem single_attempt {p : Prog State Err A} (one : Single p) : Single (attempt p) := by
  obtain ⟨effect, next, rfl, finished⟩ := one
  refine ⟨effect, fun s => attempt (next s), rfl, ?_⟩
  intro s
  show Finished (attempt (next s))
  have ends := finished s
  cases answer : next s with
  | done a => trivial
  | fail e => trivial
  | act effect' next' =>
    rw [answer] at ends
    exact ends.elim

/-- The first step of a program that opens with one action takes that action. -/
theorem step_settle_ok {p : Prog State Err A} (one : Single p) (k : A → Prog State Err B)
    {s t : State} {a : A} (ran : run p s = (.ok a, t)) :
    step (settle (p >>= k)) s = some (settle (k a), t) := by
  obtain ⟨effect, next, rfl, finished⟩ := one
  have ends := finished s
  show some (settle (bind (next s) k), effect s) = some (settle (k a), t)
  simp only [run] at ran
  cases answer : next s with
  | done b =>
    rw [answer] at ran
    cases ran
    rfl
  | fail e =>
    rw [answer] at ran
    cases ran
  | act effect' next' =>
    rw [answer] at ends
    exact ends.elim

theorem step_settle_error {p : Prog State Err A} (one : Single p) (k : A → Prog State Err B)
    {s t : State} {e : Err} (ran : run p s = (.error e, t)) :
    step (settle (p >>= k)) s = some (.done (), t) := by
  obtain ⟨effect, next, rfl, finished⟩ := one
  have ends := finished s
  show some (settle (bind (next s) k), effect s) = some (.done (), t)
  simp only [run] at ran
  cases answer : next s with
  | done b =>
    rw [answer] at ran
    cases ran
  | fail e =>
    rw [answer] at ran
    cases ran
    rfl
  | act effect' next' =>
    rw [answer] at ends
    exact ends.elim

theorem bind_pure (p : Prog State Err A) : (p >>= fun a => pure a) = p := by
  show bind p .done = p
  induction p with
  | done a => rfl
  | fail e => rfl
  | act effect next ih =>
    simp only [bind]
    congr 1
    funext s
    exact ih s

theorem step_settle {p : Prog State Err A} (one : Single p) (s : State) :
    step (settle p) s = some (.done (), (run p s).2) := by
  rw [← bind_pure p]
  cases ran : run p s with
  | mk r t =>
    rw [run_bind, ran]
    cases r with
    | ok a => exact step_settle_ok one _ ran
    | error e => exact step_settle_error one _ ran

theorem single_mapError {Err' : Type} (f : Err → Err') {p : Prog State Err A} (one : Single p) :
    Single (mapError f p) := by
  obtain ⟨effect, next, rfl, finished⟩ := one
  refine ⟨effect, fun s => mapError f (next s), rfl, ?_⟩
  intro s
  show Finished (mapError f (next s))
  have ends := finished s
  cases answer : next s with
  | done a => trivial
  | fail e => trivial
  | act effect' next' =>
    rw [answer] at ends
    exact ends.elim

/-- The same step of a program whose answer is awaited. -/
theorem step_bind_ok {p : Prog State Err A} (one : Single p) (k : A → Prog State Err B)
    {s t : State} {a : A} (ran : run p s = (.ok a, t)) : step (p >>= k) s = some (k a, t) := by
  obtain ⟨effect, next, rfl, finished⟩ := one
  have ends := finished s
  show some (bind (next s) k, effect s) = some (k a, t)
  simp only [run] at ran
  cases answer : next s with
  | done b =>
    rw [answer] at ran
    cases ran
    rfl
  | fail e =>
    rw [answer] at ran
    cases ran
  | act effect' next' =>
    rw [answer] at ends
    exact ends.elim

theorem step_bind_error {p : Prog State Err A} (one : Single p) (k : A → Prog State Err B)
    {s t : State} {e : Err} (ran : run p s = (.error e, t)) :
    step (p >>= k) s = some (.fail e, t) := by
  obtain ⟨effect, next, rfl, finished⟩ := one
  have ends := finished s
  show some (bind (next s) k, effect s) = some (.fail e, t)
  simp only [run] at ran
  cases answer : next s with
  | done b =>
    rw [answer] at ran
    cases ran
  | fail e =>
    rw [answer] at ran
    cases ran
    rfl
  | act effect' next' =>
    rw [answer] at ends
    exact ends.elim

/-- What settles alike after one program settles alike with it. -/
theorem settle_bind {C : Type} (p : Prog State Err A) {k : A → Prog State Err B}
    {j : A → Prog State Err C} (alike : ∀ a, settle (k a) = settle (j a)) :
    settle (p >>= k) = settle (p >>= j) := by
  show settle (bind p k) = settle (bind p j)
  induction p with
  | done a => exact alike a
  | fail e => rfl
  | act effect next ih =>
    simp only [bind, settle]
    congr 1
    funext s
    exact ih s

theorem bind_assoc (p : Prog State Err A) {C : Type} (k : A → Prog State Err B)
    (j : B → Prog State Err C) : (p >>= k) >>= j = p >>= fun a => k a >>= j := by
  show bind (bind p k) j = bind p (fun a => bind (k a) j)
  induction p with
  | done a => rfl
  | fail e => rfl
  | act effect next ih =>
    simp only [bind]
    congr 1
    funext s
    exact ih s

theorem settle_bind_pure (p : Prog State Err A) (f : A → B) :
    settle (p >>= fun a => pure (f a)) = settle p := by
  have alike : settle (p >>= fun a => pure (f a)) = settle (p >>= fun a => pure a) :=
    settle_bind p (fun _ => rfl)
  rw [alike, bind_pure]

theorem forEach_append (xs ys : List A) (body : A → Prog State Err Unit) :
    forEach (xs ++ ys) body = forEach xs body >>= fun _ => forEach ys body := by
  induction xs with
  | nil => rfl
  | cons a rest ih =>
    show (body a >>= fun _ => forEach (rest ++ ys) body) =
      (body a >>= fun _ => forEach rest body) >>= fun _ => forEach ys body
    rw [ih, bind_assoc]

theorem mapError_bind {Err' : Type} (f : Err → Err') (p : Prog State Err A)
    (k : A → Prog State Err B) :
    mapError f (p >>= k) = mapError f p >>= fun a => mapError f (k a) := by
  show mapError f (bind p k) = bind (mapError f p) (fun a => mapError f (k a))
  induction p with
  | done a => rfl
  | fail e => rfl
  | act effect next ih =>
    simp only [bind, mapError]
    congr 1
    funext s
    exact ih s

/-- Two indivisible actions that differ in their errors alone settle alike. -/
theorem settle_atomic_bind {f g : State → Except Err A × State} {k : A → Prog State Err B}
    (change : ∀ s, (f s).2 = (g s).2) (answer : ∀ s, (f s).1.toOption = (g s).1.toOption) :
    settle (atomic f >>= k) = settle (atomic g >>= k) := by
  show settle (bind (atomic f) k) = settle (bind (atomic g) k)
  simp only [atomic, bind, settle]
  congr 1
  · funext s
    exact change s
  · funext s
    have same := answer s
    cases one : (f s).1 with
    | error e =>
      cases two : (g s).1 with
      | error e' => rfl
      | ok b => simp [one, two, Except.toOption] at same
    | ok a =>
      cases two : (g s).1 with
      | error e' => simp [one, two, Except.toOption] at same
      | ok b =>
        simp only [one, two, Except.toOption, Option.some.injEq] at same
        rw [same]

theorem mapError_atomic {Err' : Type} (h : Err → Err') (f : State → Except Err A × State) :
    mapError h (atomic f) = atomic (fun s => ((f s).1.mapError h, (f s).2)) := by
  simp only [atomic, mapError]
  congr 1
  funext s
  cases (f s).1 <;> rfl

@[simp] theorem settle_pure_bind (a : A) (k : A → Prog State Err B) :
    settle (pure a >>= k) = settle (k a) := rfl

/-! What the answers of a program are, when an invariant is all that others keep -/

def Assures (inv : State → Prop) (post : A → Prop) : Prog State Err A → Prop
  | .done a => post a
  | .fail _ => True
  | .act effect next => ∀ s, inv s → inv (effect s) ∧ Assures inv post (next s)

theorem keeps_of_assures {inv : State → Prop} {post : A → Prop} {p : Prog State Err A}
    (assures : Assures inv post p) : Keeps inv p := by
  induction p with
  | done a => trivial
  | fail e => trivial
  | act effect next ih =>
    intro s hold
    exact ⟨(assures s hold).1, ih s (assures s hold).2⟩

theorem assures_of_keeps {inv : State → Prop} {p : Prog State Err A} (keeps : Keeps inv p) :
    Assures inv (fun _ => True) p := by
  induction p with
  | done a => trivial
  | fail e => trivial
  | act effect next ih =>
    intro s hold
    exact ⟨(keeps s hold).1, ih s (keeps s hold).2⟩

theorem assures_run {inv : State → Prop} {post : A → Prop} {p : Prog State Err A}
    (assures : Assures inv post p) {s : State} (hold : inv s) {a : A}
    (ran : (run p s).1 = .ok a) : post a := by
  induction p generalizing s with
  | done b =>
    cases ran
    exact assures
  | fail e => cases ran
  | act effect next ih => exact ih s (assures s hold).2 (assures s hold).1 ran

theorem assures_bind {inv : State → Prop} {mid : B → Prop} {post : A → Prop}
    {p : Prog State Err B} {k : B → Prog State Err A} (first : Assures inv mid p)
    (rest : ∀ b, mid b → Assures inv post (k b)) : Assures inv post (p >>= k) := by
  show Assures inv post (bind p k)
  induction p with
  | done b => exact rest b first
  | fail e => trivial
  | act effect next ih =>
    intro s hold
    exact ⟨(first s hold).1, ih s (first s hold).2⟩

theorem assures_weaken {inv : State → Prop} {post promise : A → Prop} {p : Prog State Err A}
    (assures : Assures inv post p) (implies : ∀ a, post a → promise a) :
    Assures inv promise p := by
  induction p with
  | done a => exact implies a assures
  | fail e => trivial
  | act effect next ih =>
    intro s hold
    exact ⟨(assures s hold).1, ih s (assures s hold).2⟩

/-- A program kept to the invariant by what its first part answers. -/
theorem keeps_after {inv : State → Prop} {mid : B → Prop} {p : Prog State Err B}
    {k : B → Prog State Err A} (first : Assures inv mid p) (rest : ∀ b, mid b → Keeps inv (k b)) :
    Keeps inv (p >>= k) :=
  keeps_of_assures (assures_bind first (fun b known => assures_of_keeps (rest b known)))

theorem assures_single {inv : State → Prop} {post : A → Prop} {p : Prog State Err A}
    (one : Single p) (runs : ∀ s, inv s → inv (run p s).2 ∧ ∀ a, (run p s).1 = .ok a → post a) :
    Assures inv post p := by
  obtain ⟨effect, next, rfl, finished⟩ := one
  intro s hold
  have here := runs s hold
  have ends := finished s
  simp only [run] at here
  cases answer : next s with
  | done a =>
    rw [answer] at here
    exact ⟨here.1, here.2 a rfl⟩
  | fail e =>
    rw [answer] at here
    exact ⟨here.1, trivial⟩
  | act effect' next' =>
    rw [answer] at ends
    exact ends.elim

theorem assures_collect {inv : State → Prop} {post : B → Prop} (items : List A)
    {body : A → Prog State Err B} (each : ∀ a, Assures inv post (body a)) :
    Assures inv (fun bs => ∀ b ∈ bs, post b) (collect items body) := by
  induction items with
  | nil =>
    intro b member
    cases member
  | cons a rest ih =>
    refine assures_bind (each a) (fun b here => assures_bind ih (fun bs later => ?_))
    intro c member
    rcases List.mem_cons.mp member with rfl | old
    · exact here
    · exact later c old

theorem keeps_settle {inv : State → Prop} {p : Prog State Err A} (keeps : Keeps inv p) :
    Keeps inv (settle p) := by
  induction p with
  | done a => trivial
  | fail e => trivial
  | act effect next ih =>
    intro s hold
    exact ⟨(keeps s hold).1, ih s (keeps s hold).2⟩

theorem keeps_outcome {inv : State → Prop} {Err' : Type} {p : Prog State Err A}
    (keeps : Keeps inv p) : Keeps inv (outcome p : Prog State Err' (Except Err A)) := by
  induction p with
  | done a => trivial
  | fail e => trivial
  | act effect next ih =>
    intro s hold
    exact ⟨(keeps s hold).1, ih s (keeps s hold).2⟩

theorem keeps_mapError {inv : State → Prop} {Err' : Type} (f : Err → Err') {p : Prog State Err A}
    (keeps : Keeps inv p) : Keeps inv (mapError f p) := by
  induction p with
  | done a => trivial
  | fail e => trivial
  | act effect next ih =>
    intro s hold
    exact ⟨(keeps s hold).1, ih s (keeps s hold).2⟩

theorem run_settle (p : Prog State Err A) (s : State) : (run (settle p) s).2 = (run p s).2 := by
  induction p generalizing s with
  | done a => rfl
  | fail e => rfl
  | act effect next ih => exact ih s (effect s)

end Prog
