import WireMirage.Library.Pool

/-!
Programs among others. A program is safe from a state when, whatever the others do
between its actions within what it relies on, each of its actions keeps to what it
guarantees, and its answer is as promised. Safe programs stay safe in a pool where what
each guarantees is what the others rely on.
-/
namespace Prog
variable {State Err A B : Type}

def Safe (valid : State → Prop) (rely guar : State → State → Prop)
    (post : Except Err A → State → Prop) : Prog State Err A → State → Prop
  | .done a, s => ∀ t, rely s t → valid t → post (.ok a) t
  | .fail e, s => ∀ t, rely s t → valid t → post (.error e) t
  | .act effect next, s => ∀ t, rely s t → valid t →
      valid (effect t) ∧ guar t (effect t) ∧ Safe valid rely guar post (next t) (effect t)

section Rules
variable {valid : State → Prop} {rely guar : State → State → Prop}
  {post : Except Err A → State → Prop}

/-- A program that is safe stays safe while the others act. -/
theorem safe_mono (trans : ∀ s t u, rely s t → rely t u → rely s u) {p : Prog State Err A}
    {s t : State} (safe : Safe valid rely guar post p s) (others : rely s t) :
    Safe valid rely guar post p t := by
  cases p with
  | done a => exact fun u later kept => safe u (trans _ _ _ others later) kept
  | fail e => exact fun u later kept => safe u (trans _ _ _ others later) kept
  | act effect next => exact fun u later kept => safe u (trans _ _ _ others later) kept

theorem safe_weaken {promise : Except Err A → State → Prop} {p : Prog State Err A} {s : State}
    (safe : Safe valid rely guar promise p s)
    (implies : ∀ r t, valid t → promise r t → post r t) : Safe valid rely guar post p s := by
  induction p generalizing s with
  | done a => exact fun t others kept => implies _ t kept (safe t others kept)
  | fail e => exact fun t others kept => implies _ t kept (safe t others kept)
  | act effect next ih =>
    intro t others kept
    obtain ⟨after, does, rest⟩ := safe t others kept
    exact ⟨after, does, ih t rest⟩

theorem safe_bind (refl : ∀ s, rely s s) {first : Except Err B → State → Prop}
    {p : Prog State Err B} {k : B → Prog State Err A} {s : State} (kept : valid s)
    (safe : Safe valid rely guar first p s)
    (resume : ∀ b t, valid t → first (.ok b) t → Safe valid rely guar post (k b) t)
    (fails : ∀ e t, valid t → first (.error e) t → post (.error e) t) :
    Safe valid rely guar post (p >>= k) s := by
  show Safe valid rely guar post (bind p k) s
  induction p generalizing s with
  | done b => exact resume b s kept (safe s (refl s) kept)
  | fail e => exact fun t others valid' => fails e t valid' (safe t others valid')
  | act effect next ih =>
    intro t others kept'
    obtain ⟨after, does, rest⟩ := safe t others kept'
    exact ⟨after, does, ih t after rest⟩

/-- What neither the others nor the program itself undo still holds at the end. -/
theorem safe_carry {fact : State → Prop} (others : ∀ s t, fact s → rely s t → valid t → fact t)
    (own : ∀ s t, fact s → guar s t → valid t → fact t) {p : Prog State Err A} {s : State}
    (safe : Safe valid rely guar post p s) (holds : fact s) :
    Safe valid rely guar (fun r t => post r t ∧ fact t) p s := by
  induction p generalizing s with
  | done a => exact fun t other kept => ⟨safe t other kept, others s t holds other kept⟩
  | fail e => exact fun t other kept => ⟨safe t other kept, others s t holds other kept⟩
  | act effect next ih =>
    intro t other kept
    obtain ⟨after, does, rest⟩ := safe t other kept
    exact ⟨after, does, ih t rest (own t _ (others s t holds other kept) does after)⟩

theorem safe_guar {less : State → State → Prop} (weaken : ∀ s t, less s t → guar s t)
    {p : Prog State Err A} {s : State} (safe : Safe valid rely less post p s) :
    Safe valid rely guar post p s := by
  induction p generalizing s with
  | done a => exact safe
  | fail e => exact safe
  | act effect next ih =>
    intro t other kept
    obtain ⟨after, does, rest⟩ := safe t other kept
    exact ⟨after, weaken _ _ does, ih t rest⟩

/-- A sequence of programs, the second of which knows how far the state has moved on. -/
theorem safe_seq {later : State → State → Prop} (refl : ∀ s, rely s s)
    (still : ∀ s, later s s) (onward : ∀ s t u, later s t → later t u → later s u)
    (relied : ∀ s t, rely s t → later s t) (guaranteed : ∀ s t, guar s t → later s t)
    {first : Except Err B → State → Prop} {p : Prog State Err B} {k : B → Prog State Err A}
    {s : State} (kept : valid s) (safe : Safe valid rely guar first p s)
    (resume : ∀ b t, valid t → later s t → first (.ok b) t →
      Safe valid rely guar post (k b) t)
    (fails : ∀ e t, valid t → later s t → first (.error e) t → post (.error e) t) :
    Safe valid rely guar post (p >>= k) s := by
  have carried := safe_carry (fun t u before other _ => onward s t u before (relied t u other))
    (fun t u before does _ => onward s t u before (guaranteed t u does)) safe (still s)
  exact safe_bind refl kept carried (fun b t valid' here => resume b t valid' here.2 here.1)
    (fun e t valid' here => fails e t valid' here.2 here.1)

theorem safe_pure {a : A} {s : State} (stable : ∀ t, rely s t → valid t → post (.ok a) t) :
    Safe valid rely guar post (pure a : Prog State Err A) s := stable

theorem safe_map {promise : Except Err B → State → Prop} (f : A → B) {p : Prog State Err A}
    {s : State} (safe : Safe valid rely guar (fun r t => promise (r.map f) t) p s) :
    Safe valid rely guar promise (f <$> p) s := by
  show Safe valid rely guar promise (bind p (fun a => .done (f a))) s
  induction p generalizing s with
  | done a => exact safe
  | fail e => exact safe
  | act effect next ih =>
    intro t others kept
    obtain ⟨after, does, rest⟩ := safe t others kept
    exact ⟨after, does, ih t rest⟩

theorem safe_mapError {Err' : Type} (f : Err → Err') {promise : Except Err' A → State → Prop}
    {p : Prog State Err A} {s : State}
    (safe : Safe valid rely guar (fun r t => promise (r.mapError f) t) p s) :
    Safe valid rely guar promise (mapError f p) s := by
  induction p generalizing s with
  | done a => exact safe
  | fail e => exact safe
  | act effect next ih =>
    intro t others kept
    obtain ⟨after, does, rest⟩ := safe t others kept
    exact ⟨after, does, ih t rest⟩

theorem safe_attempt {promise : Except Err (Except Err A) → State → Prop} {p : Prog State Err A}
    {s : State} (safe : Safe valid rely guar (fun r t => promise (.ok r) t) p s) :
    Safe valid rely guar promise (attempt p) s := by
  induction p generalizing s with
  | done a => exact safe
  | fail e => exact safe
  | act effect next ih =>
    intro t others kept
    obtain ⟨after, does, rest⟩ := safe t others kept
    exact ⟨after, does, ih t rest⟩

theorem safe_outcome {Err' : Type} {promise : Except Err' (Except Err A) → State → Prop}
    {p : Prog State Err A} {s : State}
    (safe : Safe valid rely guar (fun r t => promise (.ok r) t) p s) :
    Safe valid rely guar promise (outcome p) s := by
  induction p generalizing s with
  | done a => exact safe
  | fail e => exact safe
  | act effect next ih =>
    intro t others kept
    obtain ⟨after, does, rest⟩ := safe t others kept
    exact ⟨after, does, ih t rest⟩

/-- One action, whose run from any state it may be taken in is known. -/
theorem safe_single {p : Prog State Err A} (one : Single p) {s : State}
    (runs : ∀ t, rely s t → valid t → ∃ r u, run p t = (r, u) ∧ valid u ∧ guar t u ∧
      ∀ v, rely u v → valid v → post r v) : Safe valid rely guar post p s := by
  obtain ⟨effect, next, rfl, finished⟩ := one
  intro t others kept
  obtain ⟨r, u, ran, after, does, stable⟩ := runs t others kept
  have ends := finished t
  simp only [run] at ran
  cases answer : next t with
  | done a =>
    rw [answer] at ran
    cases ran
    exact ⟨after, does, stable⟩
  | fail e =>
    rw [answer] at ran
    cases ran
    exact ⟨after, does, stable⟩
  | act effect' next' =>
    rw [answer] at ends
    exact ends.elim

end Rules

/-- What holds where a program answers at all. -/
def IfOk (good : A → State → Prop) (r : Except Err A) (s : State) : Prop :=
  ∀ a, r = .ok a → good a s

section IfOk
variable {valid : State → Prop} {rely guar : State → State → Prop} {good : A → State → Prop}
  {mid : B → State → Prop} {s : State}

theorem ifOk_fail (e : Err) : Safe valid rely guar (IfOk good) (Prog.fail e) s := by
  intro t _ _ a wrong
  cases wrong

theorem ifOk_mapError {Err' : Type} (f : Err → Err') {p : Prog State Err A}
    (safe : Safe valid rely guar (IfOk good) p s) :
    Safe valid rely guar (IfOk good) (mapError f p) s := by
  refine safe_mapError f (safe_weaken safe ?_)
  rintro (e | b) t _ here a same
  · cases same
  · exact here a (by cases same; rfl)

theorem ifOk_attempt {p : Prog State Err A} (safe : Safe valid rely guar (IfOk good) p s) :
    Safe valid rely guar (IfOk (fun r t => IfOk good r t))
      (attempt p : Prog State Err (Except Err A)) s := by
  refine safe_attempt (safe_weaken safe ?_)
  intro r t _ here r' same
  cases same
  exact here

theorem ifOk_outcome {Err' : Type} {p : Prog State Err A}
    (safe : Safe valid rely guar (IfOk good) p s) :
    Safe valid rely guar (IfOk (fun r t => IfOk good r t))
      (outcome p : Prog State Err' (Except Err A)) s := by
  refine safe_outcome (safe_weaken safe ?_)
  intro r t _ here r' same
  cases same
  exact here

theorem ifOk_map {f : A → B} {p : Prog State Err A}
    (safe : Safe valid rely guar (IfOk (fun a t => mid (f a) t)) p s) :
    Safe valid rely guar (IfOk mid) (f <$> p) s := by
  refine safe_map f (safe_weaken safe ?_)
  rintro (e | a) t _ here b same
  · cases same
  · cases same
    exact here a rfl

theorem ifOk_weaken {better : A → State → Prop} {p : Prog State Err A}
    (safe : Safe valid rely guar (IfOk better) p s)
    (implies : ∀ a t, valid t → better a t → good a t) :
    Safe valid rely guar (IfOk good) p s :=
  safe_weaken safe (fun _ t kept here a same => implies a t kept (here a same))

end IfOk

end Prog

namespace StepMachine
open Prog

/-! Pools of safe programs -/

/-- A program with the request it was launched for. -/
structure Launched (Request State Err A : Type) where
  request : Request
  prog : Prog State Err A

section Naming
variable {Name State Err A Request Outside : Type} [DecidableEq Name]

/-- Requests become programs; a name that is drawn was never drawn before. -/
def namedWork (name : Request → Option Name) (prog : Request → Prog State Err A)
    (outside : Outside → State → State) :
    Work State (Launched Request State Err A) (List Name) Request Outside where
  begin r drawn :=
    match name r with
    | none => some (⟨r, prog r⟩, drawn)
    | some x => if x ∈ drawn then none else some (⟨r, prog r⟩, x :: drawn)
  step t s := (Prog.step t.prog s).map (fun b => (⟨t.request, b.1⟩, b.2))
  outside := outside

/-- What programs with names promise each other. -/
structure Treaty (Name State : Type) where
  valid : State → Prop
  rely : Option Name → State → State → Prop
  guar : Option Name → State → State → Prop
  untouched : Name → State → Prop
  refl : ∀ n s, rely n s s
  trans : ∀ n s t u, rely n s t → rely n t u → rely n s u
  agree : ∀ {m n s t}, (m ≠ n ∨ m = none) → guar m s t → rely n s t
  leaves : ∀ {m x s t}, m ≠ some x → guar m s t → untouched x s → untouched x t

def Treaty.Safe (T : Treaty Name State) (n : Option Name) (post : Except Err A → State → Prop) :
    Prog State Err A → State → Prop :=
  Prog.Safe T.valid (T.rely n) (T.guar n) post

omit [DecidableEq Name] in
theorem Treaty.safe_mono (T : Treaty Name State) {n : Option Name}
    {post : Except Err A → State → Prop} {p : Prog State Err A} {s t : State}
    (safe : T.Safe n post p s) (others : T.rely n s t) : T.Safe n post p t :=
  Prog.safe_mono (T.trans n) safe others

/-- Every program of a pool is safe, under names of their own, and what is drawn next is
    untouched. -/
structure Peaceful (T : Treaty Name State) (name : Request → Option Name)
    (post : Request → Except Err A → State → Prop)
    (p : Pool State (Launched Request State Err A) (List Name)) : Prop where
  valid : T.valid p.shared
  untouched : ∀ x, x ∉ p.log → T.untouched x p.shared
  drawn : ∀ t ∈ p.tasks, ∀ x, name t.request = some x → x ∈ p.log
  apart : ∀ (i j : Nat) (t u : Launched Request State Err A) (x : Name),
    p.tasks[i]? = some t → p.tasks[j]? = some u → name t.request = some x →
    name u.request = some x → i = j
  safe : ∀ t ∈ p.tasks, T.Safe (name t.request) (post t.request) t.prog p.shared

section Peace
variable {T : Treaty Name State} {post : Request → Except Err A → State → Prop}
  {name : Request → Option Name} {prog : Request → Prog State Err A}
  {outside : Outside → State → State} {starts : State → List Name → Prop}
  {p q : Pool State (Launched Request State Err A) (List Name)}

theorem peaceful_launched (peaceful : Peaceful T name post p) {r : Request}
    {t : Launched Request State Err A} {l : List Name}
    (begins : ∀ s, T.valid s → (∀ x, name r = some x → T.untouched x s) →
      T.Safe (name r) (post r) (prog r) s)
    (begun : (namedWork name prog outside).begin r p.log = some (t, l)) :
    Peaceful T name post ⟨p.shared, p.tasks ++ [t], l⟩ := by
  have shape : t = ⟨r, prog r⟩ ∧ (∀ x, x ∈ p.log → x ∈ l) ∧
      ∀ x, name r = some x → x ∉ p.log ∧ x ∈ l := by
    simp only [namedWork] at begun
    cases drew : name r with
    | none =>
      rw [drew] at begun
      cases begun
      exact ⟨rfl, fun x known => known, nofun⟩
    | some y =>
      rw [drew] at begun
      simp only [Option.ite_none_left_eq_some, Option.some.injEq, Prod.mk.injEq] at begun
      obtain ⟨fresh, rfl, rfl⟩ := begun
      refine ⟨rfl, fun x known => List.mem_cons_of_mem y known, ?_⟩
      intro x same
      cases same
      exact ⟨fresh, List.mem_cons_self⟩
  obtain ⟨rfl, grows, fresh⟩ := shape
  constructor
  · exact peaceful.valid
  · exact fun x unknown => peaceful.untouched x (fun known => unknown (grows x known))
  · intro u member x named
    rcases List.mem_append.mp member with old | new
    · exact grows x (peaceful.drawn u old x named)
    · rw [List.mem_singleton.mp new] at named
      exact (fresh x named).2
  · intro i j u v x one two named named'
    rcases at_launched one with ⟨rfl, rfl⟩ | old
    · rcases at_launched two with ⟨rfl, rfl⟩ | old'
      · rfl
      · exact absurd (peaceful.drawn v (List.mem_of_getElem? old') x named') (fresh x named).1
    · rcases at_launched two with ⟨rfl, rfl⟩ | old'
      · exact absurd (peaceful.drawn u (List.mem_of_getElem? old) x named) (fresh x named').1
      · exact peaceful.apart i j u v x old old' named named'
  · intro u member
    rcases List.mem_append.mp member with old | new
    · exact peaceful.safe u old
    · rw [List.mem_singleton.mp new]
      exact begins p.shared peaceful.valid
        (fun x named => peaceful.untouched x (fresh x named).1)

theorem peaceful_resumed (peaceful : Peaceful T name post p) {i : Nat}
    {t u : Launched Request State Err A} {s : State} (found : p.tasks[i]? = some t)
    (taken : (namedWork name prog outside).step t p.shared = some (u, s)) :
    T.guar (name t.request) p.shared s ∧ Peaceful T name post ⟨s, p.tasks.set i u, p.log⟩ := by
  obtain ⟨request, program⟩ := t
  have member := List.mem_of_getElem? found
  have safe := peaceful.safe _ member
  cases program with
  | done a => cases taken
  | fail e => cases taken
  | act effect next =>
    simp only [namedWork, Prog.step, Option.map_some, Option.some.injEq, Prod.mk.injEq] at taken
    obtain ⟨rfl, rfl⟩ := taken
    obtain ⟨after, does, rest⟩ := safe p.shared (T.refl _ _) peaceful.valid
    refine ⟨does, after, ?_, ?_, ?_, ?_⟩
    · intro x unknown
      apply T.leaves _ does (peaceful.untouched x unknown)
      intro named
      exact unknown (peaceful.drawn _ member x named)
    · intro v within x named
      rcases mem_moved found within with rfl | ⟨old, _⟩
      · exact peaceful.drawn _ member x named
      · exact peaceful.drawn v old x named
    · intro j l v w x one two named named'
      rcases at_moved found one with ⟨rfl, rfl⟩ | ⟨_, at_⟩
      · rcases at_moved found two with ⟨rfl, rfl⟩ | ⟨_, at_'⟩
        · rfl
        · exact peaceful.apart _ l _ w x found at_' named named'
      · rcases at_moved found two with ⟨rfl, rfl⟩ | ⟨_, at_'⟩
        · exact peaceful.apart j _ v _ x at_ found named named'
        · exact peaceful.apart j l v w x at_ at_' named named'
    · intro v within
      obtain ⟨j, at_⟩ := List.mem_iff_getElem?.mp within
      rcases at_moved found at_ with ⟨rfl, rfl⟩ | ⟨other, elsewhere⟩
      · exact rest
      · refine T.safe_mono (peaceful.safe v (List.mem_of_getElem? elsewhere)) ?_
        apply T.agree _ does
        cases named : name request with
        | none => exact .inr rfl
        | some x =>
          refine .inl ?_
          intro same
          exact other (peaceful.apart j i v _ x elsewhere found same.symm named)

omit [DecidableEq Name] in
theorem peaceful_outside (peaceful : Peaceful T name post p) (o : Outside)
    (keeps : T.valid (outside o p.shared)) (quiet : ∀ n, T.rely n p.shared (outside o p.shared))
    (leaves : ∀ x, T.untouched x p.shared → T.untouched x (outside o p.shared)) :
    Peaceful T name post { p with shared := outside o p.shared } where
  valid := keeps
  untouched := fun x unknown => leaves x (peaceful.untouched x unknown)
  drawn := peaceful.drawn
  apart := peaceful.apart
  safe := fun t member => T.safe_mono (peaceful.safe t member) (quiet (name t.request))

/-- A pool that starts idle over a valid state is peaceful along every run. -/
theorem peaceful_step
    (begins : ∀ r s, T.valid s → (∀ x, name r = some x → T.untouched x s) →
      T.Safe (name r) (post r) (prog r) s)
    (keeps : ∀ o s, T.valid s → T.valid (outside o s))
    (quiet : ∀ o s n, T.valid s → T.rely n s (outside o s))
    (leaves : ∀ o s x, T.untouched x s → T.untouched x (outside o s))
    (peaceful : Peaceful T name post p) {a : PoolAction Request Outside}
    (next : (pool (namedWork name prog outside) starts).step p a = some q) :
    Peaceful T name post q := by
  rcases pool_cases next with ⟨r, t, l, rfl, begun, rfl⟩ | ⟨i, t, u, s, rfl, found, taken, rfl⟩ |
    ⟨o, rfl, rfl⟩
  · exact peaceful_launched peaceful (begins r) begun
  · exact (peaceful_resumed peaceful found taken).2
  · exact peaceful_outside peaceful o (keeps o _ peaceful.valid)
      (fun n => quiet o _ n peaceful.valid) (fun x => leaves o _ x)

/-- Programs launched once a fact holds, which all of them keep, may promise more. -/
theorem peaceful_later (fact : State → Prop) (later : Request → Except Err A → State → Prop)
    (kept : ∀ n s t, fact s → T.guar n s t → fact t)
    (keptOutside : ∀ o s, fact s → T.valid s → fact (outside o s))
    (begins : ∀ r s, T.valid s → (∀ x, name r = some x → T.untouched x s) →
      T.Safe (name r) (post r) (prog r) s)
    (laters : ∀ r s, T.valid s → (∀ x, name r = some x → T.untouched x s) → fact s →
      T.Safe (name r) (later r) (prog r) s)
    (keeps : ∀ o s, T.valid s → T.valid (outside o s))
    (quiet : ∀ o s n, T.valid s → T.rely n s (outside o s))
    (leaves : ∀ o s x, T.untouched x s → T.untouched x (outside o s))
    (peaceful : Peaceful T name post p) (holds : fact p.shared)
    (path : Run (pool (namedWork name prog outside) starts) (fun _ _ => True) p q) :
    (Peaceful T name post q ∧ fact q.shared ∧ p.tasks.length ≤ q.tasks.length) ∧
      ∀ (j : Nat) (t : Launched Request State Err A), p.tasks.length ≤ j →
        q.tasks[j]? = some t → T.Safe (name t.request) (later t.request) t.prog q.shared := by
  induction path with
  | refl =>
    refine ⟨⟨peaceful, holds, Nat.le_refl _⟩, ?_⟩
    intro j t beyond at_
    obtain ⟨within, _⟩ := List.getElem?_eq_some_iff.mp at_
    omega
  | @tail mid _ _ _ _ next ih =>
    obtain ⟨⟨before, held, grown⟩, safe⟩ := ih
    have after := peaceful_step begins keeps quiet leaves before next
    rcases pool_cases next with ⟨r, t, l, rfl, begun, rfl⟩ | ⟨i, t, u, s, rfl, found, taken, rfl⟩ |
      ⟨o, rfl, rfl⟩
    · have fresh : ∀ x, name r = some x → T.untouched x mid.shared := by
        intro x named
        apply before.untouched
        intro known
        simp only [namedWork, named] at begun
        rw [if_pos known] at begun
        cases begun
      have shape : t = ⟨r, prog r⟩ := by
        simp only [namedWork] at begun
        split at begun
        · cases begun
          rfl
        · simp only [Option.ite_none_left_eq_some, Option.some.injEq, Prod.mk.injEq] at begun
          exact begun.2.1.symm
      refine ⟨⟨after, held, by simp only [List.length_append]; omega⟩, ?_⟩
      intro j v beyond at_
      rcases at_launched at_ with ⟨_, rfl⟩ | old
      · rw [shape]
        exact laters r _ before.valid fresh held
      · exact safe j v beyond old
    · obtain ⟨does, _⟩ := peaceful_resumed before found taken
      refine ⟨⟨after, kept _ _ _ held does, by rw [List.length_set]; exact grown⟩, ?_⟩
      intro j v beyond at_
      rcases at_moved found at_ with ⟨rfl, rfl⟩ | ⟨other, elsewhere⟩
      · have own := safe j t beyond found
        obtain ⟨request, program⟩ := t
        cases program with
        | done a => cases taken
        | fail e => cases taken
        | act effect next =>
          simp only [namedWork, Prog.step, Option.map_some, Option.some.injEq,
            Prod.mk.injEq] at taken
          obtain ⟨rfl, rfl⟩ := taken
          exact (own _ (T.refl _ _) before.valid).2.2
      · refine T.safe_mono (safe j v beyond elsewhere) ?_
        apply T.agree _ does
        cases named : name t.request with
        | none => exact .inr rfl
        | some x =>
          refine .inl ?_
          intro same
          exact other (before.apart j i v t x elsewhere found same.symm named)
    · refine ⟨⟨after, keptOutside o _ held before.valid, grown⟩, ?_⟩
      exact fun j v beyond at_ =>
        T.safe_mono (safe j v beyond at_) (quiet o _ (name v.request) before.valid)

omit [DecidableEq Name] in
/-- What a finished program of a peaceful pool promised holds. -/
theorem peaceful_answer (peaceful : Peaceful T name post p) {t : Launched Request State Err A}
    (member : t ∈ p.tasks) {r : Except Err A} (ended : t.prog.answer = some r) :
    post t.request r p.shared := by
  obtain ⟨request, program⟩ := t
  have safe := peaceful.safe _ member
  cases program with
  | done a =>
    cases ended
    exact safe p.shared (T.refl _ _) peaceful.valid
  | fail e =>
    cases ended
    exact safe p.shared (T.refl _ _) peaceful.valid
  | act effect next => cases ended

end Peace
end Naming
end StepMachine
