import Mathlib.Data.Set.Basic
import WireMirage.Library.Interference

/-!
Facts that only finished programs hand out. A running program keeps the state to what is known,
and what it adds to that it adds with its last action, as the grant of its answer. So whatever
a pool of such programs holds was known at first or granted by one that has finished.
-/
namespace Prog
variable {State Err A B Fact : Type}

/-- Among others, and whatever they grant meanwhile, a program keeps the state to what is known,
    and grants no more than its answer does. -/
def Earns (held : Set Fact → State → Prop) (grant : A → Fact → Prop)
    (post : Set Fact → A → Prop) : Set Fact → Prog State Err A → Prop
  | known, .done a => ∀ more s, known ⊆ more → held more s → post more a
  | _, .fail _ => True
  | known, .act effect next => ∀ more s, known ⊆ more → held more s →
      ∃ after, more ⊆ after ∧ held after (effect s) ∧ Earns held grant post after (next s) ∧
        ∀ f ∈ after, f ∈ more ∨ ∃ a, next s = .done a ∧ grant a f

/-- A program that keeps to what is known, and promises something where it answers. -/
abbrev Keeping (held : Set Fact → State → Prop) (known : Set Fact) (good : A → Prop)
    (p : Prog State Err A) (s : State) : Prop :=
  Safe (held known) (fun _ _ => True) (fun _ _ => True) (IfOk (fun a _ => good a)) p s

section Rules
variable {held : Set Fact → State → Prop} {grant : A → Fact → Prop} {post : Set Fact → A → Prop}
  {known more : Set Fact} {p : Prog State Err A}

theorem earns_more (earns : Earns held grant post known p) (wider : known ⊆ more) :
    Earns held grant post more p := by
  cases p with
  | done a => exact fun most s within here => earns most s (wider.trans within) here
  | fail e => trivial
  | act effect next => exact fun most s within here => earns most s (wider.trans within) here

/-- What is left of a program that keeps to whatever is known more. -/
theorem keeping_next (good : Set Fact → A → Prop)
    (mono : ∀ known more s, known ⊆ more → held known s → held more s)
    {effect : State → State} {next : State → Prog State Err A}
    (keeping : ∀ more s, known ⊆ more → held more s →
      Keeping held more (good more) (.act effect next) s)
    {s : State} (wider : known ⊆ more) (here : held more s) :
    held more (effect s) ∧
      ∀ most t, more ⊆ most → held most t → Keeping held most (good most) (next s) t := by
  refine ⟨(keeping more s wider here s trivial here).1, ?_⟩
  intro most t within _
  have still := mono _ _ _ within here
  obtain ⟨_, _, rest⟩ := keeping most s (wider.trans within) still s trivial still
  exact safe_mono (fun _ _ _ _ _ => trivial) rest trivial

theorem earns_of_keeping (mono : ∀ known more s, known ⊆ more → held known s → held more s)
    (keeping : ∀ more s, known ⊆ more → held more s → Keeping held more (post more) p s) :
    Earns held grant post known p := by
  induction p generalizing known with
  | done a => exact fun more s wider here => keeping more s wider here s trivial here a rfl
  | fail e => trivial
  | act effect next ih =>
    intro more s wider here
    obtain ⟨after, rest⟩ := keeping_next post mono keeping wider here
    exact ⟨more, subset_rfl, after, ih s rest, fun f inside => .inl inside⟩

/-- A program that keeps to what is known, before one that grants. -/
theorem earns_bind (mono : ∀ known more s, known ⊆ more → held known s → held more s)
    {p : Prog State Err B} {k : B → Prog State Err A}
    (keeping : ∀ more s, known ⊆ more → held more s → Keeping held more (fun _ => True) p s)
    (rest : ∀ b, Earns held grant post known (k b)) : Earns held grant post known (p >>= k) := by
  show Earns held grant post known (bind p k)
  induction p generalizing known with
  | done b => exact rest b
  | fail e => trivial
  | act effect next ih =>
    intro more s wider here
    obtain ⟨after, later⟩ := keeping_next (fun _ _ => True) mono keeping wider here
    exact ⟨more, subset_rfl, after, ih s later (fun b => earns_more (rest b) wider),
      fun f inside => .inl inside⟩

/-- One action, which grants what its answer does. -/
theorem earns_single (one : Single p)
    (runs : ∀ more s, known ⊆ more → held more s → ∃ r after t, run p s = (r, t) ∧
      more ⊆ after ∧ held after t ∧
      (∀ a, r = .ok a → ∀ most u, after ⊆ most → held most u → post most a) ∧
      ∀ f ∈ after, f ∈ more ∨ ∃ a, r = .ok a ∧ grant a f) : Earns held grant post known p := by
  obtain ⟨effect, next, rfl, finished⟩ := one
  intro more s wider here
  obtain ⟨r, after, t, ran, grows, there, promised, bound⟩ := runs more s wider here
  have ends := finished s
  simp only [run] at ran
  cases answer : next s with
  | done a =>
    rw [answer] at ran
    cases ran
    refine ⟨after, grows, there, promised a rfl, ?_⟩
    intro f inside
    refine (bound f inside).imp_right ?_
    rintro ⟨b, same, grants⟩
    cases same
    exact ⟨a, rfl, grants⟩
  | fail e =>
    rw [answer] at ran
    cases ran
    refine ⟨after, grows, there, trivial, ?_⟩
    intro f inside
    rcases bound f inside with before | ⟨b, same, _⟩
    · exact .inl before
    · cases same
  | act effect' next' =>
    rw [answer] at ends
    exact ends.elim

section Keeping
variable {good : A → Prop} {mid : B → Prop} {s : State}

theorem keeping_bind {p : Prog State Err B} {k : B → Prog State Err A}
    (here : held known s) (first : Keeping held known mid p s)
    (rest : ∀ b t, held known t → mid b → Keeping held known good (k b) t) :
    Keeping held known good (p >>= k) s := by
  refine safe_bind (fun _ => trivial) here first (fun b t there ok => rest b t there (ok b rfl)) ?_
  intro e t _ _ a wrong
  cases wrong

theorem keeping_answer {a : A} (holds : good a) :
    Keeping held known good (pure a : Prog State Err A) s := by
  intro t _ _ b same
  cases same
  exact holds

end Keeping

end Rules

end Prog

namespace StepMachine
open Prog

section Pools
variable {Name State Err A Request Outside Fact : Type} [DecidableEq Name]

/-- What was given at first, and what the programs that have finished grant. -/
def Granted (given : Set Fact) (grant : Request → A → Fact → Prop)
    (tasks : List (Launched Request State Err A)) : Set Fact :=
  {f | f ∈ given ∨ ∃ t ∈ tasks, ∃ a, t.prog.answer = some (.ok a) ∧ grant t.request a f}

/-- The state of a pool holds what is granted, and its programs grant no more than they say. -/
structure Earning (held : Set Fact → State → Prop) (grant : Request → A → Fact → Prop)
    (post : Request → Set Fact → A → Prop) (given : Set Fact)
    (p : Pool State (Launched Request State Err A) (List Name)) : Prop where
  holds : held (Granted given grant p.tasks) p.shared
  earns : ∀ t ∈ p.tasks,
    Earns held (grant t.request) (post t.request) (Granted given grant p.tasks) t.prog

variable {held : Set Fact → State → Prop} {grant : Request → A → Fact → Prop}
  {post : Request → Set Fact → A → Prop} {given : Set Fact} {name : Request → Option Name}
  {prog : Request → Prog State Err A} {outside : Outside → State → State}
  {starts : State → List Name → Prop}
  {p q : Pool State (Launched Request State Err A) (List Name)}

omit [DecidableEq Name] in
theorem granted_grows {tasks after : List (Launched Request State Err A)}
    (stays : ∀ t ∈ tasks, ∀ a, t.prog.answer = some (.ok a) → t ∈ after) :
    Granted given grant tasks ⊆ Granted given grant after := by
  rintro f (first | ⟨t, member, a, answered, grants⟩)
  · exact .inl first
  · exact .inr ⟨t, stays t member a answered, a, answered, grants⟩

theorem earning_step (mono : ∀ known more s, known ⊆ more → held known s → held more s)
    (begins : ∀ r known, Earns held (grant r) (post r) known (prog r))
    (fades : ∀ o known s, held known s → held known (outside o s))
    (earning : Earning held grant post given p) {a : PoolAction Request Outside}
    (next : (pool (namedWork name prog outside) starts).step p a = some q) :
    Earning held grant post given q := by
  rcases pool_cases next with ⟨r, t, l, rfl, begun, rfl⟩ | ⟨i, t, u, s, rfl, found, taken, rfl⟩ |
    ⟨o, rfl, rfl⟩
  · have shape : t = ⟨r, prog r⟩ := by
      simp only [namedWork] at begun
      split at begun
      · cases begun
        rfl
      · simp only [Option.ite_none_left_eq_some, Option.some.injEq, Prod.mk.injEq] at begun
        exact begun.2.1.symm
    have grows : Granted given grant p.tasks ⊆ Granted given grant (p.tasks ++ [t]) :=
      granted_grows (fun u member _ _ => List.mem_append_left _ member)
    refine ⟨mono _ _ _ grows earning.holds, ?_⟩
    intro u member
    rcases List.mem_append.mp member with old | new
    · exact earns_more (earning.earns u old) grows
    · rw [List.mem_singleton.mp new, shape]
      exact begins r _
  · obtain ⟨request, program⟩ := t
    have member := List.mem_of_getElem? found
    have earns := earning.earns _ member
    cases program with
    | done a => cases taken
    | fail e => cases taken
    | act effect rest =>
      simp only [namedWork, Prog.step, Option.map_some, Option.some.injEq, Prod.mk.injEq] at taken
      obtain ⟨rfl, rfl⟩ := taken
      obtain ⟨after, wider, holds, left, bound⟩ := earns _ p.shared subset_rfl earning.holds
      have grows : Granted given grant p.tasks ⊆
          Granted given grant (p.tasks.set i ⟨request, rest p.shared⟩) := by
        apply granted_grows
        intro v within a answered
        rcases mem_stays found within _ with rfl | stays
        · cases answered
        · exact stays
      -- what the action has added is what the finished program grants
      have covers : after ⊆ Granted given grant (p.tasks.set i ⟨request, rest p.shared⟩) := by
        intro f inside
        rcases bound f inside with before | ⟨a, ended, grants⟩
        · exact grows before
        · exact .inr ⟨_, moved_mem found _, a, by rw [ended]; rfl, grants⟩
      refine ⟨mono _ _ _ covers holds, ?_⟩
      intro v within
      rcases mem_moved found within with rfl | ⟨old, _⟩
      · exact earns_more left covers
      · exact earns_more (earning.earns v old) grows
  · exact ⟨fades o _ _ earning.holds, earning.earns⟩

/-- What a pool holds was given at first or granted since, and every answer is as promised. -/
theorem earning_run (mono : ∀ known more s, known ⊆ more → held known s → held more s)
    (begins : ∀ r known, Earns held (grant r) (post r) known (prog r))
    (fades : ∀ o known s, held known s → held known (outside o s))
    (earning : Earning held grant post given p)
    (path : Run (pool (namedWork name prog outside) starts) (fun _ _ => True) p q) :
    Earning held grant post given q :=
  run_invariant (fun _ _ _ earning _ next => earning_step mono begins fades earning next) path
    earning

omit [DecidableEq Name] in
theorem earning_answer (earning : Earning held grant post given p)
    {t : Launched Request State Err A} (member : t ∈ p.tasks) {a : A}
    (answered : t.prog.answer = some (.ok a)) :
    post t.request (Granted given grant p.tasks) a := by
  obtain ⟨request, program⟩ := t
  have earns := earning.earns _ member
  cases program with
  | done b =>
    cases answered
    exact earns _ p.shared subset_rfl earning.holds
  | fail e => cases answered
  | act effect next => cases answered

end Pools
end StepMachine
