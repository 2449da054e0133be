import WireMirage.Library.Interference

/-!
Programs that tear things down, any number of them among each other. What has fallen never
stands again, and a program that takes the first piece off a thing takes off all others
before it ends. Once every program has ended, a thing is whole or gone.
-/
namespace Prog
variable {State Err A B Piece Thing : Type}

/-- Things and their pieces, and in which states a piece still stands. -/
structure Site (State Piece Thing : Type) where
  valid : State → Prop
  stands : Piece → State → Prop
  pieces : Thing → Piece → Prop

namespace Site
variable (S : Site State Piece Thing)

def Begun (g : Thing) (s : State) : Prop := ∃ x, S.pieces g x ∧ ¬ S.stands x s

def Later (s t : State) : Prop := ∀ x, S.stands x t → S.stands x s

/-- Later, with nothing fallen but pieces of one thing. -/
def Within (g : Thing) (s t : State) : Prop :=
  S.Later s t ∧ ∀ h, h ≠ g → ∀ x, S.pieces h x → S.stands x s → S.stands x t

/-- Whatever the states are that the program acts in, it takes the piece off before it ends. -/
def Fells (x : Piece) : Prog State Err A → Prop
  | .act effect next => ∀ s, S.valid s → ¬ S.stands x (effect s) ∨ Fells x (next s)
  | _ => False

def Succeeds : Prog State Err A → Prop
  | .done _ => True
  | .fail _ => False
  | .act _ next => ∀ s, S.valid s → Succeeds (next s)

/-- Among others that only take pieces off, so does the program, and on the things it is the
    first to touch it takes off every piece; its answer is as promised. -/
def Razes (post : Except Err A → State → Prop) : Prog State Err A → State → Prop
  | .done a, s => ∀ t, S.Later s t → S.valid t → post (.ok a) t
  | .fail e, s => ∀ t, S.Later s t → S.valid t → post (.error e) t
  | .act effect next, s => ∀ t, S.Later s t → S.valid t →
      S.valid (effect t) ∧ S.Later t (effect t) ∧
        (∀ g, ¬ S.Begun g t → S.Begun g (effect t) →
          ∀ x, S.pieces g x → S.Fells x (.act effect next)) ∧
        Razes post (next t) (effect t)

variable {S}

theorem later_refl (s : State) : S.Later s s := fun _ stands => stands

theorem later_trans {s t u : State} (first : S.Later s t) (second : S.Later t u) : S.Later s u :=
  fun x stands => first x (second x stands)

theorem within_refl (g : Thing) (s : State) : S.Within g s s :=
  ⟨later_refl s, fun _ _ _ _ stands => stands⟩

theorem begun_later {g : Thing} {s t : State} (begun : S.Begun g s) (later : S.Later s t) :
    S.Begun g t := by
  obtain ⟨x, piece, fallen⟩ := begun
  exact ⟨x, piece, fun stands => fallen (later x stands)⟩

/-! What takes a piece off -/

section Felling
variable {x : Piece}

theorem fells_bind {p : Prog State Err A} {k : A → Prog State Err B} (fells : S.Fells x p) :
    S.Fells x (p >>= k) := by
  show S.Fells x (bind p k)
  induction p with
  | done a => exact fells.elim
  | fail e => exact fells.elim
  | act effect next ih =>
    intro s ok
    rcases fells s ok with fallen | rest
    · exact .inl fallen
    · exact .inr (ih s rest)

theorem fells_after {p : Prog State Err A} {k : A → Prog State Err B} (succeeds : S.Succeeds p)
    (rest : ∀ a, S.Fells x (k a)) : S.Fells x (p >>= k) := by
  show S.Fells x (bind p k)
  induction p with
  | done a => exact rest a
  | fail e => exact succeeds.elim
  | act effect next ih => exact fun s ok => .inr (ih s (succeeds s ok))

theorem fells_single {p : Prog State Err A} (one : Single p)
    (falls : ∀ s, S.valid s → ¬ S.stands x (run p s).2) : S.Fells x p := by
  obtain ⟨effect, next, rfl, finished⟩ := one
  intro s ok
  have fallen := falls s ok
  have ends := finished s
  simp only [run] at fallen
  cases answer : next s with
  | done a =>
    rw [answer] at fallen
    exact .inl fallen
  | fail e =>
    rw [answer] at fallen
    exact .inl fallen
  | act effect' next' =>
    rw [answer] at ends
    exact ends.elim

/-- What comes after one action may depend on what it answers. -/
theorem fells_single_bind {p : Prog State Err A} (one : Single p) {k : A → Prog State Err B}
    (falls : ∀ s, S.valid s → ∃ a t, run p s = (.ok a, t) ∧ (¬ S.stands x t ∨ S.Fells x (k a))) :
    S.Fells x (p >>= k) := by
  obtain ⟨effect, next, rfl, finished⟩ := one
  show S.Fells x (bind (.act effect next) k)
  intro s ok
  obtain ⟨a, t, ran, rest⟩ := falls s ok
  have ends := finished s
  simp only [run] at ran
  cases answer : next s with
  | done b =>
    rw [answer] at ran
    cases ran
    rcases rest with fallen | fells
    · exact .inl fallen
    · refine .inr ?_
      show S.Fells x (bind (next s) k)
      rw [answer]
      exact fells
  | fail e =>
    rw [answer] at ran
    cases ran
  | act effect' next' =>
    rw [answer] at ends
    exact ends.elim

theorem succeeds_bind {p : Prog State Err A} {k : A → Prog State Err B} (first : S.Succeeds p)
    (rest : ∀ a, S.Succeeds (k a)) : S.Succeeds (p >>= k) := by
  show S.Succeeds (bind p k)
  induction p with
  | done a => exact rest a
  | fail e => exact first.elim
  | act effect next ih => exact fun s ok => ih s (first s ok)

theorem succeeds_attempt (p : Prog State Err A) : S.Succeeds (attempt p) := by
  induction p with
  | done a => trivial
  | fail e => trivial
  | act effect next ih => exact fun s _ => ih s

theorem succeeds_single {p : Prog State Err A} (one : Single p)
    (answers : ∀ s, S.valid s → ∃ a, (run p s).1 = .ok a) : S.Succeeds p := by
  obtain ⟨effect, next, rfl, finished⟩ := one
  intro s ok
  obtain ⟨a, ran⟩ := answers s ok
  have ends := finished s
  simp only [run] at ran
  cases answer : next s with
  | done b => trivial
  | fail e =>
    rw [answer] at ran
    cases ran
  | act effect' next' =>
    rw [answer] at ends
    exact ends.elim

theorem succeeds_forEach {items : List A} {body : A → Prog State Err Unit}
    (each : ∀ a ∈ items, S.Succeeds (body a)) : S.Succeeds (forEach items body) := by
  induction items with
  | nil => trivial
  | cons a rest ih =>
    exact succeeds_bind (each a List.mem_cons_self) fun _ =>
      ih fun b member => each b (List.mem_cons_of_mem a member)

theorem fells_forEach {items : List A} {body : A → Prog State Err Unit} {a : A}
    (member : a ∈ items) (fells : S.Fells x (body a))
    (each : ∀ b ∈ items, S.Succeeds (body b)) : S.Fells x (forEach items body) := by
  induction items with
  | nil => cases member
  | cons b rest ih =>
    rcases List.mem_cons.mp member with rfl | later
    · exact fells_bind fells
    · exact fells_after (each b List.mem_cons_self) fun _ =>
        ih later fun d inRest => each d (List.mem_cons_of_mem b inRest)

/-- A program that does not fail in valid states ends without an error where it runs alone. -/
theorem run_succeeds {post : Except Err A → State → Prop} {p : Prog State Err A} {s : State}
    (succeeds : S.Succeeds p) (razes : S.Razes post p s) (ok : S.valid s) :
    ∃ a t, run p s = (.ok a, t) := by
  induction p generalizing s with
  | done a => exact ⟨a, s, rfl⟩
  | fail e => exact succeeds.elim
  | act effect next ih =>
    obtain ⟨after, _, _, rest⟩ := razes s (later_refl s) ok
    exact ih s (succeeds s ok) rest after

end Felling

/-! What only takes pieces off -/

section Razing
variable {post : Except Err A → State → Prop}

theorem razes_mono {p : Prog State Err A} {s t : State} (razes : S.Razes post p s)
    (later : S.Later s t) : S.Razes post p t := by
  cases p with
  | done a => exact fun u further ok => razes u (later_trans later further) ok
  | fail e => exact fun u further ok => razes u (later_trans later further) ok
  | act effect next => exact fun u further ok => razes u (later_trans later further) ok

theorem razes_bind {first : Except Err B → State → Prop} {p : Prog State Err B}
    {k : B → Prog State Err A} {s : State} (ok : S.valid s) (razes : S.Razes first p s)
    (resume : ∀ b t, S.valid t → S.Later s t → first (.ok b) t → S.Razes post (k b) t)
    (fails : ∀ e t, S.valid t → first (.error e) t → post (.error e) t) :
    S.Razes post (p >>= k) s := by
  show S.Razes post (bind p k) s
  induction p generalizing s with
  | done b => exact resume b s ok (later_refl s) (razes s (later_refl s) ok)
  | fail e => exact fun t later ok' => fails e t ok' (razes t later ok')
  | act effect next ih =>
    intro t later ok'
    obtain ⟨after, onward, all, rest⟩ := razes t later ok'
    refine ⟨after, onward, ?_, ?_⟩
    · intro g whole begun x piece
      exact fells_bind (k := k) (all g whole begun x piece)
    · exact ih t after rest fun b u ok'' further promised =>
        resume b u ok'' (later_trans later (later_trans onward further)) promised

theorem razes_weaken {promise : Except Err A → State → Prop} {p : Prog State Err A} {s : State}
    (razes : S.Razes promise p s) (implies : ∀ r t, promise r t → post r t) :
    S.Razes post p s := by
  induction p generalizing s with
  | done a => exact fun t later ok => implies _ t (razes t later ok)
  | fail e => exact fun t later ok => implies _ t (razes t later ok)
  | act effect next ih =>
    intro t later ok
    obtain ⟨after, onward, all, rest⟩ := razes t later ok
    exact ⟨after, onward, all, ih t rest⟩

/-- Where the program runs alone, its answer is as promised. -/
theorem razes_run {p : Prog State Err A} {s : State} (razes : S.Razes post p s)
    (ok : S.valid s) : post (run p s).1 (run p s).2 := by
  induction p generalizing s with
  | done a => exact razes s (later_refl s) ok
  | fail e => exact razes s (later_refl s) ok
  | act effect next ih =>
    obtain ⟨after, _, _, rest⟩ := razes s (later_refl s) ok
    exact ih s rest after

theorem razes_of_quiet {p : Prog State Err A} {s : State}
    (safe : Safe S.valid S.Later Eq post p s) : S.Razes post p s := by
  induction p generalizing s with
  | done a => exact safe
  | fail e => exact safe
  | act effect next ih =>
    intro t later ok
    obtain ⟨after, same, rest⟩ := safe t later ok
    rw [← same] at rest after ⊢
    exact ⟨ok, later_refl t, fun g whole begun => absurd begun whole, ih t rest⟩

end Razing

/-! Work on one thing -/

/-- Among others the program does not fail, takes off pieces of one thing only, and its answer
    and the state it ends in are as promised. -/
def Performs (S : Site State Piece Thing) (g : Thing) (P : A → State → Prop)
    (p : Prog State Err A) (s : State) : Prop :=
  Safe S.valid S.Later (S.Within g) (fun r t => ∃ a, r = .ok a ∧ P a t) p s

section Work
variable {g : Thing} {P : A → State → Prop} {s : State}

theorem performs_pure {a : A} (known : ∀ t, S.Later s t → P a t) :
    S.Performs g P (pure a : Prog State Err A) s := fun t later _ => ⟨a, rfl, known t later⟩

theorem performs_weaken {Q : A → State → Prop} {p : Prog State Err A} (work : S.Performs g P p s)
    (implies : ∀ a t, P a t → Q a t) : S.Performs g Q p s := by
  refine safe_weaken work ?_
  rintro r t _ ⟨a, same, known⟩
  exact ⟨a, same, implies a t known⟩

theorem performs_single {p : Prog State Err A} (one : Single p)
    (runs : ∀ t, S.Later s t → S.valid t → ∃ a u, run p t = (.ok a, u) ∧ S.valid u ∧
      S.Within g t u ∧ ∀ v, S.Later u v → P a v) : S.Performs g P p s := by
  apply safe_single one
  intro t later ok
  obtain ⟨a, u, ran, valid, within, known⟩ := runs t later ok
  exact ⟨.ok a, u, ran, valid, within, fun v further _ => ⟨a, rfl, known v further⟩⟩

theorem performs_bind {Q : B → State → Prop} {p : Prog State Err B} {k : B → Prog State Err A}
    (ok : S.valid s) (first : S.Performs g Q p s)
    (rest : ∀ b t, S.valid t → S.Later s t → Q b t → S.Performs g P (k b) t) :
    S.Performs g P (p >>= k) s := by
  refine safe_seq later_refl later_refl (fun _ _ _ => later_trans) (fun _ _ later => later)
    (fun _ _ within => within.1) ok first ?_ ?_
  · rintro b t valid later ⟨b', same, known⟩
    cases same
    exact rest b t valid later known
  · rintro e t _ _ ⟨b, impossible, _⟩
    cases impossible

/-- What is not undone by anything that falls still holds at the end. -/
theorem performs_keeping {fact : State → Prop} (stable : ∀ t u, fact t → S.Later t u → fact u)
    {p : Prog State Err A} (work : S.Performs g P p s) (holds : fact s) :
    S.Performs g (fun a t => P a t ∧ fact t) p s := by
  refine safe_weaken (safe_carry (fun t u known later _ => stable t u known later)
    (fun t u known within _ => stable t u known within.1) work holds) ?_
  rintro r t _ ⟨⟨a, same, known⟩, kept⟩
  exact ⟨a, same, known, kept⟩

theorem performs_forEach {Q : B → State → Prop} (stable : ∀ b t u, Q b t → S.Later t u → Q b u)
    {items : List B} {body : B → Prog State Err Unit} (ok : S.valid s)
    (each : ∀ b ∈ items, ∀ t, S.valid t → S.Later s t →
      S.Performs g (fun _ u => Q b u) (body b) t) :
    S.Performs g (fun _ t => ∀ b ∈ items, Q b t) (forEach items body) s := by
  induction items generalizing s with
  | nil => exact performs_pure fun _ _ => by simp
  | cons b rest ih =>
    refine performs_bind ok (each b List.mem_cons_self s ok (later_refl s)) ?_
    intro _ t valid later first
    have others := ih valid fun d member u valid' further =>
      each d (List.mem_cons_of_mem b member) u valid' (later_trans later further)
    refine performs_weaken (performs_keeping (stable b) others first) ?_
    rintro _ u ⟨later, first⟩ d member
    rcases List.mem_cons.mp member with rfl | inRest
    · exact first
    · exact later d inRest

/-- Such a program only takes pieces off, once somebody has begun on its thing or if it takes
    off all of it. -/
theorem razes_of_performs {p : Prog State Err A} (work : S.Performs g P p s)
    (pledged : S.Begun g s ∨ ∀ x, S.pieces g x → S.Fells x p) :
    S.Razes (fun r t => ∃ a, r = .ok a ∧ P a t) p s := by
  induction p generalizing s with
  | done a => exact work
  | fail e => exact work
  | act effect next ih =>
    intro t later ok
    obtain ⟨after, within, rest⟩ := work t later ok
    refine ⟨after, within.1, ?_, ih t rest ?_⟩
    · intro h whole begun
      by_cases same : h = g
      · subst same
        rcases pledged with before | fells
        · exact absurd (begun_later before later) whole
        · exact fells
      · obtain ⟨x, piece, fallen⟩ := begun
        refine absurd (within.2 h same x piece ?_) fallen
        by_contra gone
        exact whole ⟨x, piece, gone⟩
    · by_cases begun : S.Begun g (effect t)
      · exact .inl begun
      · rcases pledged with before | fells
        · exact .inl (begun_later before (later_trans later within.1))
        · refine .inr fun x piece => ?_
          rcases fells x piece t ok with fallen | onward
          · exact absurd ⟨x, piece, fallen⟩ begun
          · exact onward

end Work

/-! Programs that read only what nobody changes -/

/-- In every valid state the program does as in the given one: it changes nothing and sees the
    same. -/
def Steady (S : Site State Piece Thing) (s : State) : Prog State Err A → Prop
  | .act effect next => (∀ t, S.valid t → effect t = t ∧ next t = next s) ∧ Steady S s (next s)
  | _ => True

section Reading
variable {s : State}

theorem steady_bind {p : Prog State Err A} {k : A → Prog State Err B} (first : S.Steady s p)
    (rest : ∀ a, S.Steady s (k a)) : S.Steady s (p >>= k) := by
  show S.Steady s (bind p k)
  induction p with
  | done a => exact rest a
  | fail e => trivial
  | act effect next ih =>
    refine ⟨fun t ok => ?_, ih s first.2⟩
    obtain ⟨quiet, same⟩ := first.1 t ok
    exact ⟨quiet, congrArg (bind · k) same⟩

theorem steady_attempt {p : Prog State Err A} (steady : S.Steady s p) :
    S.Steady s (attempt p) := by
  induction p with
  | done a => trivial
  | fail e => trivial
  | act effect next ih =>
    refine ⟨fun t ok => ?_, ih s steady.2⟩
    obtain ⟨quiet, same⟩ := steady.1 t ok
    exact ⟨quiet, congrArg attempt same⟩

theorem steady_single {p : Prog State Err A} (one : Single p)
    (same : ∀ t, S.valid t → run p t = ((run p s).1, t)) : S.Steady s p := by
  obtain ⟨effect, next, rfl, finished⟩ := one
  have ended : ∀ t, ∃ r : Except Err A, next t = ofExcept r := by
    intro t
    have ends := finished t
    cases answer : next t with
    | done a => exact ⟨.ok a, rfl⟩
    | fail e => exact ⟨.error e, rfl⟩
    | act effect' next' =>
      rw [answer] at ends
      exact ends.elim
  choose r answers using ended
  have ran : ∀ t, run (.act effect next) t = (r t, effect t) := by
    intro t
    rw [run, answers t, run_ofExcept]
  refine ⟨fun t ok => ?_, ?_⟩
  · have seen := same t ok
    rw [ran, ran, Prod.mk.injEq] at seen
    exact ⟨seen.2, by rw [answers, answers, seen.1]⟩
  · rw [answers]
    cases r s <;> trivial

theorem safe_steady {rely : State → State → Prop} (first : S.valid s) {p : Prog State Err A}
    (steady : S.Steady s p) (t : State) :
    Safe S.valid rely Eq (fun r _ => r = (run p s).1) p t := by
  induction p generalizing t with
  | done a => exact fun _ _ _ => rfl
  | fail e => exact fun _ _ _ => rfl
  | act effect next ih =>
    intro u _ ok
    obtain ⟨quiet, same⟩ := steady.1 u ok
    rw [quiet, same]
    have here := (steady.1 s first).1
    refine ⟨ok, rfl, ?_⟩
    simp only [run, here]
    exact ih s steady.2 u

theorem succeeds_steady {p : Prog State Err A} {k : A → Prog State Err B} (first : S.valid s)
    (steady : S.Steady s p) {a : A} (answer : (run p s).1 = .ok a)
    (rest : S.Succeeds (k a)) : S.Succeeds (p >>= k) := by
  show S.Succeeds (bind p k)
  induction p with
  | done b =>
    cases answer
    exact rest
  | fail e => cases answer
  | act effect next ih =>
    intro t ok
    show S.Succeeds (bind (next t) k)
    rw [(steady.1 t ok).2]
    simp only [run, (steady.1 s first).1] at answer
    exact ih s steady.2 answer

end Reading
end Site
end Prog

namespace StepMachine
open Prog Site

/-! Any number of such programs -/

section Crew
variable {State Err A Piece Thing Request : Type} (prog : Request → Prog State Err A)

/-- Programs for the requests, with nobody else about. -/
def crew : Work State (Prog State Err A) Unit Request Empty where
  begin r _ := some (prog r, ())
  step := Prog.step
  outside o := o.elim

variable {S : Site State Piece Thing} {post : Except Err A → State → Prop}
  {starts : State → Unit → Prop} {prog}

/-- What still stands of a thing somebody has begun on, a program of the pool will take off. -/
structure Dismantling (S : Site State Piece Thing) (post : Except Err A → State → Prop)
    (p : Pool State (Prog State Err A) Unit) : Prop where
  valid : S.valid p.shared
  razes : ∀ t ∈ p.tasks, S.Razes post t p.shared
  owed : ∀ g, S.Begun g p.shared → ∀ x, S.pieces g x → S.stands x p.shared →
    ∃ t ∈ p.tasks, S.Fells x t

theorem dismantling_step {p q : Pool State (Prog State Err A) Unit}
    (begins : ∀ r s, S.valid s → S.Razes post (prog r) s) (now : Dismantling S post p)
    {a : PoolAction Request Empty} (next : (pool (crew prog) starts).step p a = some q) :
    Dismantling S post q := by
  rcases pool_cases next with ⟨r, t, l, rfl, begun, rfl⟩ | ⟨i, t, u, s, rfl, found, taken, rfl⟩ |
    ⟨o, rfl, rfl⟩
  · cases begun
    refine ⟨now.valid, ?_, ?_⟩
    · intro v member
      rcases List.mem_append.mp member with old | new
      · exact now.razes v old
      · rw [List.mem_singleton.mp new]
        exact begins r _ now.valid
    · intro g begun x piece stands
      obtain ⟨v, member, fells⟩ := now.owed g begun x piece stands
      exact ⟨v, List.mem_append_left _ member, fells⟩
  · have own := now.razes t (List.mem_of_getElem? found)
    cases t with
    | done a => cases taken
    | fail e => cases taken
    | act effect resume =>
      cases taken
      obtain ⟨valid, later, all, rest⟩ := own _ (later_refl _) now.valid
      -- Whoever owes a piece that still stands goes on to owe it.
      have owing : ∀ x, S.stands x (effect p.shared) →
          (∃ v ∈ p.tasks, S.Fells x v) → ∃ v ∈ p.tasks.set i (resume p.shared), S.Fells x v := by
        rintro x stands ⟨v, member, fells⟩
        rcases mem_stays found member (resume p.shared) with rfl | stays
        · rcases fells _ now.valid with fallen | onward
          · exact absurd stands fallen
          · exact ⟨_, moved_mem found _, onward⟩
        · exact ⟨v, stays, fells⟩
      refine ⟨valid, ?_, ?_⟩
      · intro v member
        rcases mem_moved found member with rfl | ⟨old, _⟩
        · exact rest
        · exact razes_mono (now.razes v old) later
      · intro g begun x piece stands
        apply owing x stands
        by_cases before : S.Begun g p.shared
        · exact now.owed g before x piece (later x stands)
        · exact ⟨_, List.mem_of_getElem? found, all g before begun x piece⟩
  · exact o.elim

theorem dismantling_run {p q : Pool State (Prog State Err A) Unit}
    (begins : ∀ r s, S.valid s → S.Razes post (prog r) s) (now : Dismantling S post p)
    (path : Run (pool (crew prog) starts) (fun _ _ => True) p q) : Dismantling S post q :=
  run_invariant (fun _ _ _ hold _ next => dismantling_step begins hold next) path now

/-- Once all programs have ended, nothing is left of what was begun. -/
theorem dismantled {p : Pool State (Prog State Err A) Unit} (now : Dismantling S post p)
    (ended : ∀ t ∈ p.tasks, t.Finished) {g : Thing} (begun : S.Begun g p.shared) {x : Piece}
    (piece : S.pieces g x) : ¬ S.stands x p.shared := by
  intro stands
  obtain ⟨t, member, fells⟩ := now.owed g begun x piece stands
  have done := ended t member
  cases t with
  | done a => exact fells
  | fail e => exact fells
  | act effect next => exact done

theorem dismantling_answer {p : Pool State (Prog State Err A) Unit} (now : Dismantling S post p)
    {t : Prog State Err A} (member : t ∈ p.tasks) {r : Except Err A} (ended : t.answer = some r) :
    post r p.shared := by
  have razes := now.razes t member
  cases t with
  | done a =>
    cases ended
    exact razes _ (later_refl _) now.valid
  | fail e =>
    cases ended
    exact razes _ (later_refl _) now.valid
  | act effect next => cases ended

theorem run_cons {State Action : Type} {m : Machine State Action} {s t u : State} {a : Action}
    (first : m.step s a = some t) (path : Run m (fun _ _ => True) t u) :
    Run m (fun _ _ => True) s u := by
  induction path with
  | refl => exact .tail (.refl s) trivial first
  | tail _ ok next ih => exact .tail ih ok next

variable (prog starts) in
/-- A program that runs alone is a run of the pool. -/
theorem crew_alone {p : Prog State Err A} {s u : State} {r : Except Err A}
    (ran : Prog.run p s = (r, u)) :
    ∃ t : Prog State Err A, t.answer = some r ∧
      Run (pool (crew prog) starts) (fun _ _ => True) ⟨s, [p], ()⟩ ⟨u, [t], ()⟩ := by
  induction p generalizing s with
  | done a =>
    cases ran
    exact ⟨_, rfl, .refl _⟩
  | fail e =>
    cases ran
    exact ⟨_, rfl, .refl _⟩
  | act effect next ih =>
    obtain ⟨t, ended, path⟩ := ih s ran
    exact ⟨t, ended, run_cons (a := .resume 0) rfl path⟩

end Crew
end StepMachine
