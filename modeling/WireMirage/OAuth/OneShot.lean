import WireMirage.OAuth.Requests
import WireMirage.OAuth.Provenance

/-!
How often a credential is consumed when any number of requests present it, one storage
step at a time. It is read before it is marked as used or deleted, so it is one-shot in
the runs where it is still as it was read when it is marked.
-/
namespace WireMirage
open Prog StepMachine

/-! The pool -/

section Pools
variable [Platform]

abbrev CredentialPool := Pool AdminStore CredentialTask (List AdminKey)

/-- A request that may mint a credential draws one that was never drawn before. -/
def credentialWork : Work AdminStore CredentialTask (List AdminKey) CredentialRequest Nat where
  begin r drawn := if r.mints ∈ drawn then none else some (r.launch, r.mints :: drawn)
  step := CredentialTask.step
  outside seconds s := s.advance seconds

structure CredentialsDrawn (s : AdminStore) (drawn : List AdminKey) : Prop where
  kinded : s.WellKinded
  known : ∀ k, k.credential = true → recordAt s k ≠ none → k ∈ drawn

abbrev credentials : Machine CredentialPool (PoolAction CredentialRequest Nat) :=
  pool credentialWork CredentialsDrawn

/-- Every run of the requests' programs is a run of their positions. -/
theorem credentials_programs {starts : AdminStore → List AdminKey → Prop} {p : CredentialPool}
    {P Q : Pool AdminStore (Flow Unit) (List AdminKey)}
    (path : Run (pool (programs (fun r drawn => if CredentialRequest.mints r ∈ drawn then none
        else some (r.program, r.mints :: drawn)) (fun seconds s => Storage.advance seconds s))
      starts) (fun _ _ => True) P Q)
    (first : P = ⟨p.shared, p.tasks.map CredentialTask.code, p.log⟩) :
    ∃ q : CredentialPool, Q = ⟨q.shared, q.tasks.map CredentialTask.code, q.log⟩ ∧
      Run (pool credentialWork starts) (fun _ _ => True) p q := by
  have launched : ∀ (r : CredentialRequest) (drawn : List AdminKey),
      (credentialWork.begin r drawn).map (fun b => (CredentialTask.code b.1, b.2)) =
        if r.mints ∈ drawn then none else some (r.program, r.mints :: drawn) := by
    intro r drawn
    simp only [credentialWork]
    split
    · rfl
    · rw [Option.map_some, launch_code]
  apply run_programs CredentialTask.code credential_task_step _ first
  simp only [launched]
  exact path

end Pools

namespace CredentialTask

/-- The credential that a request has marked as used or deleted. -/
def took (t : CredentialTask) : Option AdminKey :=
  match t.position with
  | .spent _ key _ _ => some key
  | _ => none

/-- The credential that a request has read as unused. -/
def holds (t : CredentialTask) : Option AdminKey :=
  match t.position with
  | .spending _ key _ => some key
  | .spent _ key _ _ => some key
  | _ => none

variable [Platform]

/-- The credentials that a request may still write. -/
def owes (t : CredentialTask) : List AdminKey :=
  match t.position with
  | .spent _ _ _ left => minted left
  | .refused => []
  | _ => [t.request.mints]

/-- A request that has written all it grants, which is something: tokens, or a code. -/
def issued (t : CredentialTask) : Bool :=
  match t.position with
  | .spent who _ v [] => !(t.request.grants who v).isEmpty
  | _ => false

end CredentialTask

section OneShot
variable [Platform]

/-- Of the requests that present one credential, at most one issues. -/
def OneShot (p : CredentialPool) : Prop :=
  ∀ (i j : Nat) (t u : CredentialTask) (key : AdminKey), p.tasks[i]? = some t →
    p.tasks[j]? = some u → t.request.presented = some key → u.request.presented = some key →
    t.issued → u.issued → i = j

/-- Two requests have marked or deleted one credential. -/
def TakenTwice (p : CredentialPool) : Prop :=
  ∃ (i j : Nat) (t u : CredentialTask) (key : AdminKey), i ≠ j ∧ p.tasks[i]? = some t ∧
    p.tasks[j]? = some u ∧ t.took = some key ∧ u.took = some key

/-- A request that goes to mark or delete a credential finds it as it was read; one that has
    expired since was taken by nobody. -/
def unraced (p : CredentialPool) : PoolAction CredentialRequest Nat → Bool
  | .resume i =>
    match p.tasks[i]?.map CredentialTask.position with
    | some (.spending _ key v) =>
      match recordAt p.shared key with
      | some w => w = v
      | none => p.tasks.all (fun u => u.took ≠ some key)
    | _ => true
  | _ => true

/-! What holds along a run -/

structure Consuming (p : CredentialPool) : Prop where
  drawn : CredentialsDrawn p.shared p.log
  formed : ∀ t ∈ p.tasks, t.Formed
  owed : ∀ t ∈ p.tasks, ∀ k ∈ t.owes, k.credential = true ∧ k ∈ p.log ∧
    recordAt p.shared k = none ∧ ∀ u ∈ p.tasks, u.holds ≠ some k
  apart : ∀ (i j : Nat) (t u : CredentialTask) (k : AdminKey), p.tasks[i]? = some t →
    p.tasks[j]? = some u → k ∈ t.owes → k ∈ u.owes → i = j
  held : ∀ t ∈ p.tasks, ∀ k, t.holds = some k → k ∈ p.log
  marked : ∀ t ∈ p.tasks, ∀ k w, t.took = some k → recordAt p.shared k = some w →
    ∀ now, spend now k w = none
  once : ∀ (i j : Nat) (t u : CredentialTask) (k : AdminKey), p.tasks[i]? = some t →
    p.tasks[j]? = some u → t.took = some k → u.took = some k → i = j
  stale : ∀ t ∈ p.tasks, ∀ who k v, t.position = .spending who k v →
    ∀ w, recordAt p.shared k = some w → w = v ∨ ∃ u ∈ p.tasks, u.took = some k

omit [Platform] in
theorem holds_of_took {t : CredentialTask} {k : AdminKey} (took : t.took = some k) :
    t.holds = some k := by
  obtain ⟨r, position⟩ := t
  cases position with
  | spent who key v left => exact took
  | _ => cases took

theorem credential_of_holds {t : CredentialTask} (formed : t.Formed) {k : AdminKey}
    (holds : t.holds = some k) : k.credential = true := by
  obtain ⟨r, position⟩ := t
  cases position with
  | spending who key v =>
    cases holds
    exact presented_credential formed.1
  | spent who key v left =>
    cases holds
    exact presented_credential formed.1
  | _ => cases holds

/-- How one step of a task changes the credentials that are stored, owed and held. -/
structure Moves (p : CredentialPool) (t u : CredentialTask) (s : AdminStore) : Prop where
  kinded : s.WellKinded
  formed : u.Formed
  owes : ∀ k ∈ u.owes, k ∈ t.owes
  holds : ∀ k, u.holds = some k → t.holds = some k ∨ recordAt p.shared k ≠ none
  record : ∀ k, k.credential = true → recordAt s k = recordAt p.shared k ∨
    (k ∈ t.owes ∧ k ∉ u.owes) ∨ (t.holds = some k ∧ u.took = some k ∧
      ∀ w, recordAt s k = some w → ∀ now, spend now k w = none)
  keeps : ∀ k, t.took = some k → u.took = some k
  takes : ∀ k, u.took = some k → t.took = some k ∨ (t.holds = some k ∧
    (∀ v ∈ p.tasks, v.took ≠ some k) ∧
      ∀ w, recordAt s k = some w → ∀ now, spend now k w = none)
  reads : ∀ who k v, u.position = .spending who k v → recordAt s k = some v

section Moved
variable {p : CredentialPool} {i : Nat} {t u : CredentialTask} {s : AdminStore}
  (consuming : Consuming p) (found : p.tasks[i]? = some t) (moves : Moves p t u s)
include consuming found moves

/-- An owed credential is not stored, and stays so as long as it is owed. -/
theorem owed_moved {j : Nat} {v : CredentialTask} (at_ : (p.tasks.set i u)[j]? = some v)
    {k : AdminKey} (owes : k ∈ v.owes) : k.credential = true ∧ k ∈ p.log ∧
      recordAt s k = none ∧ ∀ w ∈ p.tasks.set i u, w.holds ≠ some k := by
  have member := List.mem_of_getElem? found
  obtain ⟨old, oldAt, oldOwes, here⟩ : ∃ old, old ∈ p.tasks ∧ k ∈ old.owes ∧
      (k ∈ t.owes → k ∈ u.owes) := by
    rcases at_moved found at_ with ⟨rfl, rfl⟩ | ⟨other, elsewhere⟩
    · exact ⟨t, member, moves.owes k owes, fun _ => owes⟩
    · refine ⟨v, List.mem_of_getElem? elsewhere, owes, ?_⟩
      intro both
      exact absurd (consuming.apart j i v t k elsewhere found owes both) other
  obtain ⟨credential, known, absent, free⟩ := consuming.owed old oldAt k oldOwes
  refine ⟨credential, known, ?_, ?_⟩
  · rcases moves.record k credential with same | ⟨owed, paid⟩ | ⟨holds, _⟩
    · rw [same, absent]
    · exact absurd (here owed) paid
    · exact absurd holds (free t member)
  · intro w within holds
    rcases mem_moved found within with rfl | ⟨before, _⟩
    · rcases moves.holds k holds with held | stored
      · exact free t member held
      · exact stored absent
    · exact free w before holds

theorem marked_moved {v : CredentialTask} (within : v ∈ p.tasks.set i u) {k : AdminKey}
    (took : v.took = some k) {w : AdminVal} (stored : recordAt s k = some w) (now : Time) :
    spend now k w = none := by
  have member := List.mem_of_getElem? found
  have old : ∀ x ∈ p.tasks, x.took = some k → spend now k w = none := by
    intro x before taken
    have holds := holds_of_took taken
    have credential := credential_of_holds (consuming.formed x before) holds
    rcases moves.record k credential with same | ⟨owed, _⟩ | ⟨_, _, spent⟩
    · rw [same] at stored
      exact consuming.marked x before k w taken stored now
    · exact absurd holds ((consuming.owed t member k owed).2.2.2 x before)
    · exact spent w stored now
  rcases mem_moved found within with rfl | ⟨before, _⟩
  · rcases moves.takes k took with already | ⟨_, _, spent⟩
    · exact old t member already
    · exact spent w stored now
  · exact old v before took

theorem once_moved {j l : Nat} {v w : CredentialTask} {k : AdminKey}
    (one : (p.tasks.set i u)[j]? = some v) (two : (p.tasks.set i u)[l]? = some w)
    (took : v.took = some k) (took' : w.took = some k) : j = l := by
  have mixed : ∀ (j : Nat) (v : CredentialTask), j ≠ i → p.tasks[j]? = some v →
      v.took = some k → u.took = some k → False := by
    intro j v other at_ here there
    rcases moves.takes k there with already | ⟨_, nobody, _⟩
    · exact other (consuming.once j i v t k at_ found here already)
    · exact nobody v (List.mem_of_getElem? at_) here
  rcases at_moved found one with ⟨rfl, rfl⟩ | ⟨other, at_⟩
  · rcases at_moved found two with ⟨rfl, rfl⟩ | ⟨other', at_'⟩
    · rfl
    · exact (mixed l w other' at_' took' took).elim
  · rcases at_moved found two with ⟨rfl, rfl⟩ | ⟨other', at_'⟩
    · exact (mixed j v other at_ took took').elim
    · exact consuming.once j l v w k at_ at_' took took'

theorem stale_moved {v : CredentialTask} (within : v ∈ p.tasks.set i u) {who : String}
    {k : AdminKey} {x : AdminVal} (reads : v.position = .spending who k x) {w : AdminVal}
    (stored : recordAt s k = some w) : w = x ∨ ∃ y ∈ p.tasks.set i u, y.took = some k := by
  have member := List.mem_of_getElem? found
  rcases mem_moved found within with rfl | ⟨before, _⟩
  · have same := moves.reads who k x reads
    rw [stored, Option.some.injEq] at same
    exact .inl same
  · have holds : v.holds = some k := by
      unfold CredentialTask.holds
      rw [reads]
    have credential := credential_of_holds (consuming.formed v before) holds
    rcases moves.record k credential with same | ⟨owed, _⟩ | ⟨_, took, _⟩
    · rw [same] at stored
      rcases consuming.stale v before who k x reads w stored with kept | ⟨y, taker, took⟩
      · exact .inl kept
      · rcases mem_stays found taker u with rfl | stays
        · exact .inr ⟨u, moved_mem found u, moves.keeps k took⟩
        · exact .inr ⟨y, stays, took⟩
    · exact absurd holds ((consuming.owed t member k owed).2.2.2 v before)
    · exact .inr ⟨u, moved_mem found u, took⟩

theorem consuming_moved : Consuming ⟨s, p.tasks.set i u, p.log⟩ where
  drawn := by
    have member := List.mem_of_getElem? found
    refine ⟨moves.kinded, ?_⟩
    intro k credential stored
    rcases moves.record k credential with same | ⟨owed, _⟩ | ⟨holds, _⟩
    · exact consuming.drawn.known k credential (same ▸ stored)
    · exact (consuming.owed t member k owed).2.1
    · exact consuming.held t member k holds
  formed := by
    intro v within
    rcases mem_moved found within with rfl | ⟨before, _⟩
    · exact moves.formed
    · exact consuming.formed v before
  owed := by
    intro v within k owes
    obtain ⟨j, at_⟩ := List.mem_iff_getElem?.mp within
    exact owed_moved consuming found moves at_ owes
  apart := by
    intro j l v w k one two owes owes'
    rcases at_moved found one with ⟨rfl, rfl⟩ | ⟨_, at_⟩
    · rcases at_moved found two with ⟨rfl, rfl⟩ | ⟨_, at_'⟩
      · rfl
      · exact consuming.apart _ l t w k found at_' (moves.owes k owes) owes'
    · rcases at_moved found two with ⟨rfl, rfl⟩ | ⟨_, at_'⟩
      · exact consuming.apart j _ v t k at_ found owes (moves.owes k owes')
      · exact consuming.apart j l v w k at_ at_' owes owes'
  held := by
    intro v within k holds
    have member := List.mem_of_getElem? found
    rcases mem_moved found within with rfl | ⟨before, _⟩
    · rcases moves.holds k holds with held | stored
      · exact consuming.held t member k held
      · exact consuming.drawn.known k (credential_of_holds moves.formed holds) stored
    · exact consuming.held v before k holds
  marked := fun v within k w took stored now =>
    marked_moved consuming found moves within took stored now
  once := fun j l v w k one two took took' => once_moved consuming found moves one two took took'
  stale := fun v within who k x reads w stored =>
    stale_moved consuming found moves within reads stored

end Moved

/-! The steps of a request -/

theorem owes_credential {r : CredentialRequest} : r.mints.credential = true := by
  cases r <;> rfl

theorem owes_opened (r : CredentialRequest) (q : Flow (String × AdminKey)) :
    ∀ k ∈ CredentialTask.owes ⟨r, .opened q⟩, k = r.mints := by
  intro k owes
  cases q with
  | done a => exact List.mem_singleton.mp owes
  | fail e => cases owes
  | act effect next => exact List.mem_singleton.mp owes

omit [Platform] in
theorem holds_opened (r : CredentialRequest) (q : Flow (String × AdminKey)) (k : AdminKey) :
    CredentialTask.holds ⟨r, .opened q⟩ ≠ some k := by
  cases q <;> exact nofun

omit [Platform] in
theorem spending_opened (q : Flow (String × AdminKey)) (who : String) (k : AdminKey)
    (v : AdminVal) : CredentialPosition.opened q ≠ .spending who k v := by
  cases q <;> exact nofun

omit [Platform] in
/-- A command of a request that its credential has been spent for either writes a new
    credential or leaves all of them. -/
theorem granting_apply {c : Command AdminKey AdminVal} (granting : Granting c)
    (rest : List (Command AdminKey AdminVal)) (s : AdminStore) {k : AdminKey}
    (credential : k.credential = true) :
    recordAt (c.apply s) k = recordAt s k ∨ minted (c :: rest) = k :: minted rest := by
  cases c with
  | setField key field v =>
    by_cases same : k = key
    · subst same
      exact .inr (if_pos credential)
    · exact .inl (recordAt_of_entry s k ((Command.setField key field v).entry_apply s same))
  | arm key ttl => exact .inl (recordAt_arm s key k _)
  | addMember key x =>
    obtain ⟨user, rfl⟩ := granting
    refine .inl (recordAt_of_entry s k (Command.entry_apply _ s ?_))
    rintro rfl
    cases credential
  | _ => exact granting.elim

theorem minted_suffix {r : CredentialRequest} {who : String} {v : AdminVal}
    {left : List (Command AdminKey AdminVal)} (suffix : left <:+ r.grants who v) :
    minted left = [] ∨ minted left = [r.mints] := by
  have shrinks : ∀ (cs : List (Command AdminKey AdminVal)) c, minted cs <:+ minted (c :: cs) := by
    intro cs c
    cases c with
    | setField key field x =>
      simp only [minted]
      split
      · exact List.suffix_cons _ _
      · exact List.suffix_rfl
    | _ => exact List.suffix_rfl
  have bound : ∀ cs : List (Command AdminKey AdminVal), left <:+ cs →
      minted left <:+ minted cs := by
    intro cs
    induction cs with
    | nil =>
      intro tail
      cases List.suffix_nil.mp tail
      exact List.suffix_rfl
    | cons c cs ih =>
      intro tail
      rcases List.suffix_cons_iff.mp tail with rfl | later
      · exact List.suffix_rfl
      · exact (ih later).trans (shrinks cs c)
  have within := bound _ suffix
  rcases minted_grants r who v with none | one
  · rw [none] at within
    exact .inl (List.suffix_nil.mp within)
  · rw [one] at within
    rcases List.suffix_cons_iff.mp within with same | later
    · exact .inr same
    · exact .inl (List.suffix_nil.mp later)

omit [Platform] in
theorem recordAt_spent {now : Time} {key : AdminKey} {v : AdminVal}
    {c : Command AdminKey AdminVal} (spends : spend now key v = some c) (s : AdminStore) :
    (∀ w, recordAt (c.apply s) key = some w → ∀ later, spend later key w = none) ∧
      ∀ k, k ≠ key → recordAt (c.apply s) k = recordAt s k := by
  obtain ⟨_, rfl | ⟨w, rfl, spent⟩⟩ := spend_cases spends
  · constructor
    · intro w stored
      rw [Command.apply, recordAt_erase, if_pos rfl] at stored
      cases stored
    · intro k other
      rw [Command.apply, recordAt_erase, if_neg other]
  · constructor
    · intro x stored later
      rw [Command.apply, ← recorded, recordAt_recorded, if_pos rfl, Option.some.injEq] at stored
      rw [← stored]
      exact spent later
    · intro k other
      rw [Command.apply, ← recorded, recordAt_recorded, if_neg other]

section Steps
variable {p : CredentialPool} {i : Nat} {t u : CredentialTask} {s : AdminStore}

/-- At the step that spends a credential, nobody has taken it. -/
theorem untaken (consuming : Consuming p) (found : p.tasks[i]? = some t) {who : String}
    {key : AdminKey} {v : AdminVal} (at_ : t.position = .spending who key v)
    (ok : unraced p (.resume i) = true) : ∀ x ∈ p.tasks, x.took ≠ some key := by
  simp only [unraced, found, Option.map_some, at_] at ok
  intro x member took
  cases stored : recordAt p.shared key with
  | none =>
    rw [stored] at ok
    have free := List.all_eq_true.mp ok x member
    simp [took] at free
  | some w =>
    rw [stored] at ok
    have same : w = v := of_decide_eq_true ok
    have spent := consuming.marked x member key w took stored t.request.spentAt
    have formed := consuming.formed t (List.mem_of_getElem? found)
    unfold CredentialTask.Formed at formed
    rw [at_] at formed
    have spendable : (spend t.request.spentAt key v).isSome := formed.2
    rw [← same, spent] at spendable
    cases spendable

theorem moves_of_step (consuming : Consuming p) (found : p.tasks[i]? = some t)
    (ok : unraced p (.resume i) = true) (taken : t.step p.shared = some (u, s)) :
    Moves p t u s := by
  have formed := consuming.formed t (List.mem_of_getElem? found)
  obtain ⟨position, rfl, formedU, kinded, step⟩ :=
    credential_step consuming.drawn.kinded formed taken
  have free : ∀ who key v, t.position = .spending who key v → ∀ x ∈ p.tasks, x.took ≠ some key :=
    fun who key v at_ => untaken consuming found at_ ok
  have untook : ∀ {k}, (none : Option AdminKey) = some k → False := by
    intro k same
    cases same
  obtain ⟨r, before⟩ := t
  simp only at step formedU
  cases step with
  | @opens effect next s only =>
    refine ⟨kinded, formedU, ?_, ?_, ?_, fun k took => (untook took).elim, ?_, ?_⟩
    · intro k owes
      rw [owes_opened r _ k owes]
      exact List.mem_singleton_self _
    · exact fun k holds => absurd holds (holds_opened r _ k)
    · intro k credential
      refine .inl (only.recordAt_eq ?_)
      cases k <;> first | rfl | cases credential
    · exact fun k took => absurd (holds_of_took took) (holds_opened r _ k)
    · exact fun who k v reads => absurd reads (spending_opened _ who k v)
  | refuses =>
    refine ⟨kinded, trivial, fun k owes => absurd owes List.not_mem_nil,
      fun k holds => (untook holds).elim, fun k _ => .inl rfl, fun k took => (untook took).elim,
      fun k took => (untook took).elim, ?_⟩
    intro who k v reads
    cases reads
  | @reads who key v stored =>
    refine ⟨kinded, formedU, fun k owes => owes, ?_, fun k _ => .inl rfl,
      fun k took => (untook took).elim, fun k took => (untook took).elim, ?_⟩
    · intro k holds
      cases holds
      exact .inr (by simp [stored])
    · intro who' k' v' here
      cases here
      exact stored
  | @spends who key v c spends =>
    obtain ⟨spent, others⟩ := recordAt_spent spends p.shared
    refine ⟨kinded, formedU, ?_, fun k holds => .inl holds, ?_,
      fun k took => (untook took).elim, ?_, ?_⟩
    · intro k owes
      rcases minted_grants r who v with none | one
      · simp [CredentialTask.owes, none] at owes
      · simpa [CredentialTask.owes, one] using owes
    · intro k _
      by_cases same : k = key
      · subst same
        exact .inr (.inr ⟨rfl, rfl, spent⟩)
      · exact .inl (others k same)
    · intro k took
      cases took
      exact .inr ⟨rfl, free who key v rfl, spent⟩
    · intro who' k v' reads
      cases reads
  | @drains who key v c rest =>
    have suffix := formed.2.2
    have granting := granting_grants r who v c (suffix.subset List.mem_cons_self)
    refine ⟨kinded, formedU, ?_, fun k holds => .inl holds, ?_, fun k took => took,
      fun k took => .inl took, ?_⟩
    · intro k owes
      show k ∈ minted (c :: rest)
      cases c with
      | setField key' field x =>
        simp only [minted]
        split
        · exact List.mem_cons_of_mem _ owes
        · exact owes
      | _ => exact owes
    · intro k credential
      rcases granting_apply granting rest p.shared credential with same | mints
      · exact .inl same
      · refine .inr (.inl ⟨?_, ?_⟩)
        · show k ∈ minted (c :: rest)
          rw [mints]
          exact List.mem_cons_self
        · show k ∉ minted rest
          rcases minted_suffix suffix with none | one
          · rw [mints] at none
            cases none
          · rw [mints] at one
            rw [(List.cons.inj one).2]
            exact List.not_mem_nil
    · intro who' k v' reads
      cases reads

theorem consuming_launched (consuming : Consuming p) {r : CredentialRequest}
    (fresh : r.mints ∉ p.log) :
    Consuming ⟨p.shared, p.tasks ++ [r.launch], r.mints :: p.log⟩ := by
  have owes : ∀ k ∈ r.launch.owes, k = r.mints := owes_opened r r.opening
  have idle : ∀ k, r.launch.holds ≠ some k := holds_opened r r.opening
  have reads : ∀ who k v, r.launch.position ≠ .spending who k v := spending_opened r.opening
  constructor
  · exact ⟨consuming.drawn.kinded, fun k credential stored =>
      List.mem_cons_of_mem _ (consuming.drawn.known k credential stored)⟩
  · intro t within
    rcases List.mem_append.mp within with old | new
    · exact consuming.formed t old
    · rw [List.mem_singleton.mp new]
      exact formed_launch r
  · intro t within k owed
    have free : ∀ u ∈ p.tasks ++ [r.launch],
        (∀ v ∈ p.tasks, v.holds ≠ some k) → u.holds ≠ some k := by
      intro u member others
      rcases List.mem_append.mp member with old | new
      · exact others u old
      · rw [List.mem_singleton.mp new]
        exact idle k
    rcases List.mem_append.mp within with old | new
    · obtain ⟨credential, known, absent, others⟩ := consuming.owed t old k owed
      exact ⟨credential, List.mem_cons_of_mem _ known, absent,
        fun u member => free u member others⟩
    · rw [List.mem_singleton.mp new] at owed
      obtain rfl := owes k owed
      refine ⟨owes_credential, List.mem_cons_self, ?_, fun u member => free u member ?_⟩
      · by_contra stored
        exact fresh (consuming.drawn.known _ owes_credential stored)
      · exact fun v old holds => fresh (consuming.held v old _ holds)
  · intro j l t u k one two owed owed'
    have apart : ∀ (j : Nat) (v : CredentialTask), p.tasks[j]? = some v → k ∈ v.owes →
        k ≠ r.mints := by
      rintro j v at_ here rfl
      exact fresh (consuming.owed v (List.mem_of_getElem? at_) _ here).2.1
    rcases at_launched one with ⟨rfl, rfl⟩ | old
    · rcases at_launched two with ⟨rfl, rfl⟩ | old'
      · rfl
      · exact absurd (owes k owed) (apart l u old' owed')
    · rcases at_launched two with ⟨rfl, rfl⟩ | old'
      · exact absurd (owes k owed') (apart j t old owed)
      · exact consuming.apart j l t u k old old' owed owed'
  · intro t within k holds
    rcases List.mem_append.mp within with old | new
    · exact List.mem_cons_of_mem _ (consuming.held t old k holds)
    · rw [List.mem_singleton.mp new] at holds
      exact absurd holds (idle k)
  · intro t within k w took stored
    rcases List.mem_append.mp within with old | new
    · exact consuming.marked t old k w took stored
    · rw [List.mem_singleton.mp new] at took
      exact absurd (holds_of_took took) (idle k)
  · intro j l t u k one two took took'
    rcases at_launched one with ⟨rfl, rfl⟩ | old
    · exact absurd (holds_of_took took) (idle k)
    · rcases at_launched two with ⟨rfl, rfl⟩ | old'
      · exact absurd (holds_of_took took') (idle k)
      · exact consuming.once j l t u k old old' took took'
  · intro t within who k v at_ w stored
    rcases List.mem_append.mp within with old | new
    · rcases consuming.stale t old who k v at_ w stored with same | ⟨u, member, took⟩
      · exact .inl same
      · exact .inr ⟨u, List.mem_append_left _ member, took⟩
    · rw [List.mem_singleton.mp new] at at_
      exact absurd at_ (reads who k v)

/-- Time only takes records away. -/
theorem consuming_advanced (consuming : Consuming p) (seconds : Nat) :
    Consuming { p with shared := p.shared.advance seconds } := by
  have remains : ∀ k w, recordAt (p.shared.advance seconds) k = some w →
      recordAt p.shared k = some w := by
    intro k w stored
    rcases recordAt_advance p.shared k seconds with gone | same
    · rw [gone] at stored
      cases stored
    · rw [← same]
      exact stored
  constructor
  · refine ⟨Storage.wellKinded_advance consuming.drawn.kinded seconds, ?_⟩
    intro k credential stored
    obtain ⟨w, found⟩ := Option.ne_none_iff_exists'.mp stored
    exact consuming.drawn.known k credential (by simp [remains k w found])
  · exact consuming.formed
  · intro t member k owes
    obtain ⟨credential, known, absent, free⟩ := consuming.owed t member k owes
    refine ⟨credential, known, ?_, free⟩
    rcases recordAt_advance p.shared k seconds with gone | same
    · exact gone
    · exact same.trans absent
  · exact consuming.apart
  · exact consuming.held
  · exact fun t member k w took stored =>
      consuming.marked t member k w took (remains k w stored)
  · exact consuming.once
  · exact fun t member who k v at_ w stored =>
      consuming.stale t member who k v at_ w (remains k w stored)

theorem consuming_step {q : CredentialPool} {a : PoolAction CredentialRequest Nat}
    (consuming : Consuming p) (ok : unraced p a = true) (next : credentials.step p a = some q) :
    Consuming q := by
  rcases pool_cases next with ⟨r, t, l, rfl, begun, rfl⟩ | ⟨i, t, u, s, rfl, found, taken, rfl⟩ |
    ⟨seconds, rfl, rfl⟩
  · simp only [credentialWork, Option.ite_none_left_eq_some, Option.some.injEq,
      Prod.mk.injEq] at begun
    obtain ⟨fresh, rfl, rfl⟩ := begun
    exact consuming_launched consuming fresh
  · exact consuming_moved consuming found (moves_of_step consuming found ok taken)
  · exact consuming_advanced consuming seconds

theorem consuming_start (start : credentials.start p) : Consuming p := by
  obtain ⟨drawn, idle⟩ := start
  refine ⟨drawn, ?_, ?_, ?_, ?_, ?_, ?_, ?_⟩
  all_goals simp [idle]

theorem consuming_reached (reached : Reached credentials (fun p a => unraced p a) p) :
    Consuming p :=
  reached_invariant (fun _ start => consuming_start start)
    (fun _ _ _ hold ok next => consuming_step hold ok next) reached

theorem one_shot_of_consuming (consuming : Consuming p) : OneShot p := by
  intro i j t u key one two presents presents' issued issued'
  have took : ∀ v ∈ p.tasks, v.request.presented = some key → v.issued → v.took = some key := by
    intro v member presents issues
    have formed := consuming.formed v member
    obtain ⟨r, position⟩ := v
    cases position with
    | spent who k x left => exact formed.1.symm.trans presents
    | _ => cases issues
  exact consuming.once i j t u key one two
    (took t (List.mem_of_getElem? one) presents issued)
    (took u (List.mem_of_getElem? two) presents' issued')

/-- Outside the condition two requests mark or delete one credential. -/
theorem taken_twice (consuming : Consuming p) {q : CredentialPool}
    (raced : unraced p (.resume i) = false) (next : credentials.step p (.resume i) = some q) :
    TakenTwice q := by
  rcases pool_cases next with ⟨r, t, l, same, _⟩ | ⟨j, t, u, s, same, found, taken, rfl⟩ |
    ⟨seconds, same, _⟩
  · cases same
  · cases same
    obtain ⟨r, position⟩ := t
    cases position with
    | spending who key v =>
      obtain ⟨after, rfl, _, _, step⟩ := credential_step consuming.drawn.kinded
        (consuming.formed _ (List.mem_of_getElem? found)) taken
      have taker : ∃ x ∈ p.tasks, x.took = some key := by
        simp only [unraced, found, Option.map_some] at raced
        cases stored : recordAt p.shared key with
        | none =>
          rw [stored] at raced
          obtain ⟨x, member, took⟩ := List.all_eq_false.mp raced
          exact ⟨x, member, by simpa using took⟩
        | some w =>
          rw [stored] at raced
          rcases consuming.stale _ (List.mem_of_getElem? found) who key v rfl w stored with
            same | taker
          · exact absurd same (of_decide_eq_false raced)
          · exact taker
      obtain ⟨x, member, took⟩ := taker
      obtain ⟨j, at_⟩ := List.mem_iff_getElem?.mp member
      have other : i ≠ j := by
        rintro rfl
        rw [found, Option.some.injEq] at at_
        subst at_
        cases took
      obtain ⟨within, _⟩ := List.getElem?_eq_some_iff.mp found
      cases step with
      | spends spends =>
        exact ⟨i, j, _, x, key, other, List.getElem?_set_self within,
          (List.getElem?_set_ne other).trans at_, rfl, took⟩
    | _ => simp [unraced, found] at raced
  · cases same

/-- Of the requests that present one credential at most one issues, in every run whose requests
    mark a credential while it is as they read it; and any other run comes to a state where two
    requests have marked or deleted one credential. -/
theorem credentials_one_shot (p : CredentialPool)
    (reached : Reached credentials (fun p a => unraced p a) p) :
    OneShot p ∧ ∀ i q, unraced p (.resume i) = false →
      credentials.step p (.resume i) = some q → TakenTwice q := by
  have consuming := consuming_reached reached
  exact ⟨one_shot_of_consuming consuming, fun i q raced next => taken_twice consuming raced next⟩

end Steps

end OneShot

namespace Sample

def desktop : OAuthClient :=
  registeredClient ⟨some "Desktop", [redirect], none, none, none⟩ clientId secretHash 0

def approved : AuthorizationCode where
  code := code
  clientId := clientId
  userId := ann
  redirectUri := redirect
  scope := "*"
  codeChallenge := "E9Melhoa2OwvFrEMTJguCHaoeK1t8URWbuGJSstw-cM"
  codeChallengeMethod := "S256"
  createdAt := 2
  usedAt := none

/-- A client with a code that is not used yet. -/
def codeHeld : CredentialPool where
  shared := codeSaved (recorded (Storage.empty .valkey) (.client clientId)
    (.client desktop)) approved
  tasks := []
  log := [.code code]

/-- Two exchanges of the code, each with tokens of its own. -/
def exchanges : List (PoolAction CredentialRequest Nat) :=
  [.launch (.token none exchange ⟨accessToken, refreshToken, 3, 3, 3⟩),
    .launch (.token none exchange ⟨laterAccessToken, laterRefreshToken, 3, 3, 3⟩)]

theorem codeHeld_drawn : CredentialsDrawn codeHeld.shared codeHeld.log := by
  have kinded := wellKinded_recorded (Storage.wellKinded_empty .valkey)
    (k := .client clientId) rfl (.client desktop)
  refine ⟨(leads_saveAuthorizationCode approved kinded).2, ?_⟩
  intro k credential stored
  simp only [codeHeld, recordAt_codeSaved, recordAt_recorded] at stored
  by_cases held : k = .code approved.code
  · rw [held]
    exact List.mem_singleton_self _
  · rw [if_neg held] at stored
    split at stored
    · rename_i other
      rw [other] at credential
      cases credential
    · exact absurd rfl stored

theorem codeHeld_start : credentials.start codeHeld := ⟨codeHeld_drawn, rfl⟩

end Sample

open Sample in
/-- The second of two exchanges that do not overlap gets nothing. -/
theorem credentials_one_shot_code : ∃ p : CredentialPool,
    p.tasks.map CredentialTask.issued = [true, false] ∧ OneShot p := by
  have ran : ((exec (guarded credentials unraced) codeHeld
      (exchanges ++ List.replicate 8 (.resume 0) ++ List.replicate 2 (.resume 1))).map
      (fun p => p.tasks.map CredentialTask.issued)) = some [true, false] := by
    decide +kernel
  obtain ⟨p, done, issued⟩ := Option.map_eq_some_iff.mp ran
  have reached := reached_of_guarded (m := credentials) _ codeHeld_start done
  exact ⟨p, issued, (credentials_one_shot p reached).1⟩

open Sample in
/-- Two exchanges that both read the code before either marks it as used. -/
theorem code_issues_twice : ∃ p : CredentialPool,
    Reached credentials (fun _ _ => True) p ∧ ¬ OneShot p := by
  have ran : ((exec credentials codeHeld (exchanges ++ List.replicate 2 (.resume 0) ++
      List.replicate 2 (.resume 1) ++ List.replicate 6 (.resume 0) ++
      List.replicate 6 (.resume 1))).map (fun p => p.tasks.map fun t =>
        (t.issued, t.request.presented))) =
      some [(true, some (.code code)), (true, some (.code code))] := by
    decide +kernel
  obtain ⟨p, done, issued⟩ := Option.map_eq_some_iff.mp ran
  refine ⟨p, reached_of_exec (m := credentials) _ codeHeld_start done, ?_⟩
  intro oneShot
  obtain ⟨t, rest, tasks, first, others⟩ := List.map_eq_cons_iff.mp issued
  obtain ⟨u, more, tasks', second, _⟩ := List.map_eq_cons_iff.mp others
  have one : p.tasks[0]? = some t := by rw [tasks]; rfl
  have two : p.tasks[1]? = some u := by rw [tasks, tasks']; rfl
  obtain ⟨issuedT, presentsT⟩ := Prod.mk.inj first
  obtain ⟨issuedU, presentsU⟩ := Prod.mk.inj second
  exact absurd (oneShot 0 1 t u (.code code) one two presentsT presentsU issuedT issuedU)
    (by decide)

end WireMirage
