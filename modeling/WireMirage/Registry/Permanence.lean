import WireMirage.Library.Pool
import WireMirage.Registry.Commands
import WireMirage.Registry.Lifetimes

/-!
Lifetimes under concurrency. A dispatch re-arms a sliding group from the record it
has read, while a patch stores another lifetime and arms or clears the same keys.
-/
namespace WireMirage
open Prog StepMachine

/-- A sliding refresh or a patch: before its read, or with the commands it has left. -/
inductive LifetimeTask where
  | refresh (groupId : String)
  | patch (groupId : String) (ttlSeconds : Option Nat) (slidingTtl calloutEnabled : Option Bool)
  | left (groupId : String) (commands : List (Command Key Val))
  deriving DecidableEq

def armCommands (groupId name : String) (ttl : Nat) : List (Command Key Val) :=
  [.arm (.group groupId) ttl, .arm (.groupByName name) ttl]

def refreshCommands (groupId : String) (group : Group) : List (Command Key Val) :=
  if ¬ group.slidingTtl then []
  else if group.ttlSeconds = 0 then []
  else armCommands groupId group.name group.ttlSeconds

def flagCommands (groupId field : String) : Option Bool → List (Command Key Val)
  | none => []
  | some flag => [.setField (.group groupId) field (.flag flag)]

def patchCommands (groupId : String) (group : Group) (ttlSeconds : Option Nat)
    (slidingTtl calloutEnabled : Option Bool) : List (Command Key Val) :=
  let flags := flagCommands groupId "sliding_ttl" slidingTtl ++
    flagCommands groupId "callout_enabled" calloutEnabled
  match ttlSeconds with
  | none => flags
  | some ttl =>
    match normalizeTtl ttl with
    | .error _ => []
    | .ok ttl => .setField (.group groupId) "ttl_seconds" (.int ttl) ::
        (armCommands groupId group.name ttl ++ flags)

namespace LifetimeTask

def step : LifetimeTask → Store → Option (LifetimeTask × Store)
  | refresh gid, s =>
    match run (readGroup gid) s with
    | (.ok g, t) => some (left gid (refreshCommands gid g), t)
    | (.error _, t) => some (left gid [], t)
  | patch gid ttl sliding callout, s =>
    match run (readGroup gid) s with
    | (.ok g, t) => some (left gid (patchCommands gid g ttl sliding callout), t)
    | (.error _, t) => some (left gid [], t)
  | left gid commands, s => (drain commands s).map (fun b => (left gid b.1, b.2))

/-- The program that a task is a position of. -/
def code : LifetimeTask → Prog Store RegistryError Unit
  | refresh gid => settle (refreshGroupIfSliding gid)
  | patch gid ttl sliding callout => settle (patchGroup gid ttl sliding callout)
  | left _ commands => drained commands

def Finished (t : LifetimeTask) : Prop := ∃ gid, t = left gid []

/-- The task has yet to clear the deadline of a key. -/
def clears (k : Key) : LifetimeTask → Bool
  | left _ commands => .arm k 0 ∈ commands
  | _ => false

theorem clears_left {gid : String} {k : Key} {commands : List (Command Key Val)} :
    (left gid commands).clears k ↔ .arm k 0 ∈ commands := by
  simp [clears]

end LifetimeTask

/-! The positions are those of the programs -/

theorem settle_flags (gid : String) (g : Group) (sliding callout : Option Bool) :
    settle (patchSliding gid g sliding >>= fun g => patchCallout gid g callout) =
      drained (flagCommands gid "sliding_ttl" sliding ++
        flagCommands gid "callout_enabled" callout) := by
  have last : ∀ g, settle (patchCallout gid g callout) =
      drained (flagCommands gid "callout_enabled" callout) := by
    intro g
    cases callout with
    | none => rfl
    | some flag => exact settle_bind _ (fun _ => rfl)
  cases sliding with
  | none => exact last g
  | some flag =>
    unfold patchSliding
    rw [bind_assoc]
    exact settle_bind _ (fun _ => last _)

theorem settle_patch (gid : String) (g : Group) (ttl : Option Nat) (sliding callout : Option Bool) :
    settle (patchTtl gid g ttl >>= fun g => patchSliding gid g sliding >>= fun g =>
      patchCallout gid g callout) = drained (patchCommands gid g ttl sliding callout) := by
  cases ttl with
  | none => exact settle_flags gid g sliding callout
  | some ttl =>
    simp only [patchTtl, patchCommands]
    cases normalizeTtl ttl with
    | error e => rfl
    | ok n =>
      show settle ((Bucket.hashSet _ _ _ >>= fun _ => armGroupTtls gid g.name n >>= fun _ =>
        pure _) >>= _) = _
      simp only [armGroupTtls, Prog.bind_assoc]
      refine settle_bind _ (fun _ => settle_bind _ (fun _ => settle_bind _ (fun _ => ?_)))
      exact settle_flags gid _ sliding callout

theorem settle_refresh (gid : String) (g : Group) :
    settle (if ¬ g.slidingTtl then (pure false : Reg Bool)
      else if g.ttlSeconds = 0 then pure false
      else armGroupTtls gid g.name g.ttlSeconds >>= fun _ => pure true) =
      drained (refreshCommands gid g) := by
  unfold refreshCommands
  split
  · rfl
  · split
    · rfl
    · simp only [armGroupTtls, Prog.bind_assoc]
      exact settle_bind _ (fun _ => settle_bind _ (fun _ => rfl))

theorem lifetime_task_step (t : LifetimeTask) (s : Store) :
    Prog.step t.code s = (t.step s).map (fun b => (b.1.code, b.2)) := by
  cases t with
  | refresh gid =>
    simp only [LifetimeTask.code, LifetimeTask.step, refreshGroupIfSliding]
    have ran := run_attempt (readGroup gid) s
    rw [step_settle_ok (single_attempt (single_readGroup gid)) _ ran]
    rcases run (readGroup gid) s with ⟨e | g, t⟩
    · cases e <;> rfl
    · exact congrArg some (Prod.ext (settle_refresh gid g) rfl)
  | patch gid ttl sliding callout =>
    simp only [LifetimeTask.code, LifetimeTask.step, patchGroup]
    rcases ran : run (readGroup gid) s with ⟨e | g, t⟩
    · rw [step_settle_error (single_readGroup gid) _ ran]
      rfl
    · rw [step_settle_ok (single_readGroup gid) _ ran]
      exact congrArg some (Prod.ext (settle_patch gid g ttl sliding callout) rfl)
  | left gid commands =>
    simp only [LifetimeTask.code, LifetimeTask.step]
    rw [step_drained, Option.map_map]
    rfl

/-! Refreshes and patches in any number and any order, while time passes -/

def lifetimeWork : Work Store LifetimeTask Unit LifetimeTask Nat where
  begin
    | .left _ _, _ => none
    | t, _ => some (t, ())
  step := LifetimeTask.step
  outside := Storage.advance

def StoredForever (s : Store) (gid : String) : Prop :=
  (s.hashAt (.group gid)).lookup "ttl_seconds" = some (.int 0)

instance (s : Store) (gid : String) : Decidable (StoredForever s gid) :=
  inferInstanceAs (Decidable (_ = _))

/-- The keys that carry the expiry of a group: its record, and its name's entry. -/
def Carries (s : Store) (gid : String) (k : Key) : Prop :=
  k = .group gid ∨ ∃ name, (s.hashAt (.group gid)).lookup "name" = some (.text name) ∧
    k = .groupByName name

structure Disciplined (s : Store) : Prop where
  kinded : s.WellKinded
  valkey : s.backend = .valkey
  apart : ∀ gid gid' k, Carries s gid k → Carries s gid' k → gid = gid'
  permanent : ∀ gid k, StoredForever s gid → Carries s gid k → s.armed k = none

def refreshing : Machine (Pool Store LifetimeTask Unit) (PoolAction LifetimeTask Nat) :=
  pool lifetimeWork (fun s _ => Disciplined s)

/-- A lifetime read before the group was made to stay is not armed any more, unless a
    patch that makes it stay has yet to clear the key. -/
def armsInTime (p : Pool Store LifetimeTask Unit) : PoolAction LifetimeTask Nat → Bool
  | .resume i =>
    match p.tasks[i]? with
    | some (.left gid (.arm k ttl :: _)) =>
      ttl = 0 ∨ ¬ StoredForever p.shared gid ∨ p.tasks.any (LifetimeTask.clears k)
    | _ => true
  | _ => true

/-- What a group's commands are: the expiry of its own keys, and fields of its record;
    a lifetime of 0 is stored with both clearings still to come. -/
def Owed (o : Store) (gid : String) : List (Command Key Val) → Prop
  | [] => True
  | .arm k _ :: rest => Carries o gid k ∧ Owed o gid rest
  | .setField k field v :: rest => k = .group gid ∧ field ≠ "name" ∧
      (field = "ttl_seconds" → v = .int 0 → ∀ k, Carries o gid k → .arm k 0 ∈ rest) ∧
      Owed o gid rest
  | _ :: _ => False

structure Settles (o : Store) (p : Pool Store LifetimeTask Unit) : Prop where
  kinded : p.shared.WellKinded
  valkey : p.shared.backend = .valkey
  named : ∀ gid v, (p.shared.hashAt (.group gid)).lookup "name" = some v →
    (o.hashAt (.group gid)).lookup "name" = some v
  owed : ∀ gid commands, .left gid commands ∈ p.tasks → Owed o gid commands
  permanent : ∀ gid k, StoredForever p.shared gid → Carries o gid k →
    p.shared.armed k = none ∨ ∃ t ∈ p.tasks, t.clears k

theorem owed_flags (o : Store) (gid field : String) (flag : Option Bool)
    (apart : field ≠ "name" ∧ field ≠ "ttl_seconds") {rest : List (Command Key Val)}
    (owed : Owed o gid rest) : Owed o gid (flagCommands gid field flag ++ rest) := by
  cases flag with
  | none => exact owed
  | some b => exact ⟨rfl, apart.1, fun same => absurd same apart.2, owed⟩

section Reading
variable {o s : Store} {gid : String} {g : Group}
  (named : ∀ gid v, (s.hashAt (.group gid)).lookup "name" = some v →
    (o.hashAt (.group gid)).lookup "name" = some v)
  (record : GroupAt s gid g)
include named record

theorem carries_read (k : Key) : Carries o gid k ↔ k = .group gid ∨ k = .groupByName g.name := by
  have name := named gid _ (GroupFields.name record)
  unfold Carries
  simp [name, eq_comm]

theorem owed_refresh : Owed o gid (refreshCommands gid g) := by
  unfold refreshCommands
  split
  · trivial
  · split
    · trivial
    · exact ⟨(carries_read named record _).mpr (.inl rfl),
        (carries_read named record _).mpr (.inr rfl), trivial⟩

theorem owed_patch (ttl : Option Nat) (sliding callout : Option Bool) :
    Owed o gid (patchCommands gid g ttl sliding callout) := by
  have flags : Owed o gid (flagCommands gid "sliding_ttl" sliding ++
      flagCommands gid "callout_enabled" callout) := by
    apply owed_flags _ _ _ _ (by decide)
    have last : Owed o gid (flagCommands gid "callout_enabled" callout ++ []) :=
      owed_flags o gid "callout_enabled" callout (by decide) trivial
    rwa [List.append_nil] at last
  unfold patchCommands
  cases ttl with
  | none => exact flags
  | some n =>
    rcases normalizeTtl_cases n with ⟨e, refused⟩ | ⟨accepted, _⟩
    · simp only [refused]
      trivial
    · simp only [accepted]
      refine ⟨rfl, by decide, ?_, (carries_read named record _).mpr (.inl rfl),
        (carries_read named record _).mpr (.inr rfl), flags⟩
      intro _ zero k carried
      rw [Val.int.injEq, Int.natCast_eq_zero] at zero
      subst zero
      rcases (carries_read named record k).mp carried with rfl | rfl
      · simp [armCommands]
      · simp [armCommands]

end Reading

theorem clears_stays {tasks : List LifetimeTask} {i : Nat} {t u : LifetimeTask} {k : Key}
    (found : tasks[i]? = some t) (kept : t.clears k → u.clears k)
    (pending : ∃ v ∈ tasks, v.clears k) : ∃ v ∈ tasks.set i u, v.clears k := by
  obtain ⟨v, member, clears⟩ := pending
  rcases mem_stays found member u with rfl | stays
  · exact ⟨u, moved_mem found u, kept clears⟩
  · exact ⟨v, stays, clears⟩

section Steps
variable {o : Store} {p : Pool Store LifetimeTask Unit} (settles : Settles o p)
include settles

/-- One task moves: it owes what it is left with, and nothing is forgotten. -/
theorem settles_moved {i : Nat} {t u : LifetimeTask} {s : Store} (found : p.tasks[i]? = some t)
    (kinded : s.WellKinded) (valkey : s.backend = .valkey)
    (named : ∀ gid, (s.hashAt (.group gid)).lookup "name" =
      (p.shared.hashAt (.group gid)).lookup "name")
    (owed : ∀ gid commands, u = .left gid commands → Owed o gid commands)
    (permanent : ∀ gid k, StoredForever s gid → Carries o gid k →
      s.armed k = none ∨ ∃ v ∈ p.tasks.set i u, v.clears k) :
    Settles o ⟨s, p.tasks.set i u, p.log⟩ where
  kinded := kinded
  valkey := valkey
  named := by
    intro gid v name
    exact settles.named gid v ((named gid).symm.trans name)
  owed := by
    intro gid commands member
    rcases mem_moved found member with same | ⟨old, _⟩
    · exact owed gid commands same.symm
    · exact settles.owed gid commands old
  permanent := permanent

/-- A read leaves the store alone and clears nothing yet. -/
theorem settles_read {i : Nat} {t : LifetimeTask} {gid : String} {commands : List (Command Key Val)}
    (found : p.tasks[i]? = some t) (unread : ∀ gid commands, t ≠ .left gid commands)
    (owed : Owed o gid commands) :
    Settles o ⟨p.shared, p.tasks.set i (.left gid commands), p.log⟩ := by
  refine settles_moved settles found settles.kinded settles.valkey (fun _ => rfl) ?_ ?_
  · rintro _ _ same
    cases same
    exact owed
  · intro gid' k forever carried
    rcases settles.permanent gid' k forever carried with clear | pending
    · exact .inl clear
    · refine .inr (clears_stays found ?_ pending)
      intro clears
      cases t with
      | left gid'' commands' => exact absurd rfl (unread gid'' commands')
      | _ => simp [LifetimeTask.clears] at clears

theorem settles_arm {i : Nat} {gid : String} {k : Key} {ttl : Nat} {rest : List (Command Key Val)}
    (disciplined : Disciplined o) (found : p.tasks[i]? = some (.left gid (.arm k ttl :: rest)))
    (inTime : ttl ≠ 0 → StoredForever p.shared gid → ∃ t ∈ p.tasks, t.clears k) :
    Settles o ⟨ttlArmed p.shared k ttl, p.tasks.set i (.left gid rest), p.log⟩ := by
  obtain ⟨own, owed⟩ := settles.owed gid _ (List.mem_of_getElem? found)
  refine settles_moved settles found (Storage.wellKinded_arm settles.kinded _)
    (by simpa [ttlArmed] using settles.valkey) ?_ ?_ ?_
  · intro gid'
    simp [ttlArmed]
  · rintro _ _ same
    cases same
    exact owed
  · intro gid' k' forever carried
    have before : StoredForever p.shared gid' := by
      unfold StoredForever at forever ⊢
      simpa [ttlArmed] using forever
    by_cases same : k' = k
    · subst same
      by_cases never : ttl = 0
      · subst never
        left
        exact Storage.armed_cleared p.shared k' settles.valkey
      · have group := disciplined.apart gid' gid k' carried own
        subst group
        refine .inr (clears_stays found ?_ (inTime never before))
        rw [LifetimeTask.clears_left, LifetimeTask.clears_left, List.mem_cons]
        rintro (same | later)
        · cases same
          exact absurd rfl never
        · exact later
    · rcases settles.permanent gid' k' before carried with clear | pending
      · left
        unfold ttlArmed
        rw [Storage.armed_arm_ne _ _ _ _ same]
        exact clear
      · refine .inr (clears_stays found ?_ pending)
        rw [LifetimeTask.clears_left, LifetimeTask.clears_left, List.mem_cons]
        rintro (head | later)
        · cases head
          exact absurd rfl same
        · exact later

theorem settles_field {i : Nat} {gid : String} {k : Key} {field : String} {v : Val}
    {rest : List (Command Key Val)} (found : p.tasks[i]? =
      some (.left gid (.setField k field v :: rest))) :
    Settles o ⟨p.shared.putHash k ((p.shared.hashAt k).insert field v),
      p.tasks.set i (.left gid rest), p.log⟩ := by
  obtain ⟨rfl, notName, clearing, owed⟩ := settles.owed gid _ (List.mem_of_getElem? found)
  refine settles_moved settles found (Storage.wellKinded_putHash settles.kinded rfl _)
    settles.valkey ?_ ?_ ?_
  · intro gid'
    by_cases here : gid' = gid
    · subst here
      simp [AList.lookup_insert_ne (Ne.symm notName)]
    · simp [here]
  · rintro _ _ same
    cases same
    exact owed
  · intro gid' k' forever carried
    rw [Storage.armed_putHash]
    have kept : (LifetimeTask.left gid (.setField (.group gid) field v :: rest)).clears k' →
        (LifetimeTask.left gid rest).clears k' := by
      rw [LifetimeTask.clears_left, LifetimeTask.clears_left, List.mem_cons]
      rintro (head | later)
      · cases head
      · exact later
    by_cases stores : gid' = gid ∧ field = "ttl_seconds"
    · obtain ⟨rfl, rfl⟩ := stores
      have zero : v = .int 0 := by
        unfold StoredForever at forever
        simpa using forever
      exact .inr ⟨_, moved_mem found _, LifetimeTask.clears_left.mpr (clearing rfl zero k' carried)⟩
    · have before : StoredForever p.shared gid' := by
        unfold StoredForever at forever ⊢
        by_cases here : gid' = gid
        · subst here
          have other : "ttl_seconds" ≠ field := by
            rintro rfl
            exact stores ⟨rfl, rfl⟩
          simpa [AList.lookup_insert_ne other] using forever
        · simpa [here] using forever
      rcases settles.permanent gid' k' before carried with clear | pending
      · exact .inl clear
      · exact .inr (clears_stays found kept pending)

theorem settles_waited (seconds : Nat) :
    Settles o { p with shared := p.shared.advance seconds } where
  kinded := Storage.wellKinded_advance settles.kinded seconds
  valkey := (Storage.backend_advance _ seconds).trans settles.valkey
  named := by
    intro gid v name
    simp only [Storage.hashAt_advance] at name
    split at name
    · simp at name
    · exact settles.named gid v name
  owed := settles.owed
  permanent := by
    intro gid k forever carried
    unfold StoredForever at forever
    simp only [Storage.hashAt_advance] at forever
    split at forever
    · simp at forever
    · rcases settles.permanent gid k forever carried with clear | pending
      · left
        simp [Storage.armed_advance, clear]
      · exact .inr pending

end Steps

theorem settles_step {o : Store} {p q : Pool Store LifetimeTask Unit}
    {a : PoolAction LifetimeTask Nat} (disciplined : Disciplined o) (settles : Settles o p)
    (inTime : armsInTime p a) (next : refreshing.step p a = some q) : Settles o q := by
  rcases pool_cases next with ⟨r, t, l, rfl, begun, rfl⟩ | ⟨i, t, u, s, rfl, found, taken, rfl⟩ |
    ⟨seconds, rfl, rfl⟩
  · have unread : ∀ gid commands, t ≠ .left gid commands := by
      rintro gid commands rfl
      cases r <;> simp [lifetimeWork] at begun
    obtain ⟨kinded, valkey, named, owed, permanent⟩ := settles
    refine ⟨kinded, valkey, named, ?_, ?_⟩
    · intro gid commands member
      rcases List.mem_append.mp member with old | new
      · exact owed gid commands old
      · exact absurd (List.mem_singleton.mp new).symm (unread gid commands)
    · intro gid k forever carried
      rcases permanent gid k forever carried with clear | ⟨v, member, clears⟩
      · exact .inl clear
      · exact .inr ⟨v, List.mem_append_left _ member, clears⟩
  · change t.step p.shared = some (u, s) at taken
    cases t with
    | refresh gid =>
      simp only [LifetimeTask.step, run_readGroup settles.kinded] at taken
      cases read : groupAnswer p.shared gid with
      | error e =>
        simp only [read, Option.some.injEq, Prod.mk.injEq] at taken
        obtain ⟨rfl, rfl⟩ := taken
        exact settles_read settles found (by simp) trivial
      | ok g =>
        simp only [read, Option.some.injEq, Prod.mk.injEq] at taken
        obtain ⟨rfl, rfl⟩ := taken
        exact settles_read settles found (by simp)
          (owed_refresh settles.named (groupAnswer_ok_iff.mp read))
    | patch gid ttl sliding callout =>
      simp only [LifetimeTask.step, run_readGroup settles.kinded] at taken
      cases read : groupAnswer p.shared gid with
      | error e =>
        simp only [read, Option.some.injEq, Prod.mk.injEq] at taken
        obtain ⟨rfl, rfl⟩ := taken
        exact settles_read settles found (by simp) trivial
      | ok g =>
        simp only [read, Option.some.injEq, Prod.mk.injEq] at taken
        obtain ⟨rfl, rfl⟩ := taken
        exact settles_read settles found (by simp)
          (owed_patch settles.named (groupAnswer_ok_iff.mp read) ttl sliding callout)
    | left gid commands =>
      have owed := settles.owed gid commands (List.mem_of_getElem? found)
      cases commands with
      | nil => simp [LifetimeTask.step, drain] at taken
      | cons c rest =>
        cases c with
        | arm k ttl =>
          rw [LifetimeTask.step, drain_typed (c := .arm k ttl) trivial rest settles.kinded] at taken
          cases taken
          refine settles_arm settles disciplined found ?_
          intro positive forever
          simpa [armsInTime, found, positive, forever] using inTime
        | setField k field v =>
          obtain ⟨rfl, _⟩ := owed
          rw [LifetimeTask.step, drain_typed (by rfl) rest settles.kinded] at taken
          cases taken
          exact settles_field settles found
        | _ => exact owed.elim
  · exact settles_waited settles seconds

theorem disciplined_settles {p : Pool Store LifetimeTask Unit} (disciplined : Disciplined p.shared)
    (idle : p.tasks = []) : Settles p.shared p where
  kinded := disciplined.kinded
  valkey := disciplined.valkey
  named := fun _ _ name => name
  owed := by simp [idle]
  permanent := fun gid k forever carried => .inl (disciplined.permanent gid k forever carried)

/-- The states that operations one after another lead to. -/
theorem disciplined_reached [UlidText] {l : LifetimeState}
    (reached : Reached lifetimes (fun _ _ => True) l) : Disciplined l.store := by
  have lived := lived_reached reached
  have named : ∀ gid name, (l.store.hashAt (.group gid)).lookup "name" = some (.text name) →
      ∃ g, GroupAt l.store gid g ∧ g.name = name := by
    intro gid name field
    have full : l.store.hashAt (.group gid) ≠ ∅ := by
      intro vacant
      simp [vacant] at field
    obtain ⟨g, record, _⟩ := (lived.records gid full).2
    have own := GroupFields.name record
    rw [field, Option.some.injEq, Val.text.injEq] at own
    exact ⟨g, record, own.symm⟩
  refine ⟨lived.kinded, lived.valkey, ?_, ?_⟩
  · rintro gid gid' k (rfl | ⟨name, field, rfl⟩) (same | ⟨name', field', same⟩)
    · cases same
      rfl
    · cases same
    · cases same
    · cases same
      obtain ⟨g, record, rfl⟩ := named gid name field
      obtain ⟨g', record', same⟩ := named gid' _ field'
      have leads := (lived.lives gid g record).byName
      have leads' := (lived.lives gid' g' record').byName
      rw [same, leads, Option.some.injEq, Val.text.injEq] at leads'
      exact leads'
  · intro gid k forever carried
    have full : l.store.hashAt (.group gid) ≠ ∅ := by
      intro vacant
      simp [StoredForever, vacant] at forever
    obtain ⟨g, record, _⟩ := (lived.records gid full).2
    have zero : g.ttlSeconds = 0 := by
      have stored := (GroupFields.ttlSeconds record).1
      rw [forever, Option.some.injEq, Val.int.injEq] at stored
      exact (Int.natCast_eq_zero.mp stored.symm)
    have clear := (lived.lives gid g record).permanent zero
    rcases (carries_read (fun _ _ name => name) record k).mp carried with rfl | rfl
    · exact clear.1
    · exact clear.2

/-- Every run of the programs is a run of their positions. -/
theorem refreshing_programs {starts : Store → Unit → Prop} {p : Pool Store LifetimeTask Unit}
    {P Q : Pool Store (Prog Store RegistryError Unit) Unit}
    (path : Run (pool (programs (fun r l => (lifetimeWork.begin r l).map
      (fun b => (b.1.code, b.2))) lifetimeWork.outside) starts) (fun _ _ => True) P Q)
    (first : P = ⟨p.shared, p.tasks.map LifetimeTask.code, p.log⟩) :
    ∃ q : Pool Store LifetimeTask Unit, Q = ⟨q.shared, q.tasks.map LifetimeTask.code, q.log⟩ ∧
      Run (pool lifetimeWork starts) (fun _ _ => True) p q :=
  run_programs LifetimeTask.code lifetime_task_step path first

/-- A group that is to stay has no deadline, and no passing of time takes it. -/
structure StaysForever (s : Store) (gid : String) (g : Group) : Prop where
  record : s.armed (.group gid) = none
  name : s.armed (.groupByName g.name) = none
  kept : ∀ seconds, GroupAt (s.advance seconds) gid g
  named : ∀ seconds, (s.advance seconds).bytesAt (.groupByName g.name) =
    s.bytesAt (.groupByName g.name)

theorem made_permanent_stays (p : Pool Store LifetimeTask Unit)
    (reached : Reached refreshing (fun p a => armsInTime p a) p)
      (finished : ∀ t ∈ p.tasks, t.Finished)
    (gid : String) (g : Group) (record : GroupAt p.shared gid g) (forever : g.ttlSeconds = 0) :
    StaysForever p.shared gid g := by
  obtain ⟨first, ⟨disciplined, idle⟩, path⟩ := reached
  have settles := run_invariant
    (fun _ _ _ held ok next => settles_step disciplined held ok next) path
    (disciplined_settles disciplined idle)
  have clear : ∀ k, Carries first.shared gid k → p.shared.armed k = none := by
    intro k carried
    have zero : StoredForever p.shared gid := by
      have stored := GroupFields.ttlSeconds record
      rw [forever] at stored
      exact stored.1
    rcases settles.permanent gid k zero carried with clear | ⟨t, member, clears⟩
    · exact clear
    · obtain ⟨_, rfl⟩ := finished t member
      simp [LifetimeTask.clears] at clears
  have carries := carries_read settles.named record
  have recordClear := clear _ ((carries _).mpr (.inl rfl))
  have nameClear := clear _ ((carries _).mpr (.inr rfl))
  refine ⟨recordClear, nameClear, ?_, ?_⟩
  · intro seconds
    unfold GroupAt at record ⊢
    simpa [Storage.due, recordClear] using record
  · intro seconds
    simp [Storage.due, nameClear]

namespace Sample

def shortLived : List LifetimeAction := [.createGroup ⟨"shop", "ann", some 60, none⟩ idA 0 draw]

/-- A patch makes a group permanent; the refresh that has read the group arms first. -/
def patchedInTime : List (PoolAction LifetimeTask Nat) :=
  [.launch (.refresh idA), .launch (.patch idA (some 0) none none), .resume 0, .resume 1,
    .resume 1, .resume 0, .resume 0, .resume 1, .resume 1, .outside 90]

def refreshedTooLate : List (PoolAction LifetimeTask Nat) :=
  [.launch (.refresh idA), .launch (.patch idA (some 0) none none), .resume 0, .resume 1,
    .resume 1, .resume 1, .resume 1, .resume 0, .resume 0]

def permanence (p : Pool Store LifetimeTask Unit) : List LifetimeTask × Option Group × Bool :=
  (p.tasks, (groupAnswer p.shared idA).toOption, (p.shared.armed (.group idA)).isSome)

def permanentShop : Group := ⟨idA, "shop", false, 0, "ann", 0, true, false, none⟩

end Sample

theorem made_permanent_stays_shop : ∃ p, Reached refreshing (fun p a => armsInTime p a) p ∧
    (∀ t ∈ p.tasks, t.Finished) ∧ GroupAt p.shared Sample.idA Sample.permanentShop ∧
    StaysForever p.shared Sample.idA Sample.permanentShop := by
  have ran : ((exec lifetimes ⟨Storage.empty .valkey, [], []⟩ Sample.shortLived).bind (fun l =>
      (exec (guarded refreshing armsInTime) ⟨l.store, [], ()⟩ Sample.patchedInTime).map
        Sample.permanence)) =
      some ([.left Sample.idA [], .left Sample.idA []], some Sample.permanentShop, false) := by
    decide +kernel
  obtain ⟨l, first, rest⟩ := Option.bind_eq_some_iff.mp ran
  obtain ⟨p, done, shows⟩ := Option.map_eq_some_iff.mp rest
  simp only [Sample.permanence, Prod.mk.injEq] at shows
  obtain ⟨tasks, stored, _⟩ := shows
  have reached := reached_of_guarded (m := refreshing) Sample.patchedInTime
    ⟨disciplined_reached (reached_of_exec (m := lifetimes) _ rfl first), rfl⟩ done
  have finished : ∀ t ∈ p.tasks, t.Finished := by
    rw [tasks]
    simp [LifetimeTask.Finished]
  have record := group_at_of_answer stored
  exact ⟨p, reached, finished, record,
    made_permanent_stays p reached finished Sample.idA _ record rfl⟩

/-- A refresh that read the group before the patch arms it after the patch has finished. -/
theorem refresh_ends_permanent_group : ∃ p, Reached refreshing (fun _ _ => True) p ∧
    (∀ t ∈ p.tasks, t.Finished) ∧ GroupAt p.shared Sample.idA Sample.permanentShop ∧
    ¬ StaysForever p.shared Sample.idA Sample.permanentShop := by
  have ran : ((exec lifetimes ⟨Storage.empty .valkey, [], []⟩ Sample.shortLived).bind (fun l =>
      (exec refreshing ⟨l.store, [], ()⟩ Sample.refreshedTooLate).map Sample.permanence)) =
      some ([.left Sample.idA [], .left Sample.idA []], some Sample.permanentShop, true) := by
    decide +kernel
  obtain ⟨l, first, rest⟩ := Option.bind_eq_some_iff.mp ran
  obtain ⟨p, done, shows⟩ := Option.map_eq_some_iff.mp rest
  simp only [Sample.permanence, Prod.mk.injEq] at shows
  obtain ⟨tasks, stored, armed⟩ := shows
  have reached := reached_of_exec (m := refreshing) Sample.refreshedTooLate
    ⟨disciplined_reached (reached_of_exec (m := lifetimes) _ rfl first), rfl⟩ done
  refine ⟨p, reached, ?_, group_at_of_answer stored, ?_⟩
  · rw [tasks]
    simp [LifetimeTask.Finished]
  · intro stays
    simp [stays.record] at armed

end WireMirage
