import WireMirage.Store.Bucket
import WireMirage.Store.Expiry

/-!
The writing commands of a bucket one at a time, for operations that others may act
between, and what a program that issues only some of them may change. What an
operation still has to write is a list of commands.
-/
namespace WireMirage
open Prog

variable {κ β : Type} [DecidableEq κ]

/-- A key armed with a configured lifetime, where 0 means none. -/
def ttlArmed (s : Storage κ β) (k : κ) (ttl : Nat) : Storage κ β :=
  s.arm k (if ttl = 0 then none else some (s.clock + ttl))

def Bucket.armTtl {Err : Type} [FromStoreError κ Err] (k : κ) (ttl : Nat) :
    Prog (Storage κ β) Err Unit :=
  if ttl = 0 then Bucket.clearTtl k else Bucket.setTtl k ttl

/-! Commands that succeed on a key of their kind -/

section Leads
variable {Err : Type} [FromStoreError κ Err] [KeyKinds κ] {s : Storage κ β} {k : κ}

theorem leads_set {v : β} (family : KeyKinds.kindOf k = some .bytes) :
    Leads Storage.WellKinded (Bucket.set k v : Prog (Storage κ β) Err Unit) s () (s.put k v none) :=
  fun wk => ⟨run_set v, Storage.wellKinded_put wk family v none⟩

theorem leads_setWithTtl {v : β} {ttl : Nat} (family : KeyKinds.kindOf k = some .bytes) :
    Leads Storage.WellKinded (Bucket.setWithTtl k v ttl : Prog (Storage κ β) Err Unit) s ()
      (s.put k v (s.ttlDeadline ttl)) :=
  fun wk => ⟨run_setWithTtl v ttl, Storage.wellKinded_put wk family v _⟩

theorem leads_delete : Leads Storage.WellKinded (Bucket.delete k : Prog (Storage κ β) Err Unit) s ()
    (s.erase k) :=
  fun wk => ⟨run_delete, Storage.wellKinded_erase wk⟩

theorem leads_hashSet {f : String} {v : β} (family : KeyKinds.kindOf k = some .hash) :
    Leads Storage.WellKinded (Bucket.hashSet k f v : Prog (Storage κ β) Err Unit) s ()
      (s.putHash k ((s.hashAt k).insert f v)) :=
  fun wk => ⟨run_hashSet wk family f v, Storage.wellKinded_putHash wk family _⟩

theorem leads_hashDelete {f : String} (family : KeyKinds.kindOf k = some .hash) :
    Leads Storage.WellKinded (Bucket.hashDelete k f : Prog (Storage κ β) Err Unit) s ()
      (s.dropField k f) :=
  fun wk => ⟨run_hashDelete wk family f, Storage.wellKinded_dropField wk family f⟩

theorem leads_setAdd {x : String} (family : KeyKinds.kindOf k = some .set) :
    Leads Storage.WellKinded (Bucket.setAdd k x : Prog (Storage κ β) Err Unit) s ()
      (s.addMember k x) :=
  fun wk => ⟨run_setAdd wk family x, Storage.wellKinded_addMember wk family x⟩

theorem leads_setRemove {x : String} (family : KeyKinds.kindOf k = some .set) :
    Leads Storage.WellKinded (Bucket.setRemove k x : Prog (Storage κ β) Err Unit) s ()
      (s.dropMember k x) :=
  fun wk => ⟨run_setRemove wk family x, Storage.wellKinded_dropMember wk family x⟩

theorem leads_armTtl {ttl : Nat} :
    Leads Storage.WellKinded (Bucket.armTtl k ttl : Prog (Storage κ β) Err Unit) s ()
      (ttlArmed s k ttl) := by
  intro wk
  refine ⟨?_, Storage.wellKinded_arm wk _⟩
  unfold Bucket.armTtl ttlArmed
  by_cases never : ttl = 0
  · simp [never]
  · simp [never]

end Leads

inductive Command (κ β : Type) where
  | setField (k : κ) (field : String) (v : β)
  | dropField (k : κ) (field : String)
  | put (k : κ) (v : β)
  | putTtl (k : κ) (v : β) (ttl : Nat)
  | erase (k : κ)
  | addMember (k : κ) (x : String)
  | dropMember (k : κ) (x : String)
  | arm (k : κ) (ttl : Nat)
  deriving DecidableEq

namespace Command

def prog {Err : Type} [FromStoreError κ Err] : Command κ β → Prog (Storage κ β) Err Unit
  | setField k field v => Bucket.hashSet k field v
  | dropField k field => Bucket.hashDelete k field
  | put k v => Bucket.set k v
  | putTtl k v ttl => Bucket.setWithTtl k v ttl
  | erase k => Bucket.delete k
  | addMember k x => Bucket.setAdd k x
  | dropMember k x => Bucket.setRemove k x
  | arm k ttl => Bucket.armTtl k ttl

def apply (s : Storage κ β) : Command κ β → Storage κ β
  | setField k field v => s.putHash k ((s.hashAt k).insert field v)
  | dropField k field => s.dropField k field
  | put k v => s.put k v none
  | putTtl k v ttl => s.put k v (s.ttlDeadline ttl)
  | erase k => s.erase k
  | addMember k x => s.addMember k x
  | dropMember k x => s.dropMember k x
  | arm k ttl => ttlArmed s k ttl

/-- The key of a command is of the kind the command is for. -/
def Typed [KeyKinds κ] : Command κ β → Prop
  | setField k _ _ => KeyKinds.kindOf k = some .hash
  | dropField k _ => KeyKinds.kindOf k = some .hash
  | put k _ => KeyKinds.kindOf k = some .bytes
  | putTtl k _ _ => KeyKinds.kindOf k = some .bytes
  | erase _ => True
  | addMember k _ => KeyKinds.kindOf k = some .set
  | dropMember k _ => KeyKinds.kindOf k = some .set
  | arm _ _ => True

section
variable {Err : Type} [FromStoreError κ Err]

theorem single_prog (c : Command κ β) : Single (c.prog : Prog (Storage κ β) Err Unit) := by
  cases c with
  | arm k ttl =>
    show Single (Bucket.armTtl k ttl)
    unfold Bucket.armTtl
    split
    · exact single_atomic _
    · exact single_atomic _
  | _ => exact single_atomic _

theorem leads_prog [KeyKinds κ] (c : Command κ β) (typed : c.Typed) (s : Storage κ β) :
    Leads Storage.WellKinded (c.prog : Prog (Storage κ β) Err Unit) s () (c.apply s) := by
  cases c with
  | setField k field v => exact leads_hashSet typed
  | dropField k field => exact leads_hashDelete typed
  | put k v => exact leads_set typed
  | putTtl k v ttl => exact leads_setWithTtl typed
  | erase k => exact leads_delete
  | addMember k x => exact leads_setAdd typed
  | dropMember k x => exact leads_setRemove typed
  | arm k ttl => exact leads_armTtl

/-- Only the error of a command depends on how errors are reported. -/
theorem run_prog (c : Command κ β) (s : Storage κ β) :
    run (c.prog : Prog (Storage κ β) Err Unit) s =
      ((run (c.prog : Prog (Storage κ β) (StoreError κ) Unit) s).1.mapError FromStoreError.wrap,
        (run (c.prog : Prog (Storage κ β) (StoreError κ) Unit) s).2) := by
  have plain : ∀ r : Except (StoreError κ) Unit, r.mapError FromStoreError.wrap = r := by
    rintro (e | u) <;> rfl
  cases c with
  | arm k ttl =>
    show run (Bucket.armTtl k ttl) s = _
    simp only [prog, Bucket.armTtl]
    split <;> simp [Bucket.clearTtl, Bucket.setTtl, plain]
  | _ => simp [prog, Bucket.hashSet, Bucket.hashDelete, Bucket.set, Bucket.setWithTtl,
    Bucket.delete,
      Bucket.setAdd, Bucket.setRemove, plain]

end

end Command

/-- The next of the commands that are left; a failed one ends the operation. -/
def drain : List (Command κ β) → Storage κ β → Option (List (Command κ β) × Storage κ β)
  | [], _ => none
  | c :: rest, s =>
    match run (c.prog : Prog (Storage κ β) (StoreError κ) Unit) s with
    | (.ok _, t) => some (rest, t)
    | (.error _, t) => some ([], t)

section Draining
variable {Err : Type} [FromStoreError κ Err]

def drained (cs : List (Command κ β)) : Prog (Storage κ β) Err Unit :=
  settle (forEach cs Command.prog)

@[simp] theorem drained_nil : (drained [] : Prog (Storage κ β) Err Unit) = .done () := rfl

theorem step_drained (cs : List (Command κ β)) (s : Storage κ β) :
    step (drained cs : Prog (Storage κ β) Err Unit) s =
      (drain cs s).map (fun b => (drained b.1, b.2)) := by
  cases cs with
  | nil => rfl
  | cons c rest =>
    let here : Prog (Storage κ β) Err Unit := c.prog
    show step (settle (here >>= fun _ => forEach rest Command.prog)) s = _
    have ran : run here s = _ := c.run_prog s
    simp only [drain]
    rcases plain : run (c.prog : Prog (Storage κ β) (StoreError κ) Unit) s with ⟨e | u, t⟩
    · rw [plain] at ran
      rw [step_settle_error c.single_prog _ ran]
      rfl
    · rw [plain] at ran
      rw [step_settle_ok c.single_prog _ ran]
      rfl

end Draining

section Kinds
variable [KeyKinds κ]

theorem Command.wellKinded_apply (c : Command κ β) (typed : c.Typed) {s : Storage κ β}
    (wk : s.WellKinded) : (c.apply s).WellKinded := by
  have leads : Leads _ (c.prog : Prog (Storage κ β) (StoreError κ) Unit) s () (c.apply s) :=
    c.leads_prog typed s
  exact (leads wk).2

theorem drain_typed {c : Command κ β} (typed : c.Typed) (rest : List (Command κ β))
    {s : Storage κ β} (wk : s.WellKinded) : drain (c :: rest) s = some (rest, c.apply s) := by
  simp [drain, (c.leads_prog typed s wk).1]

/-! What a program may do to the store -/

/-- From a well kinded store, every action of a program reads or is one of the given commands. -/
def Acts {Err A : Type} (ok : Command κ β → Prop) : Prog (Storage κ β) Err A → Prop
  | .act effect next => ∀ s : Storage κ β, s.WellKinded →
      (effect s = s ∨ ∃ c, ok c ∧ c.Typed ∧ effect s = c.apply s) ∧ Acts ok (next s)
  | _ => True

section Acts
variable {Err A B : Type} {ok : Command κ β → Prop}

theorem acts_bind (p : Prog (Storage κ β) Err A) (k : A → Prog (Storage κ β) Err B)
    (first : Acts ok p)
    (rest : ∀ a, Acts ok (k a)) : Acts ok (p >>= k) := by
  show Acts ok (Prog.bind p k)
  induction p with
  | done a => exact rest a
  | fail e => trivial
  | act effect next ih =>
    intro s wk
    exact ⟨(first s wk).1, ih s (first s wk).2⟩

/-- What comes after a program may depend on what it answers. -/
theorem acts_yielding {post : A → Prop} {p : Prog (Storage κ β) Err A}
    {k : A → Prog (Storage κ β) Err B} (first : Acts ok p) (yields : Yields post p)
    (rest : ∀ a, post a → Acts ok (k a)) : Acts ok (p >>= k) := by
  show Acts ok (Prog.bind p k)
  induction p with
  | done a => exact rest a yields
  | fail e => trivial
  | act effect next ih =>
    intro s wk
    exact ⟨(first s wk).1, ih s (first s wk).2 (yields s)⟩

theorem acts_afterOk {r : Except Err A} {k : A → Prog (Storage κ β) Err B}
    (later : ∀ a, r = .ok a → Acts ok (k a)) : Acts ok (Prog.ofExcept r >>= k) := by
  cases r with
  | error e => trivial
  | ok a => exact later a rfl

theorem acts_attempt (p : Prog (Storage κ β) Err A) (acts : Acts ok p) : Acts ok (attempt p) := by
  induction p with
  | done a => trivial
  | fail e => trivial
  | act effect next ih =>
    intro s wk
    exact ⟨(acts s wk).1, ih s (acts s wk).2⟩

theorem acts_outcome {Err' : Type} (p : Prog (Storage κ β) Err A) (acts : Acts ok p) :
    Acts ok (outcome p : Prog (Storage κ β) Err' (Except Err A)) := by
  induction p with
  | done a => trivial
  | fail e => trivial
  | act effect next ih =>
    intro s wk
    exact ⟨(acts s wk).1, ih s (acts s wk).2⟩

theorem acts_mapError {Err' : Type} (f : Err → Err') (p : Prog (Storage κ β) Err A)
    (acts : Acts ok p) :
    Acts ok (mapError f p) := by
  induction p with
  | done a => trivial
  | fail e => trivial
  | act effect next ih =>
    intro s wk
    exact ⟨(acts s wk).1, ih s (acts s wk).2⟩

theorem acts_settle (p : Prog (Storage κ β) Err A) (acts : Acts ok p) : Acts ok (settle p) := by
  induction p with
  | done a => trivial
  | fail e => trivial
  | act effect next ih =>
    intro s wk
    exact ⟨(acts s wk).1, ih s (acts s wk).2⟩

theorem acts_ofExcept (r : Except Err A) :
    Acts ok (Prog.ofExcept r : Prog (Storage κ β) Err A) := by
  cases r <;> trivial

theorem acts_forEach (items : List A) (body : A → Prog (Storage κ β) Err Unit)
    (each : ∀ a ∈ items, Acts ok (body a)) : Acts ok (forEach items body) := by
  induction items with
  | nil => trivial
  | cons a rest ih =>
    apply acts_bind
    · exact each a List.mem_cons_self
    · intro _
      exact ih (fun b member => each b (List.mem_cons_of_mem a member))

theorem acts_collect (items : List A) (body : A → Prog (Storage κ β) Err B)
    (each : ∀ a, Acts ok (body a)) : Acts ok (collect items body) := by
  induction items with
  | nil => trivial
  | cons a rest ih =>
    apply acts_bind
    · exact each a
    · intro b
      apply acts_bind
      · exact ih
      · intro bs
        trivial

theorem acts_mono {ok' : Command κ β → Prop} (weaken : ∀ c, ok c → ok' c)
    (p : Prog (Storage κ β) Err A)
    (acts : Acts ok p) : Acts ok' p := by
  induction p with
  | done a => trivial
  | fail e => trivial
  | act effect next ih =>
    intro s wk
    obtain ⟨here, rest⟩ := acts s wk
    refine ⟨?_, ih s rest⟩
    rcases here with same | ⟨c, allowed, typed, effect⟩
    · exact .inl same
    · exact .inr ⟨c, weaken c allowed, typed, effect⟩

/-- An action whose effect on a well kinded store is known. -/
theorem acts_single {p : Prog (Storage κ β) Err A} (one : Single p)
    (does : ∀ s : Storage κ β, s.WellKinded →
      (run p s).2 = s ∨ ∃ c, ok c ∧ c.Typed ∧ (run p s).2 = c.apply s) : Acts ok p := by
  obtain ⟨effect, next, rfl, finished⟩ := one
  intro s wk
  have ends := finished s
  have here := does s wk
  simp only [run] at here
  cases answer : next s with
  | done a =>
    rw [answer] at here
    exact ⟨here, trivial⟩
  | fail e =>
    rw [answer] at here
    exact ⟨here, trivial⟩
  | act effect' next' =>
    rw [answer] at ends
    exact ends.elim

theorem acts_reads {p : Prog (Storage κ β) Err A} (one : Single p)
    (reads : ∀ s : Storage κ β, s.WellKinded → (run p s).2 = s) : Acts ok p :=
  acts_single one (fun s wk => .inl (reads s wk))

theorem acts_command [FromStoreError κ Err] {c : Command κ β} (typed : c.Typed) (allowed : ok c) :
    Acts ok (c.prog : Prog (Storage κ β) Err Unit) :=
  acts_single c.single_prog (fun s wk =>
    .inr ⟨c, allowed, typed, by rw [(c.leads_prog typed s wk).1]⟩)

/-- What the allowed commands keep, the program keeps, whoever acts in between. -/
theorem keeps_of_acts {inv : Storage κ β → Prop} (kinded : ∀ s, inv s → s.WellKinded)
    (each : ∀ c s, ok c → c.Typed → inv s → inv (c.apply s)) (p : Prog (Storage κ β) Err A)
    (acts : Acts ok p) : Keeps inv p := by
  induction p with
  | done a => trivial
  | fail e => trivial
  | act effect next ih =>
    intro s hold
    obtain ⟨here, rest⟩ := acts s (kinded s hold)
    refine ⟨?_, ih s rest⟩
    rcases here with same | ⟨c, allowed, typed, does⟩
    · rw [same]
      exact hold
    · rw [does]
      exact each c s allowed typed hold

end Acts

/-! The reading commands -/

section Reads
variable {Err : Type} [FromStoreError κ Err] {ok : Command κ β → Prop} {k : κ}

theorem acts_get (family : KeyKinds.kindOf k = some .bytes) :
    Acts ok (Bucket.get k : Prog (Storage κ β) Err _) :=
  acts_reads (single_atomic _) (fun s wk => by rw [run_get wk family])

theorem acts_hashGet (family : KeyKinds.kindOf k = some .hash) (f : String) :
    Acts ok (Bucket.hashGet k f : Prog (Storage κ β) Err _) :=
  acts_reads (single_atomic _) (fun s wk => by rw [run_hashGet wk family])

theorem acts_hashGetAll (family : KeyKinds.kindOf k = some .hash) :
    Acts ok (Bucket.hashGetAll k : Prog (Storage κ β) Err _) :=
  acts_reads (single_atomic _) (fun s wk => by rw [run_hashGetAll wk family])

theorem acts_setMembers (family : KeyKinds.kindOf k = some .set) :
    Acts ok (Bucket.setMembers k : Prog (Storage κ β) Err _) :=
  acts_reads (single_atomic _) (fun s wk => by rw [run_setMembers wk family])

end Reads

/-! The writing commands -/

section Writes
variable {Err : Type} [FromStoreError κ Err] {ok : Command κ β → Prop} {k : κ}

theorem acts_hashSet {f : String} {v : β} (family : KeyKinds.kindOf k = some .hash)
    (allowed : ok (.setField k f v)) : Acts ok
      (Bucket.hashSet k f v : Prog (Storage κ β) Err Unit) :=
  acts_command (c := .setField k f v) family allowed

theorem acts_hashDelete {f : String} (family : KeyKinds.kindOf k = some .hash)
    (allowed : ok (.dropField k f)) : Acts ok
      (Bucket.hashDelete k f : Prog (Storage κ β) Err Unit) :=
  acts_command (c := .dropField k f) family allowed

theorem acts_set {v : β} (family : KeyKinds.kindOf k = some .bytes) (allowed : ok (.put k v)) :
    Acts ok (Bucket.set k v : Prog (Storage κ β) Err Unit) :=
  acts_command (c := .put k v) family allowed

theorem acts_setWithTtl {v : β} {ttl : Nat} (family : KeyKinds.kindOf k = some .bytes)
    (allowed : ok (.putTtl k v ttl)) :
    Acts ok (Bucket.setWithTtl k v ttl : Prog (Storage κ β) Err Unit) :=
  acts_command (c := .putTtl k v ttl) family allowed

theorem acts_delete (allowed : ok (.erase k)) :
    Acts ok (Bucket.delete k : Prog (Storage κ β) Err Unit) :=
  acts_command (c := .erase k) trivial allowed

theorem acts_setAdd {x : String} (family : KeyKinds.kindOf k = some .set)
    (allowed : ok (.addMember k x)) :
    Acts ok (Bucket.setAdd k x : Prog (Storage κ β) Err Unit) :=
  acts_command (c := .addMember k x) family allowed

theorem acts_setRemove {x : String} (family : KeyKinds.kindOf k = some .set)
    (allowed : ok (.dropMember k x)) : Acts ok
      (Bucket.setRemove k x : Prog (Storage κ β) Err Unit) :=
  acts_command (c := .dropMember k x) family allowed

theorem acts_setIfAbsent {v : β} (family : KeyKinds.kindOf k = some .bytes)
    (allowed : ok (.put k v)) : Acts ok (Bucket.setIfAbsent k v : Prog (Storage κ β) Err Bool) := by
  apply acts_single (p := Bucket.setIfAbsent k v) (single_atomic _)
  intro s wk
  have ran : run (Bucket.setIfAbsent k v : Prog (Storage κ β) Err Bool) s =
      ((s.setIfAbsent k v).1.mapError FromStoreError.wrap, (s.setIfAbsent k v).2) :=
    run_command _
  have writes : s.replace k (.bytes v) none = (Command.put k v).apply s := rfl
  rw [ran, Storage.setIfAbsent]
  cases s.backend with
  | inMemory =>
    simp only [Storage.get_eq wk family]
    cases s.bytesAt k with
    | some b => exact .inl rfl
    | none => exact .inr ⟨.put k v, allowed, family, writes⟩
  | valkey =>
    simp only
    split
    · exact .inl rfl
    · exact .inr ⟨.put k v, allowed, family, writes⟩

theorem acts_setTtl {ttl : Nat} (positive : ttl ≠ 0) (allowed : ok (.arm k ttl)) :
    Acts ok (Bucket.setTtl k ttl : Prog (Storage κ β) Err Unit) := by
  have same : (Bucket.setTtl k ttl : Prog (Storage κ β) Err Unit) = (Command.arm k ttl).prog := by
    simp [Command.prog, Bucket.armTtl, positive]
  rw [same]
  exact acts_command trivial allowed

/-- Counting up writes the count back as a field. -/
theorem acts_hashIncr [Decimal β] {f : String} {delta : Int}
    (family : KeyKinds.kindOf k = some .hash)
    (allowed : ∀ n, ok (.setField k f (Decimal.ofInt n))) :
    Acts ok (Bucket.hashIncr k f delta : Prog (Storage κ β) Err Int) := by
  apply acts_single (p := Bucket.hashIncr k f delta) (single_atomic _)
  intro s wk
  have ran : run (Bucket.hashIncr k f delta : Prog (Storage κ β) Err Int) s =
      ((s.hashIncr k f delta).1.mapError FromStoreError.wrap, (s.hashIncr k f delta).2) :=
    run_command _
  rw [ran, Storage.hashIncr_eq wk family]
  cases s.addInt k (some f) ((s.hashAt k).lookup f) delta with
  | error e => exact .inl rfl
  | ok n => exact .inr ⟨.setField k f (Decimal.ofInt n), allowed n, family, rfl⟩

end Writes

/-! What a program leaves alone -/

def Command.key : Command κ β → κ
  | .setField k _ _ => k
  | .dropField k _ => k
  | .put k _ => k
  | .putTtl k _ _ => k
  | .erase k => k
  | .addMember k _ => k
  | .dropMember k _ => k
  | .arm k _ => k

omit [KeyKinds κ] in
theorem Command.entry_apply (c : Command κ β) (s : Storage κ β) {k : κ} (other : k ≠ c.key) :
    (c.apply s).entry k = s.entry k := by
  cases c with
  | setField k' f v => exact Storage.entry_write_ne s other _
  | dropField k' f => exact Storage.entry_dropField_ne s other f
  | put k' v => exact Storage.entry_replace_ne s other _ _
  | putTtl k' v ttl => exact Storage.entry_replace_ne s other _ _
  | erase k' => exact Storage.entry_erase_ne s other
  | addMember k' x => exact Storage.entry_write_ne s other _
  | dropMember k' x => exact Storage.entry_dropMember_ne s other x
  | arm k' ttl => exact Storage.entry_arm_ne s other _

/-- What a command can do to a field of a hash: set it, clear it, or leave it. -/
theorem Command.field_apply {c : Command κ β} (typed : c.Typed) {k : κ}
    (family : KeyKinds.kindOf k = some .hash) (s : Storage κ β) (f : String) :
    (∃ v, c = .setField k f v ∧ ((c.apply s).hashAt k).lookup f = some v) ∨
    ((c = .dropField k f ∨ c = .erase k) ∧ ((c.apply s).hashAt k).lookup f = none) ∨
    ((c.apply s).hashAt k).lookup f = (s.hashAt k).lookup f := by
  by_cases here : k = c.key
  · cases c with
    | setField k' f' v =>
      cases here
      by_cases same : f = f'
      · subst same
        exact .inl ⟨v, rfl, by simp [Command.apply, Command.key]⟩
      · exact .inr (.inr (by simp [Command.apply, Command.key, AList.lookup_insert_ne same]))
    | dropField k' f' =>
      cases here
      by_cases same : f = f'
      · subst same
        exact .inr (.inl ⟨.inl rfl, by simp [Command.apply, Command.key]⟩)
      · exact .inr (.inr (by simp [Command.apply, Command.key, AList.lookup_erase_ne same]))
    | erase k' =>
      cases here
      exact .inr (.inl ⟨.inr rfl, by simp [Command.apply, Command.key]⟩)
    | arm k' ttl =>
      cases here
      exact .inr (.inr (by simp [Command.apply, Command.key, ttlArmed]))
    | _ =>
      cases here
      cases family.symm.trans typed
  · exact .inr (.inr (by rw [Storage.hashAt_of_entry (c.entry_apply s here)]))

theorem run_of_reads {Err A : Type} {p : Prog (Storage κ β) Err A}
    (acts : Acts (fun _ => False) p) {s : Storage κ β} (wk : s.WellKinded) : (run p s).2 = s := by
  have keeps : Keeps (fun t : Storage κ β => t = s) p :=
    keeps_of_acts (fun t same => same ▸ wk) (fun _ _ impossible => impossible.elim) p acts
  exact keeps_run p keeps s rfl

/-- A program that writes only under some keys leaves every other entry as it was. -/
theorem entry_of_acts {Err A : Type} (touched : κ → Prop) {p : Prog (Storage κ β) Err A}
    (acts : Acts (fun c => touched c.key) p) {s : Storage κ β} (wk : s.WellKinded) :
    (run p s).2.WellKinded ∧ ∀ k, ¬ touched k → (run p s).2.entry k = s.entry k := by
  have keeps : Keeps (fun t : Storage κ β => t.WellKinded ∧
      ∀ k, ¬ touched k → t.entry k = s.entry k) p := by
    apply keeps_of_acts (fun t held => held.1) _ p acts
    rintro c t allowed typed ⟨kinded, same⟩
    refine ⟨c.wellKinded_apply typed kinded, ?_⟩
    intro k untouched
    have other : k ≠ c.key := fun here => untouched (here.symm ▸ allowed)
    rw [c.entry_apply t other, same k untouched]
  exact keeps_run p keeps s ⟨wk, fun _ _ => rfl⟩

end Kinds
end WireMirage
