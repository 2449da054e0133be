import WireMirage.Store.Views

/-!
Deadlines: which changes set, keep or clear the deadline of a key, and what the
passing of time takes away.
-/
namespace WireMirage
namespace Storage
variable {κ β : Type} [DecidableEq κ]

section
variable (s : Storage κ β) (k k' : κ)

@[simp] theorem armed_empty (b : Backend) : (Storage.empty b : Storage κ β).armed k = none := by
  simp [Storage.empty, armed, entry]

@[simp] theorem armed_put (b : β) (e : Option Nat) :
    (s.put k b e).armed k' = if k' = k then e else s.armed k' := by
  by_cases same : k' = k
  · subst same
    simp [put, armed, entry, replace]
  · simp [put, armed, entry, replace, AList.lookup_insert_ne same, same]

@[simp] theorem armed_putHash (h : Fields β) : (s.putHash k h).armed k' = s.armed k' :=
  armed_write s k k' _

@[simp] theorem armed_erase : (s.erase k).armed k' = if k' = k then none else s.armed k' := by
  by_cases same : k' = k
  · subst same
    simp [armed, entry, erase]
  · simp [armed, entry, erase, AList.lookup_erase_ne same, same]

theorem armed_eraseAll (ks : List κ) :
    (eraseAll ks s).armed k = if k ∈ ks then none else s.armed k := by
  induction ks generalizing s with
  | nil => simp [eraseAll]
  | cons a ks ih =>
    rw [eraseAll_cons, ih, armed_erase]
    by_cases first : k = a
    · simp [first]
    · simp [first]

theorem armed_present {d : Nat} (due : s.armed k = some d) : k ∈ s.entries.keys := by
  by_contra absent
  have none : s.entry k = Option.none := by
    unfold entry
    rw [AList.lookup_eq_none, AList.mem_keys]
    exact absent
  simp [armed, none] at due

@[simp] theorem armed_without (covers : κ → Bool) :
    (s.without covers).armed k = if covers k then none else s.armed k := by
  rw [without, armed_eraseAll]
  by_cases covered : covers k
  · simp only [covered, List.mem_filter, and_true, if_true]
    split
    · rfl
    · rename_i absent
      cases due : s.armed k with
      | none => rfl
      | some d => exact absurd (armed_present s k due) absent
  · simp [covered]

/-! The backend and the clock stay -/

@[simp] theorem clock_put (b : β) (e : Option Nat) : (s.put k b e).clock = s.clock := rfl
@[simp] theorem clock_putHash (h : Fields β) : (s.putHash k h).clock = s.clock := rfl
@[simp] theorem backend_put (b : β) (e : Option Nat) : (s.put k b e).backend = s.backend := rfl
@[simp] theorem backend_putHash (h : Fields β) : (s.putHash k h).backend = s.backend := rfl
@[simp] theorem clock_erase : (s.erase k).clock = s.clock := rfl
@[simp] theorem backend_erase : (s.erase k).backend = s.backend := rfl
@[simp] theorem clock_addMember (x : String) : (s.addMember k x).clock = s.clock := rfl
@[simp] theorem backend_addMember (x : String) : (s.addMember k x).backend = s.backend := rfl

@[simp] theorem clock_arm (e : Option Nat) : (s.arm k e).clock = s.clock := by
  unfold arm
  split <;> rfl

@[simp] theorem backend_arm (e : Option Nat) : (s.arm k e).backend = s.backend := by
  unfold arm
  split <;> rfl

@[simp] theorem armed_addMember (x : String) : (s.addMember k x).armed k' = s.armed k' :=
  armed_write s k k' _

theorem armed_arm_ne (e : Option Nat) (other : k' ≠ k) :
    (s.arm k e).armed k' = s.armed k' := by
  unfold arm
  split
  · simp [armed, entry, replace, AList.lookup_insert_ne other]
  · rfl

/-- On the backend that knows deadlines, a key that is there can be armed. -/
theorem armed_arm (valkey : s.backend = .valkey) {v : MemValue β} (present : s.lookup k = some v)
    (e : Option Nat) : (s.arm k e).armed k = e := by
  unfold arm
  rw [valkey, present]
  simp [armed, entry, replace]

theorem armed_cleared (valkey : s.backend = .valkey) : (s.arm k none).armed k = none := by
  cases found : s.lookup k with
  | some v => exact armed_arm s k valkey found none
  | none =>
    cases due : (s.arm k none).armed k with
    | none => rfl
    | some d =>
      have present := armed_present _ _ due
      rw [← AList.mem_keys] at present
      have gone : (s.arm k none).lookup k = none := by simp [found]
      unfold lookup entry at gone
      rw [Option.map_eq_none_iff, AList.lookup_eq_none] at gone
      exact absurd present gone

theorem armed_dropField_none (f : String) (clear : s.armed k = none) :
    (s.dropField k f).armed k = none := by
  unfold dropField
  split
  · exact clear
  · unfold writeBack
    split
    · simp
    · rw [armed_write]
      exact clear

/-! Time passes -/

/-- A key is due when its deadline is reached. -/
def due (seconds : Nat) : Bool := (s.armed k).any (· ≤ s.clock + seconds)

theorem lookup_advance (seconds : Nat) :
    (s.advance seconds).lookup k = if s.due k seconds then none else s.lookup k := by
  have same : (s.advance seconds).lookup k =
      (eraseAll (s.entries.keys.filter (fun k => s.due k seconds)) s).lookup k := rfl
  rw [same, lookup_eraseAll]
  by_cases expired : s.due k seconds = true
  · cases armed : s.armed k with
    | none => simp [due, armed] at expired
    | some d => simp [expired, armed_present s k armed]
  · simp [expired]

theorem armed_advance (seconds : Nat) :
    (s.advance seconds).armed k = if s.due k seconds then none else s.armed k := by
  have same : (s.advance seconds).armed k =
      (eraseAll (s.entries.keys.filter (fun k => s.due k seconds)) s).armed k := rfl
  rw [same, armed_eraseAll]
  by_cases expired : s.due k seconds = true
  · cases armed : s.armed k with
    | none => simp
    | some d => simp [expired, armed_present s k armed]
  · simp [expired]

@[simp] theorem bytesAt_advance (seconds : Nat) :
    (s.advance seconds).bytesAt k = if s.due k seconds then none else s.bytesAt k := by
  simp only [bytesAt, lookup_advance]
  split <;> rfl

@[simp] theorem hashAt_advance (seconds : Nat) :
    (s.advance seconds).hashAt k = if s.due k seconds then ∅ else s.hashAt k := by
  simp only [hashAt, lookup_advance]
  split <;> rfl

@[simp] theorem clock_advance (seconds : Nat) : (s.advance seconds).clock = s.clock + seconds := rfl

omit [DecidableEq κ] in
theorem backend_foldl {ks : List κ} {change : Storage κ β → κ → Storage κ β}
    (each : ∀ t a, (change t a).backend = t.backend) : (ks.foldl change s).backend = s.backend := by
  induction ks generalizing s with
  | nil => rfl
  | cons a ks ih => rw [List.foldl_cons, ih, each]

@[simp] theorem backend_advance (seconds : Nat) : (s.advance seconds).backend = s.backend :=
  backend_foldl s (fun _ _ => rfl)

end

theorem wellKinded_advance [KeyKinds κ] {s : Storage κ β} (wk : s.WellKinded) (seconds : Nat) :
    (s.advance seconds).WellKinded :=
  wellKinded_eraseAll wk _

end Storage
end WireMirage
