import WireMirage.Store.Bucket
import WireMirage.Store.Expiry

/-!
Leases: keys whose value is their own deadline, so that they lapse on a backend without
deadlines too.
-/
namespace WireMirage

/-- How a byte string reads as a deadline. -/
class Deadline (β : Type) where
  read : β → Option Nat
  ofDeadline : Nat → β
  reads : ∀ deadline, read (ofDeadline deadline) = some deadline

namespace Storage
variable {κ β : Type} [DecidableEq κ] [Deadline β]

def tryAcquireLease (k : κ) (ttlSeconds : Nat) (s : Storage κ β) : Reply κ β Bool :=
  let deadline := s.clock + max ttlSeconds 1
  let payload : MemValue β := .bytes (Deadline.ofDeadline deadline)
  match s.backend with
  | .inMemory =>
    match s.get k with
    | (.error e, s) => (.error e, s)
    | (.ok none, s) => (.ok true, s.replace k payload none)
    | (.ok (some existing), s) =>
      if (Deadline.read existing).any (s.clock < ·) then (.ok false, s)
      else (.ok true, s.replace k payload none)
  | .valkey =>
    if (s.lookup k).isSome then (.ok false, s)
    else (.ok true, s.replace k payload (some deadline))

/-- A lease that nobody holds. -/
def Free (s : Storage κ β) (k : κ) : Prop :=
  s.lookup k = none ∨ s.backend = .inMemory ∧ ∃ b, s.lookup k = some (.bytes b) ∧
    ∀ d, Deadline.read b = some d → d ≤ s.clock

/-- A lease that is held until a time, if not longer. -/
structure Held (s : Storage κ β) (k : κ) (ends : Nat) : Prop where
  intro ::
  lease : ∃ b d, s.lookup k = some (.bytes b) ∧ Deadline.read b = some d ∧ ends ≤ d
  armed : ∀ e, s.armed k = some e → ends ≤ e

section
variable {s t : Storage κ β} {k : κ} {ends : Nat}

theorem free_of_entry (free : s.Free k) (same : t.entry k = s.entry k)
    (backend : t.backend = s.backend) (clock : s.clock ≤ t.clock) : t.Free k := by
  rcases free with absent | ⟨memory, b, found, past⟩
  · exact .inl ((lookup_of_entry same).trans absent)
  · exact .inr ⟨backend.trans memory, b, (lookup_of_entry same).trans found,
      fun d read => Nat.le_trans (past d read) clock⟩

theorem held_of_entry (held : s.Held k ends) (same : t.entry k = s.entry k) : t.Held k ends := by
  obtain ⟨⟨b, d, found, read, long⟩, armed⟩ := held
  refine ⟨⟨b, d, (lookup_of_entry same).trans found, read, long⟩, ?_⟩
  rw [armed_of_entry same]
  exact armed

theorem free_advance (free : s.Free k) (seconds : Nat) : (s.advance seconds).Free k := by
  rcases free with absent | ⟨memory, b, found, past⟩
  · exact .inl (by rw [lookup_advance, absent, ite_self])
  · by_cases due : s.due k seconds = true
    · exact .inl (by rw [lookup_advance, if_pos due])
    · refine .inr ⟨(backend_advance s seconds).trans memory, b, ?_, ?_⟩
      · rw [lookup_advance, if_neg due, found]
      · intro d read
        have old := past d read
        rw [clock_advance]
        omega

omit [Deadline β] in
theorem not_due {seconds : Nat} (armed : ∀ e, s.armed k = some e → ends ≤ e)
    (within : s.clock + seconds < ends) : s.due k seconds = false := by
  unfold due
  cases deadline : s.armed k with
  | none => rfl
  | some e =>
    have later := armed e deadline
    simp only [Option.any_some, decide_eq_false_iff_not]
    omega

theorem held_advance (held : s.Held k ends) {seconds : Nat} (within : s.clock + seconds < ends) :
    (s.advance seconds).Held k ends := by
  obtain ⟨⟨b, d, found, read, long⟩, armed⟩ := held
  have kept := not_due armed within
  refine ⟨⟨b, d, ?_, read, long⟩, ?_⟩
  · rw [lookup_advance, kept, if_neg (by simp), found]
  · rw [armed_advance, kept, if_neg (by simp)]
    exact armed

theorem lease_cases (s : Storage κ β) (k : κ) (ttl : Nat) :
    (s.tryAcquireLease k ttl).2 = s ∨
      ∃ v e, (s.tryAcquireLease k ttl).2 = s.replace k v e := by
  unfold tryAcquireLease
  cases s.backend with
  | inMemory =>
    simp only [get]
    cases s.lookup k with
    | none => exact .inr ⟨_, _, rfl⟩
    | some v =>
      cases v with
      | bytes b =>
        simp only
        split
        · exact .inl rfl
        · exact .inr ⟨_, _, rfl⟩
      | list q => exact .inl rfl
      | hash h => exact .inl rfl
      | set members => exact .inl rfl
  | valkey =>
    simp only
    split
    · exact .inl rfl
    · exact .inr ⟨_, _, rfl⟩

/-- Nothing but its key changes when a lease is acquired. -/
theorem lease_frame (s : Storage κ β) (k : κ) (ttl : Nat) :
    (s.tryAcquireLease k ttl).2.clock = s.clock ∧
      (s.tryAcquireLease k ttl).2.backend = s.backend ∧
      ∀ k', k' ≠ k → (s.tryAcquireLease k ttl).2.entry k' = s.entry k' := by
  rcases lease_cases s k ttl with same | ⟨v, e, replaced⟩
  · rw [same]
    exact ⟨rfl, rfl, fun _ _ => rfl⟩
  · rw [replaced]
    exact ⟨rfl, rfl, fun k' other => entry_replace_ne s other v e⟩

/-- A free lease is acquired. -/
theorem lease_free (free : s.Free k) (ttl : Nat) (long : ends ≤ s.clock + max ttl 1) :
    (s.tryAcquireLease k ttl).1 = .ok true ∧ (s.tryAcquireLease k ttl).2.Held k ends := by
  have acquired : ∀ e : Option Nat, (∀ d, e = some d → ends ≤ d) →
      (s.replace k (.bytes (Deadline.ofDeadline (s.clock + max ttl 1))) e).Held k ends := by
    intro e later
    refine ⟨⟨_, _, by rw [lookup_replace, if_pos rfl], Deadline.reads _, long⟩, ?_⟩
    simpa [armed, entry, replace] using later
  unfold tryAcquireLease
  rcases free with absent | ⟨memory, b, found, past⟩
  · cases backend : s.backend with
    | inMemory =>
      simp only [get, absent]
      exact ⟨trivial, acquired none (by simp)⟩
    | valkey =>
      simp only [absent, Option.isSome_none]
      exact ⟨rfl, acquired (some _) (by rintro _ ⟨⟩; exact long)⟩
  · have lapsed : ¬ (Deadline.read b).any (s.clock < ·) = true := by
      cases read : Deadline.read b with
      | none => simp
      | some d =>
        have old := past d read
        simp only [Option.any_some, decide_eq_true_eq]
        omega
    simp only [memory, get, found, if_neg lapsed]
    exact ⟨trivial, acquired none (by simp)⟩

/-- A held lease is refused, and the store stays as it is. -/
theorem lease_held (held : s.Held k ends) (now : s.clock < ends) (ttl : Nat) :
    s.tryAcquireLease k ttl = (.ok false, s) := by
  obtain ⟨⟨b, d, found, read, long⟩, _⟩ := held
  unfold tryAcquireLease
  cases s.backend with
  | inMemory =>
    have running : (Deadline.read b).any (s.clock < ·) = true := by
      rw [read, Option.any_some, decide_eq_true_eq]
      omega
    simp only [get, found, if_pos running]
  | valkey => simp [found]

end
end Storage

namespace Bucket
variable {κ β Err : Type} [DecidableEq κ] [FromStoreError κ Err] [Deadline β]

def tryAcquireLease (k : κ) (ttlSeconds : Nat) : Prog (Storage κ β) Err Bool :=
  command (Storage.tryAcquireLease k ttlSeconds)

end Bucket
end WireMirage
