import Mathlib.Data.List.Perm.Basic

/-!
Copies of a source that hear of its changes by notices. Every item of a copy is good, or a
notice that concerns it is outstanding: on its way, or missed for good.
-/
namespace Notices

structure Inbox (M : Type) where
  pending : List M
  missed : List M
  deriving DecidableEq, Repr

section
variable {M X : Type}

namespace Inbox

def empty : Inbox M := ⟨[], []⟩

def post (b : Inbox M) (m : M) : Inbox M := { b with pending := b.pending ++ [m] }

/-- The notice at a place is taken up, whatever the order they came in. -/
def take (b : Inbox M) (k : Nat) : Option (M × Inbox M) :=
  b.pending[k]?.map (fun m => (m, { b with pending := b.pending.eraseIdx k }))

def miss (b : Inbox M) (k : Nat) : Option (Inbox M) :=
  b.pending[k]?.map (fun m => ⟨b.pending.eraseIdx k, m :: b.missed⟩)

/-- The source was read as a whole, and what was missed no longer counts. -/
def settle (b : Inbox M) : Inbox M := { b with missed := [] }

def Outstanding (b : Inbox M) (m : M) : Prop := m ∈ b.pending ∨ m ∈ b.missed

end Inbox

open Inbox

/-- Every item is good, or a notice that concerns it is still out. -/
def Upheld (concerns : M → X → Prop) (out : M → Prop) (good : X → Prop) : Prop :=
  ∀ x, good x ∨ ∃ m, out m ∧ concerns m x

variable {concerns : M → X → Prop} {b b' : Inbox M} {out out' : M → Prop} {good good' : X → Prop}
  {m : M} {k : Nat}

theorem mem_eraseIdx_or {l : List M} {k : Nat} {m : M} (found : l[k]? = some m) (x : M) :
    x ∈ l ↔ x = m ∨ x ∈ l.eraseIdx k := by
  obtain ⟨within, rfl⟩ := List.getElem?_eq_some_iff.mp found
  rw [← (List.getElem_cons_eraseIdx_perm within).mem_iff, List.mem_cons]

theorem outstanding_post (x : M) : (b.post m).Outstanding x ↔ b.Outstanding x ∨ x = m := by
  unfold Inbox.Outstanding Inbox.post
  rw [List.mem_append, List.mem_singleton]
  constructor
  · rintro ((old | new) | missed)
    · exact .inl (.inl old)
    · exact .inr new
    · exact .inl (.inr missed)
  · rintro ((old | missed) | new)
    · exact .inl (.inl old)
    · exact .inr missed
    · exact .inl (.inr new)

theorem outstanding_take (taken : b.take k = some (m, b')) (x : M) :
    b.Outstanding x ↔ x = m ∨ b'.Outstanding x := by
  obtain ⟨y, found, same⟩ := Option.map_eq_some_iff.mp taken
  cases same
  unfold Inbox.Outstanding
  rw [mem_eraseIdx_or found, or_assoc]

theorem outstanding_miss (missed : b.miss k = some b') (x : M) :
    b'.Outstanding x ↔ b.Outstanding x := by
  obtain ⟨y, found, same⟩ := Option.map_eq_some_iff.mp missed
  cases same
  unfold Inbox.Outstanding
  rw [mem_eraseIdx_or found, List.mem_cons]
  constructor
  · rintro (later | here | old)
    · exact .inl (.inr later)
    · exact .inl (.inl here)
    · exact .inr old
  · rintro ((here | later) | old)
    · exact .inr (.inl here)
    · exact .inl later
    · exact .inr (.inr old)

theorem outstanding_settle {x : M} (out : b.settle.Outstanding x) : b.Outstanding x := by
  rcases out with pending | missed
  · exact .inl pending
  · cases missed

/-! What keeps a copy upheld -/

theorem upheld_good (good : ∀ x, good' x) : Upheld concerns out good' := fun x => .inl (good x)

/-- A change spoils only what a notice that is out concerns. -/
theorem upheld_spoiled (upheld : Upheld concerns out good) (more : ∀ n, out n → out' n)
    (spoils : ∀ x, good x → good' x ∨ ∃ n, out' n ∧ concerns n x) :
    Upheld concerns out' good' := by
  intro x
  rcases upheld x with fine | ⟨n, told, about⟩
  · exact spoils x fine
  · exact .inr ⟨n, more n told, about⟩

/-- What is done on a notice makes good what it concerns, and spoils nothing. -/
theorem upheld_heeded (upheld : Upheld concerns out good) (left : ∀ n, out n → n = m ∨ out' n)
    (mended : ∀ x, concerns m x → good' x) (kept : ∀ x, good x → good' x) :
    Upheld concerns out' good' := by
  intro x
  rcases upheld x with fine | ⟨n, told, about⟩
  · exact .inl (kept x fine)
  · rcases left n told with rfl | still
    · exact .inl (mended x about)
    · exact .inr ⟨n, still, about⟩

/-- An item that no notice still out concerns is good. -/
theorem upheld_item (upheld : Upheld concerns out good) {x : X}
    (quiet : ∀ n, out n → ¬ concerns n x) : good x := by
  rcases upheld x with fine | ⟨n, told, about⟩
  · exact fine
  · exact absurd about (quiet n told)

end
end Notices
