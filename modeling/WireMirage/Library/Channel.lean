import Mathlib.Data.List.Basic

/-!
Channels from a sender to a receiver that may go away: one that queues what is sent and makes
the sender wait while it is full, and one for a single message.
-/

/-- A queue. Sending gives nothing while the sender waits, and fails once the receiver is gone. -/
class Channel (C A : Type) where
  send : C → A → Option (Bool × C)
  receive : C → Option (A × C)
  drop : C → C
  waiting : C → List A
  listening : C → Bool
  sent : ∀ c a d, send c a = some (true, d) →
    listening c = true ∧ listening d = true ∧ waiting d = waiting c ++ [a]
  refused : ∀ c a d, send c a = some (false, d) → listening c = false ∧ listening d = false
  received : ∀ c a d, receive c = some (a, d) →
    listening c = true ∧ listening d = true ∧ waiting c = a :: waiting d
  dropped : ∀ c, listening (drop c) = false

/-- A channel for one message, which is lost when the receiver is gone. -/
class OneShot (C A : Type) where
  send : C → A → C
  receive : C → Option (A × C)
  drop : C → C
  pending : C → Option A
  sent : ∀ c a, pending (send c a) = some a ∨ pending (send c a) = none
  received : ∀ c a d, receive c = some (a, d) → pending c = some a ∧ pending d = none
  dropped : ∀ c, pending (drop c) = none

/-- A queue with room for so many messages. -/
structure BoundedQueue (A : Type) where
  room : Nat
  items : List A
  open_ : Bool
  deriving DecidableEq

namespace BoundedQueue
variable {A : Type}

def send (q : BoundedQueue A) (a : A) : Option (Bool × BoundedQueue A) :=
  if q.open_ then
    if q.items.length < q.room then some (true, { q with items := q.items ++ [a] }) else none
  else some (false, q)

def receive (q : BoundedQueue A) : Option (A × BoundedQueue A) :=
  if q.open_ then
    match q.items with
    | [] => none
    | a :: rest => some (a, { q with items := rest })
  else none

instance : Channel (BoundedQueue A) A where
  send := send
  receive := receive
  drop q := { q with items := [], open_ := false }
  waiting := BoundedQueue.items
  listening := BoundedQueue.open_
  sent := by
    intro c a d sent
    unfold send at sent
    split at sent
    · rename_i here
      split at sent
      · cases sent
        exact ⟨here, here, rfl⟩
      · cases sent
    · cases sent
  refused := by
    intro c a d sent
    unfold send at sent
    split at sent
    · split at sent <;> cases sent
    · rename_i gone
      cases sent
      have shut : c.open_ = false := by simpa using gone
      exact ⟨shut, shut⟩
  received := by
    intro c a d received
    unfold receive at received
    split at received
    · rename_i here
      split at received
      · cases received
      · rename_i first
        cases received
        exact ⟨here, here, first⟩
    · cases received
  dropped := fun _ => rfl

end BoundedQueue

structure Slot (A : Type) where
  message : Option A
  open_ : Bool
  deriving DecidableEq

instance (A : Type) : OneShot (Slot A) A where
  send slot a := ⟨if slot.open_ then some a else none, slot.open_⟩
  receive slot := slot.message.map (fun a => (a, { slot with message := none }))
  drop _ := ⟨none, false⟩
  pending := Slot.message
  sent := by
    intro slot a
    cases slot.open_ with
    | true => exact .inl rfl
    | false => exact .inr rfl
  received := by
    intro slot a d received
    obtain ⟨b, held, same⟩ := Option.map_eq_some_iff.mp received
    cases same
    exact ⟨held, rfl⟩
  dropped := fun _ => rfl
