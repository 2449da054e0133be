import WireMirage.Store.Handles
import WireMirage.Store.Ranges

/-!
The boundary between a handler in the JavaScript engine and the host. A signed 64-bit
integer that is negative traps on its way out and arrives larger by `2 ^ 64` on its way in;
the bucket handed to a handler is wrapped to make up for both.
-/
namespace WireMirage

/-! Crossing the boundary -/

inductive HandlerFault (κ : Type) where
  /-- The guest traps before the host is called. -/
  | trapped
  | thrown (msg : String)
  | store (e : StoreError κ)
  deriving DecidableEq

def liftS64 (n : Int) : Int := if n < 0 then n + 2 ^ 64 else n

/-- `BigInt.asIntN(64, n)`. -/
def asInt64 (n : Int) : Int :=
  if n % 2 ^ 64 < 2 ^ 63 then n % 2 ^ 64 else n % 2 ^ 64 - 2 ^ 64

namespace Guest
variable {κ β : Type} [DecidableEq κ]

def listLength (k : κ) (s : Storage κ β) : Except (HandlerFault κ) Nat :=
  (s.listLength k).1.mapError .store

def listRange (k : κ) (start stop : Int) (s : Storage κ β) : Except (HandlerFault κ) (List β) :=
  if start < 0 ∨ stop < 0 then .error .trapped
  else (s.listRange k start stop).1.mapError .store

def incr [Decimal β] (k : κ) (delta : Int) (s : Storage κ β) :
    Except (HandlerFault κ) Int × Storage κ β :=
  if delta < 0 then (.error .trapped, s)
  else (((s.incr k delta).1.mapError .store).map liftS64, (s.incr k delta).2)

end Guest

/-! The wrapper -/

namespace Engine

def normalizeIndex (i len : Int) : Int :=
  if 0 ≤ i then i
  else
    let fromEnd := len + i
    if 0 < fromEnd then fromEnd else 0

def negativeDelta : String :=
  "incr(): negative deltas are not supported on the TypeScript/" ++
    "JavaScript handler path — a ComponentizeJS defect " ++
    "(bytecodealliance/ComponentizeJS#343) traps the handler when a " ++
    "negative s64 crosses the component boundary. Count upwards, or " ++
    "keep the value with set() instead of incr()."

variable {κ β : Type} [DecidableEq κ]

/-- `listRange` of the wrapped bucket. -/
def listRange (k : κ) (start stop : Int) (s : Storage κ β) : Except (HandlerFault κ) (List β) :=
  if start < 0 ∨ stop < 0 then do
    let len ← Guest.listLength k s
    if len = 0 then return []
    else Guest.listRange k (normalizeIndex start len) (normalizeIndex stop len) s
  else Guest.listRange k start stop s

/-- `incr` of the wrapped bucket. -/
def incr [Decimal β] (k : κ) (delta : Int) (s : Storage κ β) :
    Except (HandlerFault κ) Int × Storage κ β :=
  if delta < 0 then (.error (.thrown negativeDelta), s)
  else ((Guest.incr k delta s).1.map asInt64, (Guest.incr k delta s).2)

end Engine

/-! What the wrapper answers -/

theorem asInt64_lift {n : Int} (low : i64Min ≤ n) (high : n ≤ i64Max) :
    asInt64 (liftS64 n) = n := by
  unfold i64Min at low
  unfold i64Max at high
  unfold asInt64 liftS64
  omega

theorem normalizeIndex_nonneg (i : Int) {len : Int} : 0 ≤ Engine.normalizeIndex i len := by
  unfold Engine.normalizeIndex
  simp only
  omega

/-- The stop lies before the beginning and is moved onto the first element, which the start
    reaches. -/
def MovedOntoFirst (len start stop : Int) : Prop :=
  0 < len ∧ stop < -len ∧ (start = 0 ∨ start ≤ -len)

section Ranges
open Window
variable {κ β : Type} [DecidableEq κ] {s : Storage κ β} {k : κ} {q : List β}
  (valkey : s.backend = .valkey) (stored : s.lookup k = some (.list q))
include valkey stored

theorem guest_range {start stop : Int} (first : 0 ≤ start) (last : 0 ≤ stop) :
    Guest.listRange k start stop s = .ok (inRange q start stop) := by
  have answer : (s.listRange k start stop).1 = .ok (inRange q start stop) := by
    simp only [Storage.listRange, stored, valkey, lrange_eq]
  rw [Guest.listRange, if_neg (by omega), answer]
  rfl

omit valkey in
theorem guest_length : Guest.listLength k s = .ok q.length := by
  simp only [Guest.listLength, Storage.listLength, stored]
  rfl

/-- The indices the host is called with, where it is called. -/
theorem engine_range (start stop : Int) :
    Engine.listRange k start stop s =
      .ok (if start < 0 ∨ stop < 0 then
        inRange q (Engine.normalizeIndex start q.length) (Engine.normalizeIndex stop q.length)
      else inRange q start stop) := by
  unfold Engine.listRange
  split
  · rw [guest_length stored]
    show (if q.length = 0 then _ else _) = _
    split
    · rename_i empty
      have nil : q = [] := List.length_eq_zero_iff.mp empty
      rw [nil]
      rfl
    · exact guest_range valkey stored (normalizeIndex_nonneg start) (normalizeIndex_nonneg stop)
  · rename_i both
    exact guest_range valkey stored (by omega) (by omega)

theorem engine_range_iff (start stop : Int) :
    Engine.listRange k start stop s = .ok (inRange q start stop) ↔
      ¬ MovedOntoFirst q.length start stop := by
  rw [engine_range valkey stored, Except.ok.injEq]
  split
  · rename_i negative
    constructor
    · rintro same ⟨some, before, onto⟩
      have empty : inRange q start stop = [] := by
        rw [inRange, between_eq_nil_iff]
        intro i within
        unfold fromEnd
        omega
      rw [empty, inRange, between_eq_nil_iff] at same
      refine same 0 (by omega) ?_
      unfold fromEnd Engine.normalizeIndex
      simp only
      omega
    · intro still
      apply between_congr
      intro i within
      unfold MovedOntoFirst at still
      unfold fromEnd Engine.normalizeIndex
      simp only
      omega
  · rename_i both
    refine ⟨fun _ moved => ?_, fun _ => rfl⟩
    obtain ⟨some, before, _⟩ := moved
    omega

end Ranges

theorem engine_incr {κ β : Type} [DecidableEq κ] [Decimal β] {s : Storage κ β} {k : κ} {b : β}
    {n delta : Int} (stored : s.lookup k = some (.bytes b)) (reads : s.readInt b = some n)
    (forward : 0 ≤ delta) (low : i64Min ≤ n + delta) (high : n + delta ≤ i64Max) :
    (Engine.incr k delta s).1 = .ok (n + delta) := by
  have sum : s.addInt k none (some b) delta = .ok (n + delta) := by
    simp only [Storage.addInt, reads, low, high, and_self, if_true]
  have answer : (s.incr k delta).1 = .ok (n + delta) := by
    simp only [Storage.incr, stored, sum, Storage.storeSum]
  rw [Engine.incr, if_neg (by omega), Guest.incr, if_neg (by omega), answer]
  exact congrArg Except.ok (asInt64_lift low high)

/-- No call of a wrapped bucket traps; a range is what the host answers unless it is moved onto
    the first element, and a counter is always the true sum. -/
theorem engine_bucket_transparent {κ β : Type} [DecidableEq κ] [Decimal β] {s : Storage κ β} {k : κ}
    {q : List β} (valkey : s.backend = .valkey) (stored : s.lookup k = some (.list q))
    (start stop : Int) :
    Engine.listRange k start stop s ≠ .error .trapped ∧
      (Engine.listRange k start stop s = (s.listRange k start stop).1.mapError .store ↔
        ¬ MovedOntoFirst q.length start stop) ∧
      ∀ (c : κ) (b : β) (n delta : Int), s.lookup c = some (.bytes b) → s.readInt b = some n →
        0 ≤ delta → i64Min ≤ n + delta → n + delta ≤ i64Max →
        (Engine.incr c delta s).1 = .ok (n + delta) := by
  have host : (s.listRange k start stop).1 = .ok (inRange q start stop) := by
    simp only [Storage.listRange, stored, valkey, lrange_eq]
  refine ⟨?_, ?_, ?_⟩
  · rw [engine_range valkey stored]
    intro trapped
    cases trapped
  · rw [host]
    exact engine_range_iff valkey stored start stop
  · intro c b n delta counter reads forward low high
    exact engine_incr counter reads forward low high

namespace Sample

/-- The queue beside a counter below zero. -/
def counted : Backing := (Storage.set "n" (utf8Bytes "-5") (queue .valkey)).2

end Sample

theorem engine_bucket_transparent_counted :
    Engine.listRange "q" (-2) (-1) Sample.counted = .ok [[97], [98]] ∧
      (Engine.incr "n" 3 Sample.counted).1 = .ok (-2) := by
  have stored : Sample.counted.lookup "q" = some (.list [[97], [98]]) := by rfl
  have counter : Sample.counted.lookup "n" = some (.bytes (utf8Bytes "-5")) := by rfl
  have reads : Sample.counted.readInt (utf8Bytes "-5") = some (-5) := by decide +kernel
  have still : ¬ MovedOntoFirst ([[97], [98]] : List Bytes).length (-2) (-1) := by
    unfold MovedOntoFirst
    decide
  obtain ⟨_, ranges, sums⟩ := engine_bucket_transparent rfl stored (-2) (-1)
  exact ⟨ranges.mpr still, sums "n" _ (-5) 3 counter reads (by decide) (by decide) (by decide)⟩

/-- A range that ends before the list begins has the first element through the wrapper. -/
theorem engine_range_before_the_beginning :
    Engine.listRange "q" 0 (-3) Sample.counted = .ok [[97]] ∧
      (Sample.counted.listRange "q" 0 (-3)).1 = .ok [] := by
  constructor <;> rfl

end WireMirage
