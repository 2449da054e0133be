import Mathlib.Data.Nat.Notation

/-!
Internet addresses of both families, and the nets they lie in: the addresses that
agree with the address of the net in its leading bits.
-/
namespace Networks

inductive IpAddr where
  | v4 (bits : BitVec 32)
  | v6 (bits : BitVec 128)
  deriving DecidableEq, Repr

/-- No prefix is longer than the addresses of its family. -/
inductive IpNet where
  | v4 (address : BitVec 32) (prefixLen : Fin 33)
  | v6 (address : BitVec 128) (prefixLen : Fin 129)
  deriving DecidableEq, Repr

def AgreeFirst {width : Nat} (len : Nat) (a b : BitVec width) : Prop :=
  ∀ i < len, a.getMsbD i = b.getMsbD i

instance {width : Nat} (len : Nat) (a b : BitVec width) : Decidable (AgreeFirst len a b) :=
  inferInstanceAs (Decidable (∀ i < len, a.getMsbD i = b.getMsbD i))

def IpNet.Holds : IpNet → IpAddr → Prop
  | .v4 address len, .v4 bits => AgreeFirst len address bits
  | .v6 address len, .v6 bits => AgreeFirst len address bits
  | _, _ => False

instance : (net : IpNet) → (ip : IpAddr) → Decidable (net.Holds ip)
  | .v4 address len, .v4 bits => inferInstanceAs (Decidable (AgreeFirst len address bits))
  | .v6 address len, .v6 bits => inferInstanceAs (Decidable (AgreeFirst len address bits))
  | .v4 _ _, .v6 _ => inferInstanceAs (Decidable False)
  | .v6 _ _, .v4 _ => inferInstanceAs (Decidable False)

/-! Addresses of the fourth version within those of the sixth -/

/-- The embedded address, for the addresses of `::ffff:0:0/96`. -/
def toIpv4Mapped (bits : BitVec 128) : Option (BitVec 32) :=
  if bits.extractLsb' 32 96 = 0xffff#96 then some (bits.setWidth 32) else none

def IpAddr.Mapped : IpAddr → Prop
  | .v4 _ => False
  | .v6 bits => (toIpv4Mapped bits).isSome

theorem mapped_bits {bits : BitVec 128} (mapped : (toIpv4Mapped bits).isSome) {i : Nat}
    (early : i < 96) : bits.getMsbD i = decide (80 ≤ i) := by
  have leading : bits.extractLsb' 32 96 = 0xffff#96 := by
    unfold toIpv4Mapped at mapped
    split at mapped
    · assumption
    · cases mapped
  have known : ∀ j < 96, (0xffff#96).getMsbD j = decide (80 ≤ j) := by decide
  rw [← known i early, ← leading]
  simp only [BitVec.getMsbD_eq_getLsbD, BitVec.getLsbD_extractLsb']
  have place : 32 + (96 - 1 - i) = 128 - 1 - i := by omega
  have within : 96 - 1 - i < 96 := by omega
  simp [place, within, early, show i < 128 by omega]

end Networks
