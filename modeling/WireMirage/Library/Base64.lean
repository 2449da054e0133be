import Mathlib.Data.List.GetD

/-!
Base64 in the standard alphabet with padding. Decoding is strict: only what encoding
writes is read, so padding is complete and the bits it stands for are zero.
-/
namespace Base64

def alphabet : List Char :=
  "ABCDEFGHIJKLMNOPQRSTUVWXYZabcdefghijklmnopqrstuvwxyz0123456789+/".toList

/-- The symbol of a six-bit digit. -/
def symbol (n : Nat) : Char := alphabet.getD n '='

/-- The digit of a symbol; the padding sign has none. -/
def digit (c : Char) : Option Nat := alphabet.findIdx? (· = c)

def encode : List UInt8 → List Char
  | [] => []
  | [a] => [symbol (a.toNat / 4), symbol (a.toNat % 4 * 16), '=', '=']
  | [a, b] =>
    [symbol (a.toNat / 4), symbol (a.toNat % 4 * 16 + b.toNat / 16), symbol (b.toNat % 16 * 4), '=']
  | a :: b :: c :: rest =>
    symbol (a.toNat / 4) :: symbol (a.toNat % 4 * 16 + b.toNat / 16) ::
      symbol (b.toNat % 16 * 4 + c.toNat / 64) :: symbol (c.toNat % 64) :: encode rest

/-- The bytes of a group that ends a text, padded. -/
def lastGroup (w x : Nat) : Option Nat → Option (List UInt8)
  | none => if x % 16 = 0 then some [UInt8.ofNat (w * 4 + x / 16)] else none
  | some y =>
    if y % 4 = 0 then some [UInt8.ofNat (w * 4 + x / 16), UInt8.ofNat (x % 16 * 16 + y / 4)]
    else none

def fullGroup (w x y z : Nat) : List UInt8 :=
  [UInt8.ofNat (w * 4 + x / 16), UInt8.ofNat (x % 16 * 16 + y / 4), UInt8.ofNat (y % 4 * 64 + z)]

def decode : List Char → Option (List UInt8)
  | [] => some []
  | w :: x :: y :: z :: rest =>
    match digit w, digit x, digit y, digit z with
    | some w, some x, some y, some z => (decode rest).map (fullGroup w x y z ++ ·)
    | some w, some x, some y, none => if z = '=' ∧ rest = [] then lastGroup w x (some y) else none
    | some w, some x, none, none =>
      if y = '=' ∧ z = '=' ∧ rest = [] then lastGroup w x none else none
    | _, _, _, _ => none
  | _ => none

theorem digit_symbol {n : Nat} (small : n < 64) : digit (symbol n) = some n := by
  have all : ∀ n : Fin 64, digit (symbol n) = some n.val := by decide +kernel
  exact all ⟨n, small⟩

theorem digit_padding : digit '=' = none := by decide +kernel

theorem byte_lt (a : UInt8) : a.toNat < 256 := a.toNat_lt

theorem byte_of_nat {a : UInt8} {n : Nat} (same : n = a.toNat) : UInt8.ofNat n = a := by
  rw [same, UInt8.ofNat_toNat]

theorem decode_encode (bytes : List UInt8) : decode (encode bytes) = some bytes := by
  induction bytes using encode.induct with
  | case1 => rfl
  | case2 a =>
    have bound := byte_lt a
    have one := digit_symbol (n := a.toNat / 4) (by omega)
    have two := digit_symbol (n := a.toNat % 4 * 16) (by omega)
    have whole : UInt8.ofNat (a.toNat / 4 * 4 + a.toNat % 4 * 16 / 16) = a :=
      byte_of_nat (by omega)
    have zero : a.toNat % 4 * 16 % 16 = 0 := by omega
    simp only [encode, decode, one, two, digit_padding, lastGroup, whole, zero, and_self, if_true]
  | case3 a b =>
    have boundA := byte_lt a
    have boundB := byte_lt b
    have one := digit_symbol (n := a.toNat / 4) (by omega)
    have two := digit_symbol (n := a.toNat % 4 * 16 + b.toNat / 16) (by omega)
    have three := digit_symbol (n := b.toNat % 16 * 4) (by omega)
    have first : UInt8.ofNat (a.toNat / 4 * 4 + (a.toNat % 4 * 16 + b.toNat / 16) / 16) = a :=
      byte_of_nat (by omega)
    have second : UInt8.ofNat ((a.toNat % 4 * 16 + b.toNat / 16) % 16 * 16 +
        b.toNat % 16 * 4 / 4) = b := byte_of_nat (by omega)
    have zero : b.toNat % 16 * 4 % 4 = 0 := by omega
    simp only [encode, decode, one, two, three, digit_padding, lastGroup, first, second, zero,
      and_self, if_true]
  | case4 a b c rest ih =>
    have boundA := byte_lt a
    have boundB := byte_lt b
    have boundC := byte_lt c
    have one := digit_symbol (n := a.toNat / 4) (by omega)
    have two := digit_symbol (n := a.toNat % 4 * 16 + b.toNat / 16) (by omega)
    have three := digit_symbol (n := b.toNat % 16 * 4 + c.toNat / 64) (by omega)
    have four := digit_symbol (n := c.toNat % 64) (by omega)
    have first : UInt8.ofNat (a.toNat / 4 * 4 + (a.toNat % 4 * 16 + b.toNat / 16) / 16) = a :=
      byte_of_nat (by omega)
    have second : UInt8.ofNat ((a.toNat % 4 * 16 + b.toNat / 16) % 16 * 16 +
        (b.toNat % 16 * 4 + c.toNat / 64) / 4) = b := byte_of_nat (by omega)
    have third : UInt8.ofNat ((b.toNat % 16 * 4 + c.toNat / 64) % 4 * 64 + c.toNat % 64) = c :=
      byte_of_nat (by omega)
    simp only [encode, decode, one, two, three, four, ih, Option.map_some, fullGroup, first,
      second, third]
    rfl

theorem length_encode (bytes : List UInt8) :
    (encode bytes).length = 4 * ((bytes.length + 2) / 3) := by
  induction bytes using encode.induct with
  | case1 => simp [encode]
  | case2 a => simp [encode]
  | case3 a b => simp [encode]
  | case4 a b c rest ih =>
    simp only [encode, List.length_cons, ih]
    omega

/-- The padding sign included. -/
def signs : List Char := '=' :: alphabet

theorem symbol_mem (n : Nat) : symbol n ∈ signs := by
  by_cases small : n < alphabet.length
  · rw [symbol, List.getD_eq_getElem _ _ small]
    exact List.mem_cons_of_mem _ (List.getElem_mem small)
  · rw [symbol, List.getD_eq_default _ _ (by omega)]
    exact List.mem_cons_self

theorem encode_signs (bytes : List UInt8) : ∀ c ∈ encode bytes, c ∈ signs := by
  have padding : '=' ∈ signs := List.mem_cons_self
  induction bytes using encode.induct with
  | case1 => simp [encode]
  | case2 a => simp [encode, symbol_mem, padding]
  | case3 a b => simp [encode, symbol_mem, padding]
  | case4 a b c rest ih =>
    simp only [encode, List.mem_cons]
    rintro sign (rfl | rfl | rfl | rfl | later)
    · exact symbol_mem _
    · exact symbol_mem _
    · exact symbol_mem _
    · exact symbol_mem _
    · exact ih sign later

end Base64
