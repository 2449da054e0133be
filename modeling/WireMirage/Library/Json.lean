import Mathlib.Algebra.GroupWithZero.Nat
import Mathlib.Data.List.Basic

/-!
JSON values and the compact text a serializer writes for them. Strings are escaped as
little as the format allows: quotes, backslashes and control characters.
-/

inductive Json where
  | null
  | bool (b : Bool)
  | num (text : String)
  | str (s : String)
  | arr (elements : List Json)
  | obj (members : List (String × Json))

namespace Json

def hexDigit (n : Nat) : Char := Char.ofNat (if n < 10 then 48 + n else 87 + n)

def escape (c : Char) : String :=
  match c.toNat with
  | 8 => "\\b"
  | 9 => "\\t"
  | 10 => "\\n"
  | 12 => "\\f"
  | 13 => "\\r"
  | 34 => "\\\""
  | 92 => "\\\\"
  | n =>
    if n < 32 then ("\\u00".push (hexDigit (n / 16))).push (hexDigit (n % 16))
    else String.singleton c

def escaped : List Char → String
  | [] => ""
  | c :: rest => escape c ++ escaped rest

def quote (s : String) : String := "\"" ++ escaped s.toList ++ "\""

mutual

def text : Json → String
  | .null => "null"
  | .bool true => "true"
  | .bool false => "false"
  | .num t => t
  | .str s => quote s
  | .arr elements => "[" ++ elementsText elements ++ "]"
  | .obj members => "\x7b" ++ membersText members ++ "\x7d"

def elementsText : List Json → String
  | [] => ""
  | [v] => text v
  | v :: rest => text v ++ "," ++ elementsText rest

def membersText : List (String × Json) → String
  | [] => ""
  | [(name, v)] => quote name ++ ":" ++ text v
  | (name, v) :: rest => quote name ++ ":" ++ text v ++ "," ++ membersText rest

end

/-- The one member of an object that has a name. -/
def field (name : String) (members : List (String × Json)) : Option Json :=
  match members.filter (·.1 = name) with
  | [m] => some m.2
  | _ => none

/-! Sizes -/

/-- The bytes of a text. -/
def size (v : Json) : Nat := v.text.utf8ByteSize

def charSize (c : Char) : Nat :=
  if c.toNat = 8 ∨ c.toNat = 9 ∨ c.toNat = 10 ∨ c.toNat = 12 ∨ c.toNat = 13 ∨ c.toNat = 34 ∨
    c.toNat = 92 then 2
  else if c.toNat < 32 then 6
  else c.utf8Size

def quotedSize (s : String) : Nat := 2 + (s.toList.map charSize).sum

theorem hexDigit_size {n : Nat} (small : n < 16) : (hexDigit n).utf8Size = 1 := by
  have all : ∀ n : Fin 16, (hexDigit n).utf8Size = 1 := by decide +kernel
  exact all ⟨n, small⟩

theorem escape_size (c : Char) : (escape c).utf8ByteSize = charSize c := by
  unfold escape charSize
  split
  case h_8 b t n f r q s =>
    have plain : ¬ (c.toNat = 8 ∨ c.toNat = 9 ∨ c.toNat = 10 ∨ c.toNat = 12 ∨ c.toNat = 13 ∨
        c.toNat = 34 ∨ c.toNat = 92) := by
      rintro (code | code | code | code | code | code | code)
      exacts [b code, t code, n code, f code, r code, q code, s code]
    by_cases control : c.toNat < 32
    · have high := hexDigit_size (n := c.toNat / 16) (by omega)
      have low := hexDigit_size (n := c.toNat % 16) (by omega)
      rw [if_pos control, if_neg plain, if_pos control, String.utf8ByteSize_push,
        String.utf8ByteSize_push, high, low]
      rfl
    · rw [if_neg control, if_neg plain, if_neg control, String.utf8ByteSize_singleton]
  all_goals
    rename_i code
    rw [code]
    rfl

theorem escaped_size (l : List Char) : (escaped l).utf8ByteSize = (l.map charSize).sum := by
  induction l with
  | nil => rfl
  | cons c rest ih =>
    simp only [escaped, String.utf8ByteSize_append, escape_size, ih, List.map_cons, List.sum_cons]

theorem quote_size (s : String) : (quote s).utf8ByteSize = quotedSize s := by
  have mark : "\"".utf8ByteSize = 1 := rfl
  simp only [quote, String.utf8ByteSize_append, escaped_size, quotedSize, mark]
  omega

theorem size_str (s : String) : size (.str s) = quotedSize s := by
  rw [size, text, quote_size]

/-- The members of an object and the commas between them. -/
def membersSize (members : List (String × Json)) : Nat :=
  (members.map (fun m => quotedSize m.1 + 1 + m.2.size)).sum + (members.length - 1)

theorem membersText_size (members : List (String × Json)) :
    (membersText members).utf8ByteSize = membersSize members := by
  have colon : ":".utf8ByteSize = 1 := rfl
  have comma : ",".utf8ByteSize = 1 := rfl
  induction members with
  | nil => rfl
  | cons m rest ih =>
    obtain ⟨name, v⟩ := m
    cases rest with
    | nil =>
      simp only [membersText, String.utf8ByteSize_append, quote_size, colon, membersSize,
        List.map_cons, List.map_nil, List.sum_cons, List.sum_nil, List.length_cons, List.length_nil,
        size]
      omega
    | cons next rest =>
      simp only [membersText, String.utf8ByteSize_append, quote_size, colon, comma, ih]
      simp only [membersSize, List.map_cons, List.sum_cons, List.length_cons, size]
      omega

theorem size_obj (members : List (String × Json)) :
    size (.obj members) = 2 + membersSize members := by
  have left : "\x7b".utf8ByteSize = 1 := rfl
  have right : "\x7d".utf8ByteSize = 1 := rfl
  simp only [size, text, String.utf8ByteSize_append, membersText_size, left, right]
  omega

end Json
