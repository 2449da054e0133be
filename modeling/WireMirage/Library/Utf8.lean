import Mathlib.Data.List.Infix

/-!
Text as bytes. A character's first byte is told from the others, so a text can be found in the
bytes of another one only where a character of it begins.
-/
namespace Utf8

def encode (text : List Char) : List UInt8 := text.flatMap String.utf8EncodeChar

theorem encode_nil : encode [] = [] := rfl

theorem encode_cons (c : Char) (text : List Char) :
    encode (c :: text) = String.utf8EncodeChar c ++ encode text := List.flatMap_cons

theorem encode_append (a b : List Char) : encode (a ++ b) = encode a ++ encode b :=
  List.flatMap_append

/-- A byte that does not begin a character. -/
def Continues (b : UInt8) : Bool := b &&& 0xC0 == 0x80

theorem not_continues_of_first {b : UInt8} (first : b.IsUTF8FirstByte) :
    Continues b = false := by
  have mask (m : UInt8) (wide : m &&& 0xC0 = 0xC0) : b &&& 0xC0 = (b &&& m) &&& 0xC0 := by
    rw [UInt8.and_assoc, wide]
  simp only [Continues, beq_eq_false_iff_ne, ne_eq]
  rcases first with one | two | three | four
  · intro trailing
    have high : (b &&& 0xC0) &&& 0x80 = b &&& 0x80 := by
      rw [UInt8.and_assoc]
      rfl
    rw [trailing, one] at high
    revert high
    decide
  · rw [mask 0xE0 rfl, two]
    decide
  · rw [mask 0xF0 rfl, three]
    decide
  · rw [mask 0xF8 rfl, four]
    decide

theorem char_bytes (c : Char) :
    ∃ b bs, String.utf8EncodeChar c = b :: bs ∧ b.IsUTF8FirstByte ∧
      ∀ x ∈ bs, ¬ x.IsUTF8FirstByte := by
  have width := String.length_utf8EncodeChar c
  have positive := c.utf8Size_pos
  have leads (i : Nat) (inside : i < (String.utf8EncodeChar c).length) :
      (String.utf8EncodeChar c)[i].IsUTF8FirstByte ↔ i = 0 :=
    UInt8.isUTF8FirstByte_getElem_utf8EncodeChar
  cases bytes : String.utf8EncodeChar c with
  | nil =>
    rw [bytes, List.length_nil] at width
    omega
  | cons b bs =>
    simp only [bytes] at leads
    refine ⟨b, bs, rfl, (leads 0 (by simp)).mpr rfl, ?_⟩
    intro x member
    obtain ⟨i, inside, here⟩ := List.mem_iff_getElem.mp member
    have later := leads (i + 1) (by simpa using inside)
    rw [List.getElem_cons_succ, here] at later
    intro first
    have := later.mp first
    omega

theorem encode_eq_nil_iff {text : List Char} : encode text = [] ↔ text = [] := by
  cases text with
  | nil => simp [encode_nil]
  | cons c rest =>
    obtain ⟨b, bs, bytes, _⟩ := char_bytes c
    simp [encode_cons, bytes]

/-- The bytes of a text begin with the first byte of a character. -/
theorem first_of_encode {text : List Char} {b : UInt8} {bs : List UInt8}
    (bytes : encode text = b :: bs) : b.IsUTF8FirstByte := by
  cases text with
  | nil => cases bytes
  | cons c rest =>
    obtain ⟨b', bs', char, first, _⟩ := char_bytes c
    rw [encode_cons, char, List.cons_append, List.cons.injEq] at bytes
    rw [← bytes.1]
    exact first

theorem encode_prefix_iff {part text : List Char} :
    encode part <+: encode text ↔ part <+: text := by
  constructor
  · rintro ⟨more, joined⟩
    have bytes : part.utf8Encode ++ more.toByteArray = text.utf8Encode := by
      simp only [List.utf8Encode, ← List.toByteArray_append]
      exact congrArg List.toByteArray joined
    obtain ⟨later, whole⟩ :=
      List.isPrefix_of_utf8Encode_append_eq_utf8Encode more.toByteArray bytes
    exact ⟨later, whole⟩
  · rintro ⟨later, rfl⟩
    rw [encode_append]
    exact List.prefix_append _ _

theorem encode_inj {a b : List Char} (same : encode a = encode b) : a = b := by
  have before : a <+: b := encode_prefix_iff.mp (same ▸ List.prefix_rfl)
  have after : b <+: a := encode_prefix_iff.mp (same ▸ List.prefix_rfl)
  exact before.eq_of_length (Nat.le_antisymm before.length_le after.length_le)

/-- A text ends another one's bytes only where a character begins. -/
theorem encode_suffix_iff {part text : List Char} :
    encode part <:+ encode text ↔ part <:+ text := by
  constructor
  · rintro ⟨gap, joined⟩
    induction text generalizing gap with
    | nil =>
      have empty : encode part = [] := (List.append_eq_nil_iff.mp joined).2
      rw [encode_eq_nil_iff.mp empty]
    | cons c rest ih =>
      rw [encode_cons] at joined
      rcases List.append_eq_append_iff.mp joined with ⟨bs, char, split⟩ | ⟨bs, rfl, split⟩
      · cases gap with
        | nil =>
          rw [List.nil_append] at char joined
          rw [← encode_cons] at joined
          rw [encode_inj joined]
        | cons g gap =>
          cases bs with
          | nil =>
            rw [List.nil_append] at split
            rw [encode_inj split]
            exact List.suffix_cons c rest
          | cons b bs =>
            obtain ⟨b', bs', bytes, _, trailing⟩ := char_bytes c
            rw [bytes, List.cons_append, List.cons.injEq] at char
            have first : b.IsUTF8FirstByte := first_of_encode split
            have inside : b ∈ bs' := by
              rw [char.2]
              simp
            exact absurd first (trailing b inside)
      · exact (ih bs split.symm).trans (List.suffix_cons c rest)
  · rintro ⟨gap, rfl⟩
    rw [encode_append]
    exact List.suffix_append _ _

end Utf8
