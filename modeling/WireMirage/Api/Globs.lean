import WireMirage.Library.Utf8
import WireMirage.Library.Wildcards
import WireMirage.Journal.Filters
import WireMirage.Store.Handles

/-!
Matching a path against a glob. The matcher never goes back, and it is right not to; it works
on bytes with a cursor, and its cursor stands between characters whenever it slices.
-/
namespace WireMirage

/-! The first occurrence -/

theorem afterFirst_occurs {part text later : List Char}
    (found : afterFirst part text = some later) :
    ∃ gap, text = gap ++ (part ++ later) := by
  induction text with
  | nil =>
    unfold afterFirst at found
    by_cases empty : part = []
    · rw [if_pos empty, Option.some.injEq] at found
      exact ⟨[], by rw [empty, ← found]; rfl⟩
    · rw [if_neg empty] at found
      cases found
  | cons c rest ih =>
    unfold afterFirst at found
    by_cases here : part.isPrefixOf (c :: rest) = true
    · rw [if_pos here, Option.some.injEq] at found
      obtain ⟨behind, whole⟩ := List.isPrefixOf_iff_prefix.mp here
      refine ⟨[], ?_⟩
      rw [← found, ← whole, List.drop_left]
      rfl
    · rw [if_neg here] at found
      obtain ⟨gap, rfl⟩ := ih found
      exact ⟨c :: gap, rfl⟩

theorem afterFirst_leftmost {part text first gap later : List Char}
    (found : afterFirst part text = some first) (split : text = gap ++ (part ++ later)) :
    later <:+ first := by
  induction text generalizing gap with
  | nil =>
    obtain ⟨rfl, rest⟩ := List.append_eq_nil_iff.mp split.symm
    obtain ⟨rfl, rfl⟩ := List.append_eq_nil_iff.mp rest
    exact List.nil_suffix
  | cons c rest ih =>
    unfold afterFirst at found
    by_cases here : part.isPrefixOf (c :: rest) = true
    · rw [if_pos here, Option.some.injEq] at found
      rw [← found, split, ← List.append_assoc]
      have within : part.length ≤ (gap ++ part).length := by
        rw [List.length_append]
        omega
      rw [List.drop_append_of_le_length within]
      exact List.suffix_append _ _
    · rw [if_neg here] at found
      cases gap with
      | nil =>
        rw [List.nil_append] at split
        exact absurd (List.isPrefixOf_iff_prefix.mpr ⟨later, split.symm⟩) here
      | cons g gap =>
        rw [List.cons_append, List.cons.injEq] at split
        exact ih found split.2

theorem afterFirst_none {part text : List Char} (missing : afterFirst part text = none)
    (gap later : List Char) : text ≠ gap ++ (part ++ later) := by
  intro split
  induction text generalizing gap with
  | nil =>
    obtain ⟨_, rest⟩ := List.append_eq_nil_iff.mp split.symm
    obtain ⟨rfl, _⟩ := List.append_eq_nil_iff.mp rest
    cases missing
  | cons c rest ih =>
    unfold afterFirst at missing
    by_cases here : part.isPrefixOf (c :: rest) = true
    · rw [if_pos here] at missing
      cases missing
    · rw [if_neg here] at missing
      cases gap with
      | nil => exact here (List.isPrefixOf_iff_prefix.mpr ⟨later, split.symm⟩)
      | cons g gap =>
        rw [List.cons_append, List.cons.injEq] at split
        exact ih missing gap split.2

/-! Placing the parts -/

theorem globLoop_placed (parts : List (List Char)) (target : List Char) :
    globLoop false parts target = true ↔ Wildcards.Placed parts target := by
  induction parts generalizing target with
  | nil => simp [globLoop, Wildcards.Placed]
  | cons part rest ih =>
    unfold globLoop
    by_cases empty : part = []
    · rw [if_pos empty, ih, empty]
      exact Wildcards.placed_empty_cons.symm
    · rw [if_neg empty]
      simp only [Bool.false_eq_true, if_false]
      cases rest with
      | nil =>
        rw [if_pos rfl]
        exact List.isSuffixOf_iff_suffix
      | cons next rest =>
        rw [if_neg (List.cons_ne_nil next rest)]
        cases found : afterFirst part target with
        | none =>
          constructor
          · intro wrong
            cases wrong
          · rintro ⟨gap, later, split, _⟩
            exact absurd split (afterFirst_none found gap later)
        | some later =>
          refine (ih later).trans (Wildcards.placed_first (afterFirst_occurs found) ?_).symm
          intro gap other split
          exact afterFirst_leftmost found split

theorem globLoop_first (part : List Char) (rest : List (List Char)) (target : List Char) :
    globLoop true (part :: rest) target = true ↔
      ∃ later, target = part ++ later ∧ Wildcards.Placed rest later := by
  unfold globLoop
  by_cases empty : part = []
  · rw [if_pos empty, globLoop_placed, empty]
    simp
  · rw [if_neg empty, if_pos rfl]
    by_cases starts : part.isPrefixOf target = true
    · rw [if_pos starts, globLoop_placed]
      obtain ⟨behind, rfl⟩ := List.isPrefixOf_iff_prefix.mp starts
      rw [List.drop_left]
      simp
    · rw [if_neg starts]
      constructor
      · intro wrong
        cases wrong
      · rintro ⟨later, rfl, _⟩
        exact absurd (List.isPrefixOf_iff_prefix.mpr (List.prefix_append part later)) starts

theorem globMatch_iff (pattern target : String) :
    globMatch pattern target = true ↔
      Wildcards.Expands '*' pattern.toList target.toList := by
  unfold globMatch
  by_cases star : '*' ∈ pattern.toList
  · rw [if_neg (not_not_intro star)]
    have text : ['*'].intercalate (pattern.toList.splitOn '*') = pattern.toList :=
      List.intercalate_splitOn '*'
    have plain := Wildcards.plain_of_splitOn '*' pattern.toList
    revert text plain
    cases pattern.toList.splitOn '*' with
    | nil =>
      intro text
      rw [← text] at star
      simp at star
    | cons part rest =>
      intro text plain
      have here := plain part List.mem_cons_self
      cases rest with
      | nil =>
        rw [List.intercalate_singleton] at text
        rw [← text] at star
        exact absurd star here
      | cons next rest =>
        rw [globLoop_first, ← text, List.intercalate_cons_cons, List.append_assoc,
          List.singleton_append, Wildcards.expands_plain_iff here]
        have behind (later : List Char) :
            Wildcards.Expands '*' ('*' :: ['*'].intercalate (next :: rest)) later ↔
              Wildcards.Placed (next :: rest) later :=
          Wildcards.expands_placed_iff
            (fun other member => plain other (List.mem_cons_of_mem _ member))
            (List.cons_ne_nil next rest)
        simp only [behind]
  · rw [if_pos star, Wildcards.expands_self_iff star, beq_iff_eq, String.toList_inj]
    exact eq_comm

/-! The cursor -/

def isCharBoundary (text : Bytes) (index : Nat) : Bool :=
  index == 0 || index == text.length || (text[index]?).any (fun b => !Utf8.Continues b)

/-- `&text[cursor..]`, which panics inside a character and behind the end. -/
def sliceFrom (text : Bytes) (cursor : Nat) : Option Bytes :=
  if isCharBoundary text cursor then some (text.drop cursor) else none

/-- `str::find`. -/
def findPart (part : Bytes) : Bytes → Option Nat
  | [] => if part = [] then some 0 else none
  | b :: rest =>
    if part.isPrefixOf (b :: rest) then some 0 else (findPart part rest).map (· + 1)

/-- The loop of `glob_match` from its `i`-th part on, without an answer where a slice panics. -/
def globPlaces (target : Bytes) (lastIdx : Nat) : List Bytes → Nat → Nat → Option Bool
  | [], _, _ => some true
  | part :: rest, i, cursor =>
    if part = [] then globPlaces target lastIdx rest (i + 1) cursor
    else match sliceFrom target cursor with
      | none => none
      | some left =>
        if i = 0 then
          if part.isPrefixOf left then
            globPlaces target lastIdx rest (i + 1) (cursor + part.length)
          else some false
        else if i = lastIdx then some (part.isSuffixOf left)
        else match findPart part left with
          | some pos => globPlaces target lastIdx rest (i + 1) (cursor + (pos + part.length))
          | none => some false

def globMatchBytes (pattern target : String) : Option Bool :=
  if '*' ∉ pattern.toList then some (pattern == target)
  else
    let parts := (pattern.toList.splitOn '*').map Utf8.encode
    globPlaces (utf8Bytes target) (parts.length - 1) parts 0 0

theorem sliceFrom_encode (read left : List Char) :
    sliceFrom (Utf8.encode (read ++ left)) (Utf8.encode read).length =
      some (Utf8.encode left) := by
  have boundary :
      isCharBoundary (Utf8.encode (read ++ left)) (Utf8.encode read).length = true := by
    unfold isCharBoundary
    rw [Utf8.encode_append]
    cases bytes : Utf8.encode left with
    | nil => simp
    | cons b rest =>
      have starts := Utf8.not_continues_of_first (Utf8.first_of_encode bytes)
      simp [starts]
  unfold sliceFrom
  rw [if_pos boundary, Utf8.encode_append, List.drop_left]

theorem findPart_skip {part : Bytes} {bs : List UInt8} {b : UInt8} {more : List UInt8}
    (shape : part = b :: more) (first : b.IsUTF8FirstByte)
    (inside : ∀ x ∈ bs, ¬ x.IsUTF8FirstByte) (rest : Bytes) :
    findPart part (bs ++ rest) = (findPart part rest).map (· + bs.length) := by
  induction bs with
  | nil => simp
  | cons x bs ih =>
    have later := ih (fun y member => inside y (List.mem_cons_of_mem _ member))
    have miss : ¬ part.isPrefixOf (x :: (bs ++ rest)) = true := by
      rw [List.isPrefixOf_iff_prefix, shape, List.cons_prefix_cons]
      rintro ⟨rfl, _⟩
      exact inside b List.mem_cons_self first
    rw [List.cons_append, findPart, if_neg miss, later, Option.map_map]
    congr 1

theorem findPart_encode {part : List Char} (some_ : part ≠ []) (text : List Char) :
    match afterFirst part text with
    | some later => ∃ gap, text = gap ++ (part ++ later) ∧
        findPart (Utf8.encode part) (Utf8.encode text) = some (Utf8.encode gap).length
    | none => findPart (Utf8.encode part) (Utf8.encode text) = none := by
  have solid : Utf8.encode part ≠ [] := fun empty => some_ (Utf8.encode_eq_nil_iff.mp empty)
  obtain ⟨b, more, bytes⟩ := List.exists_cons_of_ne_nil solid
  have first := Utf8.first_of_encode bytes
  induction text with
  | nil =>
    rw [afterFirst, if_neg some_]
    show findPart (Utf8.encode part) [] = none
    rw [findPart, if_neg solid]
  | cons c rest ih =>
    unfold afterFirst
    obtain ⟨b', bs, char, _, trailing⟩ := Utf8.char_bytes c
    have whole : Utf8.encode (c :: rest) = b' :: (bs ++ Utf8.encode rest) := by
      rw [Utf8.encode_cons, char, List.cons_append]
    by_cases here : part.isPrefixOf (c :: rest) = true
    · rw [if_pos here]
      obtain ⟨behind, split⟩ := List.isPrefixOf_iff_prefix.mp here
      have found : (Utf8.encode part).isPrefixOf (b' :: (bs ++ Utf8.encode rest)) = true := by
        rw [List.isPrefixOf_iff_prefix, ← whole]
        exact Utf8.encode_prefix_iff.mpr ⟨behind, split⟩
      refine ⟨[], ?_, ?_⟩
      · rw [← split, List.drop_left]
        rfl
      · rw [whole, findPart, if_pos found]
        rfl
    · rw [if_neg here]
      have miss : ¬ (Utf8.encode part).isPrefixOf (b' :: (bs ++ Utf8.encode rest)) = true := by
        rw [List.isPrefixOf_iff_prefix, ← whole, Utf8.encode_prefix_iff]
        exact fun starts => here (List.isPrefixOf_iff_prefix.mpr starts)
      have skip : findPart (Utf8.encode part) (Utf8.encode (c :: rest)) =
          (findPart (Utf8.encode part) (Utf8.encode rest)).map (· + (bs.length + 1)) := by
        rw [whole, findPart, if_neg miss, findPart_skip bytes first trailing, Option.map_map]
        rfl
      cases later : afterFirst part rest with
      | none =>
        rw [later] at ih
        rw [skip, ih]
        rfl
      | some behind =>
        rw [later] at ih
        obtain ⟨gap, split, found⟩ := ih
        refine ⟨c :: gap, by rw [split]; rfl, ?_⟩
        rw [skip, found, Utf8.encode_cons, char]
        simp only [Option.map_some, List.length_append, List.length_cons]
        congr 1
        omega

/-- The cursor stands behind what has been read, and what is left decides. -/
theorem globPlaces_encode (parts : List (List Char)) (read left : List Char) (i lastIdx : Nat)
    (ends : parts ≠ [] → i + parts.length = lastIdx + 1) :
    globPlaces (Utf8.encode (read ++ left)) lastIdx (parts.map Utf8.encode) i
      (Utf8.encode read).length = some (globLoop (i == 0) parts left) := by
  induction parts generalizing read left i with
  | nil => rfl
  | cons part rest ih =>
    have position := ends (List.cons_ne_nil part rest)
    rw [List.length_cons] at position
    have behind (read' left' : List Char) (whole : read' ++ left' = read ++ left) :
        globPlaces (Utf8.encode (read ++ left)) lastIdx (rest.map Utf8.encode) (i + 1)
          (Utf8.encode read').length = some (globLoop false rest left') := by
      have more := ih read' left' (i + 1) (fun _ => by omega)
      rw [whole] at more
      exact more
    rw [List.map_cons, globPlaces, globLoop, sliceFrom_encode]
    by_cases empty : part = []
    · rw [if_pos empty, if_pos (Utf8.encode_eq_nil_iff.mpr empty)]
      exact behind read left rfl
    · rw [if_neg empty, if_neg (fun nil => empty (Utf8.encode_eq_nil_iff.mp nil))]
      have same : (Utf8.encode part).isPrefixOf (Utf8.encode left) = part.isPrefixOf left := by
        rw [Bool.eq_iff_iff, List.isPrefixOf_iff_prefix, List.isPrefixOf_iff_prefix]
        exact Utf8.encode_prefix_iff
      by_cases start : i = 0
      · simp only [start, beq_self_eq_true, if_true, same]
        by_cases starts : part.isPrefixOf left = true
        · rw [if_pos starts, if_pos starts]
          obtain ⟨later, rfl⟩ := List.isPrefixOf_iff_prefix.mp starts
          have step := behind (read ++ part) later (by rw [List.append_assoc])
          rw [Utf8.encode_append read part, List.length_append, start] at step
          rw [step, List.drop_left]
        · rw [if_neg starts, if_neg starts]
      · have later : (i == 0) = false := beq_eq_false_iff_ne.mpr start
        simp only [if_neg start, later, Bool.false_eq_true, if_false]
        by_cases last : rest = []
        · have here : i = lastIdx := by
            rw [last, List.length_nil] at position
            omega
          rw [if_pos here, if_pos last]
          congr 1
          rw [Bool.eq_iff_iff, List.isSuffixOf_iff_suffix, List.isSuffixOf_iff_suffix]
          exact Utf8.encode_suffix_iff
        · have more : 0 < rest.length := List.length_pos_iff.mpr last
          rw [if_neg (by omega : ¬ i = lastIdx), if_neg last]
          have place := findPart_encode empty left
          cases found : afterFirst part left with
          | none =>
            rw [found] at place
            rw [place]
          | some rest' =>
            rw [found] at place
            obtain ⟨gap, split, pos⟩ := place
            rw [pos]
            have step := behind (read ++ (gap ++ part)) rest'
              (by rw [split, List.append_assoc, List.append_assoc])
            have cursor : (Utf8.encode (read ++ (gap ++ part))).length =
                (Utf8.encode read).length +
                  ((Utf8.encode gap).length + (Utf8.encode part).length) := by
              simp only [Utf8.encode_append, List.length_append]
            rw [cursor] at step
            exact step

theorem globMatchBytes_eq (pattern target : String) :
    globMatchBytes pattern target = some (globMatch pattern target) := by
  unfold globMatchBytes globMatch
  by_cases star : '*' ∈ pattern.toList
  · rw [if_neg (not_not_intro star), if_neg (not_not_intro star)]
    have bytes : utf8Bytes target = Utf8.encode ([] ++ target.toList) := utf8Bytes_eq target
    have parts : 0 < (pattern.toList.splitOn '*').length :=
      List.length_pos_iff.mpr (List.splitOn_ne_nil _ _)
    rw [bytes]
    refine globPlaces_encode _ [] target.toList 0 _ ?_
    intro _
    rw [List.length_map]
    omega
  · rw [if_pos star, if_pos star]

theorem glob_exact (pattern target : String) :
    (globMatch pattern target = true ↔
      Wildcards.Expands '*' pattern.toList target.toList) ∧
    globMatchBytes pattern target = some (globMatch pattern target) :=
  ⟨globMatch_iff pattern target, globMatchBytes_eq pattern target⟩

example : globMatchBytes "/v1/*é*s" "/v1/café/bills" = some true := by decide +kernel

end WireMirage
