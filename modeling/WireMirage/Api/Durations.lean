import Mathlib.Algebra.GroupWithZero.Nat
import WireMirage.Api.Operations

/-!
Durations as text. What is formatted parses back, and a list of numbers with units parses to
the sum of them in seconds, as far as 64 bits hold it.
-/
namespace WireMirage

/-- The most compact exact duration that parsing accepts. -/
def formatDuration (seconds : Nat) : String :=
  if seconds ≠ 0 ∧ seconds % 86400 = 0 then toString (seconds / 86400) ++ "d"
  else if seconds ≠ 0 ∧ seconds % 3600 = 0 then toString (seconds / 3600) ++ "h"
  else if seconds ≠ 0 ∧ seconds % 60 = 0 then toString (seconds / 60) ++ "m"
  else toString seconds ++ "s"

/-- A number with its unit. -/
structure DurationSegment where
  digits : List Char
  unit : Char
  mult : Nat
  nonempty : digits ≠ []
  number : digits.all Char.isDigit
  known : unitSeconds unit = some mult

namespace DurationSegment

def seconds (seg : DurationSegment) : Nat := digitsValue seg.digits * seg.mult

def text (seg : DurationSegment) : List Char := seg.digits ++ [seg.unit]

end DurationSegment

def totalSeconds (segments : List DurationSegment) : Nat :=
  (segments.map DurationSegment.seconds).sum

def segmentsText (segments : List DurationSegment) : List Char :=
  segments.flatMap DurationSegment.text

/-! The characters of a duration -/

theorem unit_cases {c : Char} {mult : Nat} (known : unitSeconds c = some mult) :
    (c = 's' ∧ mult = 1 ∨ c = 'm' ∧ mult = 60 ∨ c = 'h' ∧ mult = 3600 ∨
      c = 'd' ∧ mult = 86400) := by
  unfold unitSeconds at known
  split at known
  all_goals cases known
  · exact .inl ⟨rfl, rfl⟩
  · exact .inr (.inl ⟨rfl, rfl⟩)
  · exact .inr (.inr (.inl ⟨rfl, rfl⟩))
  · exact .inr (.inr (.inr ⟨rfl, rfl⟩))

theorem unit_not_digit {c : Char} {mult : Nat} (known : unitSeconds c = some mult) :
    c.isDigit = false := by
  rcases unit_cases known with ⟨rfl, _⟩ | ⟨rfl, _⟩ | ⟨rfl, _⟩ | ⟨rfl, _⟩ <;> rfl

theorem unit_positive {c : Char} {mult : Nat} (known : unitSeconds c = some mult) : 0 < mult := by
  rcases unit_cases known with ⟨_, rfl⟩ | ⟨_, rfl⟩ | ⟨_, rfl⟩ | ⟨_, rfl⟩ <;> decide

theorem digit_not_space {c : Char} (digit : c.isDigit = true) : whiteSpace c = false := by
  have bounds : 48 ≤ c.toNat ∧ c.toNat ≤ 57 := by
    simp only [Char.isDigit, Bool.and_eq_true, decide_eq_true_eq, UInt32.le_iff_toNat_le] at digit
    exact digit
  unfold whiteSpace
  simp only [Bool.or_eq_false_iff, decide_eq_false_iff_not, beq_eq_false_iff_ne]
  omega

theorem unit_not_space {c : Char} {mult : Nat} (known : unitSeconds c = some mult) :
    whiteSpace c = false := by
  rcases unit_cases known with ⟨rfl, _⟩ | ⟨rfl, _⟩ | ⟨rfl, _⟩ | ⟨rfl, _⟩ <;> rfl

theorem trim_plain {s : String} (plain : ∀ c ∈ s.toList, whiteSpace c = false) : trim s = s := by
  have kept : ∀ l : List Char, (∀ c ∈ l, whiteSpace c = false) → l.dropWhile whiteSpace = l := by
    intro l inside
    cases l with
    | nil => rfl
    | cons c rest => rw [List.dropWhile_cons, inside c List.mem_cons_self, if_neg (by decide)]
  have reversed : ∀ c ∈ s.toList.reverse, whiteSpace c = false := by
    intro c member
    exact plain c (List.mem_reverse.mp member)
  rw [trim, kept _ plain, kept _ reversed, List.reverse_reverse, String.ofList_toList]

theorem text_not_space (segments : List DurationSegment) :
    ∀ c ∈ segmentsText segments, whiteSpace c = false := by
  intro c member
  obtain ⟨seg, _, inside⟩ := List.mem_flatMap.mp member
  rcases List.mem_append.mp inside with digit | unit
  · exact digit_not_space (List.all_eq_true.mp seg.number c digit)
  · rw [List.mem_singleton.mp unit]
    exact unit_not_space seg.known

theorem parse_digits {digits : List Char} (nonempty : digits ≠ [])
    (number : digits.all Char.isDigit) :
    parseU64 digits = if digitsValue digits < u64Size then some (digitsValue digits) else none := by
  cases digits with
  | nil => exact absurd rfl nonempty
  | cons c rest =>
    have unsigned : c ≠ '+' := by
      rintro rfl
      cases number
    unfold parseU64
    split
    · rename_i same
      exact absurd (List.cons.inj same).1 unsigned
    · simp only [nonempty, number, ne_eq, not_false_eq_true, true_and]

/-! The loop -/

theorem loop_digits (duration : String) {digits : List Char} (number : digits.all Char.isDigit)
    (rest : List Char) (total : Nat) (current : List Char) :
    parseSegments duration (digits ++ rest) total current =
      parseSegments duration rest total (current ++ digits) := by
  induction digits generalizing current with
  | nil => simp
  | cons c digits ih =>
    rw [List.all_cons, Bool.and_eq_true] at number
    have step : parseSegments duration (c :: (digits ++ rest)) total current =
        parseSegments duration (digits ++ rest) total (current ++ [c]) := by
      cases current <;> simp only [parseSegments, number.1, if_true]
    rw [List.cons_append, step, ih number.2, List.append_assoc, List.singleton_append]

/-- A segment adds its seconds to the total, or overflows. -/
theorem loop_segment (duration : String) (seg : DurationSegment) (rest : List Char) (total : Nat) :
    (total + seg.seconds < u64Size →
      parseSegments duration (seg.text ++ rest) total [] =
        parseSegments duration rest (total + seg.seconds) []) ∧
    (u64Size ≤ total + seg.seconds →
      ∃ e, parseSegments duration (seg.text ++ rest) total [] = .error e) := by
  have unit := unit_not_digit seg.known
  have positive := unit_positive seg.known
  have number := parse_digits seg.nonempty seg.number
  have number_le : digitsValue seg.digits ≤ seg.seconds := Nat.le_mul_of_pos_right _ positive
  have read : parseSegments duration (seg.text ++ rest) total [] =
      parseSegments duration (seg.unit :: rest) total seg.digits := by
    rw [DurationSegment.text, List.append_assoc, loop_digits duration seg.number]
    rfl
  have step : parseSegments duration (seg.unit :: rest) total seg.digits =
      if digitsValue seg.digits < u64Size then
        (if seg.seconds ≥ u64Size then
            .error (.segmentOverflows duration (digitsValue seg.digits) seg.unit)
          else if total + seg.seconds ≥ u64Size then .error (.totalOverflows duration)
          else parseSegments duration rest (total + seg.seconds) [])
      else .error (.numberTooLarge duration (String.ofList seg.digits)) := by
    rw [parseSegments]
    simp only [unit, Bool.false_eq_true, if_false, seg.nonempty, number]
    split
    · rename_i large
      split at large
      · cases large
      · rename_i above
        rw [if_neg above]
    · rename_i n fits
      split at fits
      · rename_i below
        cases fits
        rw [if_pos below]
        simp only [seg.known]
        rfl
      · cases fits
  rw [read, step]
  constructor
  · intro fits
    rw [if_pos (by omega), if_neg (by omega), if_neg (by omega)]
  · intro past
    split
    · split
      · exact ⟨_, rfl⟩
      · exact ⟨_, rfl⟩
    · exact ⟨_, rfl⟩

theorem totalSeconds_cons (seg : DurationSegment) (segments : List DurationSegment) :
    totalSeconds (seg :: segments) = seg.seconds + totalSeconds segments := by
  simp only [totalSeconds, List.map_cons, List.sum_cons]

theorem segmentsText_cons (seg : DurationSegment) (segments : List DurationSegment) :
    segmentsText (seg :: segments) = seg.text ++ segmentsText segments := by
  simp only [segmentsText, List.flatMap_cons]

theorem loop_segments (duration : String) (segments : List DurationSegment) (rest : List Char)
    (total : Nat) (fits : total + totalSeconds segments < u64Size) :
    parseSegments duration (segmentsText segments ++ rest) total [] =
      parseSegments duration rest (total + totalSeconds segments) [] := by
  induction segments generalizing total with
  | nil => rfl
  | cons seg segments ih =>
    rw [totalSeconds_cons] at fits
    have here := (loop_segment duration seg (segmentsText segments ++ rest) total).1 (by omega)
    rw [segmentsText_cons, List.append_assoc, here, ih _ (by omega), totalSeconds_cons,
      Nat.add_assoc]

theorem loop_overflow (duration : String) (segments : List DurationSegment) (total : Nat)
    (small : total < u64Size) (past : u64Size ≤ total + totalSeconds segments) :
    ∃ e, parseSegments duration (segmentsText segments) total [] = .error e := by
  induction segments generalizing total with
  | nil =>
    rw [totalSeconds, List.map_nil, List.sum_nil] at past
    omega
  | cons seg segments ih =>
    rw [totalSeconds_cons] at past
    obtain ⟨further, failed⟩ := loop_segment duration seg (segmentsText segments) total
    rw [segmentsText_cons]
    by_cases fits : total + seg.seconds < u64Size
    · rw [further fits]
      exact ih _ fits (by omega)
    · exact failed (by omega)

/-! Whole durations -/

/-- A text with a letter in it is no bare number. -/
theorem parse_letter {text : List Char} {c : Char} (member : c ∈ text) (letter : c.isDigit = false)
    (plus : c ≠ '+') : parseU64 text = none := by
  unfold parseU64
  rw [if_neg]
  rintro ⟨_, digits, _⟩
  have inside := List.all_eq_true.mp digits c
  split at inside
  · rw [inside ((List.mem_cons.mp member).resolve_left plus)] at letter
    cases letter
  · rw [inside member] at letter
    cases letter

theorem parse_of_segments {segments : List DurationSegment} (nonempty : segments ≠ []) :
    parseDuration (String.ofList (segmentsText segments)) =
      parseSegments (String.ofList (segmentsText segments)) (segmentsText segments) 0 [] := by
  obtain ⟨seg, rest, rfl⟩ := List.exists_cons_of_ne_nil nonempty
  have member : seg.unit ∈ segmentsText (seg :: rest) := by
    rw [segmentsText_cons, DurationSegment.text]
    exact List.mem_append_left _ (List.mem_append_right _ List.mem_cons_self)
  have plain : trim (String.ofList (segmentsText (seg :: rest))) =
      String.ofList (segmentsText (seg :: rest)) := by
    apply trim_plain
    rw [String.toList_ofList]
    exact text_not_space _
  have text : String.ofList (segmentsText (seg :: rest)) ≠ "" := by
    intro empty
    have chars := congrArg String.toList empty
    rw [String.toList_ofList, String.toList_empty] at chars
    rw [chars] at member
    cases member
  have plus : seg.unit ≠ '+' := by
    intro same
    have known := seg.known
    rw [same] at known
    cases known
  unfold parseDuration
  simp only [plain, text, if_false, String.toList_ofList,
    parse_letter member (unit_not_digit seg.known) plus]

/-! Numbers as text -/

theorem digitsValue_eq (digits : List Char) :
    digitsValue digits = Nat.ofDigitChars 10 digits 0 := by
  rw [Nat.ofDigitChars_eq_foldl, digitsValue]
  simp only [Nat.mul_comm]

theorem toString_digits (n : Nat) : (toString n).toList = Nat.toDigits 10 n := by
  rw [Nat.toString_eq_ofList_toDigits, String.toList_ofList]

/-- The segment of a number as it is printed. -/
def printed (n : Nat) (unit : Char) (mult : Nat) (known : unitSeconds unit = some mult) :
    DurationSegment where
  digits := Nat.toDigits 10 n
  unit := unit
  mult := mult
  nonempty := Nat.toDigits_ne_nil
  number := List.all_eq_true.mpr fun _ member =>
    Nat.isDigit_of_mem_toDigits (by decide) (by decide) member
  known := known

theorem parse_printed (n : Nat) (unit : Char) (mult : Nat) (known : unitSeconds unit = some mult)
    (small : n * mult < u64Size) :
    parseDuration (toString n ++ String.singleton unit) = .ok (n * mult) := by
  have seconds : (printed n unit mult known).seconds = n * mult := by
    show digitsValue (Nat.toDigits 10 n) * mult = n * mult
    rw [digitsValue_eq, Nat.ofDigitChars_ten_toDigits]
  have text : toString n ++ String.singleton unit =
      String.ofList (segmentsText [printed n unit mult known]) := by
    apply String.toList_inj.mp
    rw [String.toList_append, toString_digits, String.toList_singleton, String.toList_ofList,
      segmentsText, List.flatMap_singleton]
    rfl
  have total : totalSeconds [printed n unit mult known] = n * mult := by
    rw [totalSeconds_cons, seconds]
    rfl
  rw [text, parse_of_segments (List.cons_ne_nil _ _)]
  have loop := loop_segments (String.ofList (segmentsText [printed n unit mult known]))
    [printed n unit mult known] [] 0 (by omega)
  rw [List.append_nil, total, Nat.zero_add] at loop
  rw [loop]
  rfl

theorem parse_formatted {n : Nat} (small : n < u64Size) :
    parseDuration (formatDuration n) = .ok n := by
  have whole : ∀ d, n % d = 0 → n / d * d = n := fun d exact =>
    Nat.div_mul_cancel (Nat.dvd_of_mod_eq_zero exact)
  unfold formatDuration
  split
  · rename_i days
    have same := whole _ days.2
    have parsed := parse_printed (n / 86400) 'd' 86400 rfl (by omega)
    rw [same] at parsed
    exact parsed
  · split
    · rename_i hours
      have same := whole _ hours.2
      have parsed := parse_printed (n / 3600) 'h' 3600 rfl (by omega)
      rw [same] at parsed
      exact parsed
    · split
      · rename_i minutes
        have same := whole _ minutes.2
        have parsed := parse_printed (n / 60) 'm' 60 rfl (by omega)
        rw [same] at parsed
        exact parsed
      · have parsed := parse_printed n 's' 1 rfl (by omega)
        rw [Nat.mul_one] at parsed
        exact parsed

/-- A formatted duration parses back. A list of segments parses to its seconds where 64 bits hold
    them and fails where they do not, and on the way the total is that of the segments read. -/
theorem durations_round_trip :
    (∀ n < u64Size, parseDuration (formatDuration n) = .ok n) ∧
    ∀ segments : List DurationSegment, segments ≠ [] →
      (totalSeconds segments < u64Size →
        parseDuration (String.ofList (segmentsText segments)) = .ok (totalSeconds segments)) ∧
      (u64Size ≤ totalSeconds segments →
        ∃ e, parseDuration (String.ofList (segmentsText segments)) = .error e) ∧
      ∀ read left duration, segments = read ++ left → totalSeconds read < u64Size →
        parseSegments duration (segmentsText segments) 0 [] =
          parseSegments duration (segmentsText left) (totalSeconds read) [] := by
  refine ⟨fun n small => parse_formatted small, ?_⟩
  intro segments nonempty
  refine ⟨?_, ?_, ?_⟩
  · intro fits
    have loop := loop_segments (String.ofList (segmentsText segments)) segments [] 0 (by omega)
    rw [List.append_nil, Nat.zero_add] at loop
    rw [parse_of_segments nonempty, loop]
    rfl
  · intro past
    rw [parse_of_segments nonempty]
    exact loop_overflow _ segments 0 (by decide) (by omega)
  · rintro read left duration rfl fits
    have text : segmentsText (read ++ left) = segmentsText read ++ segmentsText left := by
      simp only [segmentsText, List.flatMap_append]
    rw [text, loop_segments duration read _ 0 (by omega), Nat.zero_add]

theorem durations_round_trip_day :
    parseDuration (formatDuration 86400) = .ok 86400 ∧ formatDuration 86400 = "1d" :=
  ⟨durations_round_trip.1 86400 (by decide), by decide⟩

end WireMirage
