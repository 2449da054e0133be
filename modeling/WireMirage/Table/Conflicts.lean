import WireMirage.Library.Wildcards
import WireMirage.Registry.Specs

/-!
Which routes conflict: exactly those of one shape that have a request in common. A
request for two compatible patterns is put together from their segments.
-/
namespace WireMirage

/-! What the parser lets through -/

/-- A segment that stands for one part of a path. -/
def Segment.Plain : Segment → Prop
  | .literal text => text.toList ≠ [] ∧ '/' ∉ text.toList
  | .param _ => True
  | .tail _ => False

theorem parsePart_plain {seen : List String} {part : List Char} {seg : Segment}
    (whole : '/' ∉ part) (parsed : parsePart seen part = .ok seg) (inner : seg.isTail = false) :
    seg.Plain := by
  cases seg with
  | param name => trivial
  | tail name => cases inner
  | literal text =>
    unfold parsePart parseName at parsed
    split at parsed
    · cases parsed
    · rename_i full
      split at parsed
      · simp only at parsed
        repeat' split at parsed
        all_goals cases parsed
      · split at parsed
        · cases parsed
        · cases parsed
          simp only [Segment.Plain, String.toList_ofList]
          exact ⟨full, whole⟩

theorem parseParts_plain {seen : List String} {parts : List (List Char)} {segs : List Segment}
    (whole : ∀ part ∈ parts, '/' ∉ part) (parsed : parseParts seen parts = .ok segs) :
    ∀ seg ∈ segs, seg.isTail = false → seg.Plain := by
  induction parts generalizing seen segs with
  | nil =>
    cases parsed
    simp
  | cons part rest ih =>
    unfold parseParts at parsed
    cases here : parsePart seen part with
    | error e => simp [here] at parsed
    | ok first =>
      simp only [here] at parsed
      cases later : parseParts (first.paramName.toList ++ seen) rest with
      | error e => simp [later] at parsed
      | ok others =>
        simp only [later, Except.ok.injEq] at parsed
        subst parsed
        intro seg member inner
        rcases List.mem_cons.mp member with rfl | member
        · exact parsePart_plain (whole part List.mem_cons_self) here inner
        · exact ih (fun q among => whole q (List.mem_cons_of_mem _ among)) later seg member inner

theorem tails_last {segs : List Segment} (placed : misplacedTail segs = none) :
    ∀ seg ∈ segs.dropLast, seg.isTail = false := by
  induction segs with
  | nil => simp
  | cons seg rest ih =>
    cases rest with
    | nil => simp
    | cons next rest =>
      cases seg with
      | tail name => simp [misplacedTail] at placed
      | literal text =>
        intro other member
        rcases List.mem_cons.mp member with rfl | member
        · rfl
        · exact ih placed other member
      | param name =>
        intro other member
        rcases List.mem_cons.mp member with rfl | member
        · rfl
        · exact ih placed other member

theorem split_whole (text : List Char) : ∀ part ∈ text.splitOn '/', '/' ∉ part :=
  Wildcards.plain_of_splitOn '/' text

/-- The segments that a pattern matches part by part. -/
def Pattern.leading (p : Pattern) : List Segment :=
  if p.hasTail then p.segments.dropLast else p.segments

theorem leading_plain {raw : String} {p : Pattern} (parsed : Pattern.parse raw = .ok p) :
    ∀ seg ∈ p.leading, seg.Plain := by
  obtain ⟨_, ⟨_, rfl⟩ | ⟨_, parts, placed, _⟩⟩ := parse_cases parsed
  · simp [Pattern.leading, Pattern.hasTail]
  · have plain := parseParts_plain (split_whole _) parts
    have last := tails_last placed
    intro seg member
    unfold Pattern.leading at member
    cases tailed : p.hasTail with
    | true =>
      rw [tailed, if_pos rfl] at member
      exact plain seg (List.dropLast_subset _ member) (last seg member)
    | false =>
      rw [tailed] at member
      apply plain seg member
      unfold Pattern.hasTail at tailed
      rcases List.eq_nil_or_concat p.segments with none | ⟨init, final, split⟩
      · rw [none] at member
        cases member
      · rw [List.concat_eq_append] at split
        rw [split] at member tailed last
        rcases List.mem_append.mp member with early | here
        · exact last seg (by simpa using early)
        · rw [List.mem_singleton.mp here]
          simpa using tailed

/-! A request for two compatible patterns -/

def sharedPart : Segment → Segment → List Char
  | .literal text, _ => text.toList
  | _, .literal text => text.toList
  | _, _ => ['x']

def Segment.Fits (part : List Char) : Segment → Prop
  | .literal text => text.toList = part
  | .param _ => True
  | .tail _ => False

theorem sharedPart_whole {a b : Segment} (plainA : a.Plain) (plainB : b.Plain) :
    sharedPart a b ≠ [] ∧ '/' ∉ sharedPart a b := by
  cases a with
  | literal text => exact plainA
  | tail name => exact plainA.elim
  | param name =>
    cases b with
    | literal text => exact plainB
    | tail other => exact plainB.elim
    | param other => simp [sharedPart]

theorem sharedPart_fits {a b : Segment} (plainA : a.Plain) (plainB : b.Plain)
    (compatible : segmentsCompatible a b = true) :
    a.Fits (sharedPart a b) ∧ b.Fits (sharedPart a b) := by
  cases a with
  | tail name => exact plainA.elim
  | literal text =>
    cases b with
    | tail other => exact plainB.elim
    | param other => exact ⟨rfl, trivial⟩
    | literal other =>
      have same : text = other := by simpa [segmentsCompatible] using compatible
      subst same
      exact ⟨rfl, rfl⟩
  | param name =>
    cases b with
    | tail other => exact plainB.elim
    | param other => exact ⟨trivial, trivial⟩
    | literal other => exact ⟨trivial, rfl⟩

theorem match_of_fits {segs : List Segment} {parts : List (List Char)}
    (fits : List.Forall₂ (fun seg part => Segment.Fits part seg ∧ part ≠ []) segs parts) :
    ∃ c, matchSegments segs parts = some c := by
  induction fits with
  | nil => exact ⟨[], rfl⟩
  | @cons seg part segs parts here _ ih =>
    obtain ⟨c, rest⟩ := ih
    obtain ⟨fits, full⟩ := here
    cases seg with
    | literal text =>
      have same : text.toList = part := fits
      refine ⟨c, ?_⟩
      rw [matchSegments, if_neg full]
      simp only [if_pos same, rest]
    | param name =>
      refine ⟨(name, String.ofList part) :: c, ?_⟩
      rw [matchSegments, if_neg full]
      simp only [rest, Option.map_some]
    | tail name => exact fits.elim

theorem sharedParts_fit {as bs : List Segment} (plainA : ∀ seg ∈ as, seg.Plain)
    (plainB : ∀ seg ∈ bs, seg.Plain) (same : as.length = bs.length)
    (compatible : allCompatible as bs = true) :
    List.Forall₂ (fun seg part => Segment.Fits part seg ∧ part ≠ []) as
        (List.zipWith sharedPart as bs) ∧
      List.Forall₂ (fun seg part => Segment.Fits part seg ∧ part ≠ []) bs
        (List.zipWith sharedPart as bs) ∧
      ∀ part ∈ List.zipWith sharedPart as bs, part ≠ [] ∧ '/' ∉ part := by
  induction as generalizing bs with
  | nil =>
    cases bs with
    | nil => exact ⟨.nil, .nil, by simp⟩
    | cons b bs => cases same
  | cons a as ih =>
    cases bs with
    | nil => cases same
    | cons b bs =>
      simp only [allCompatible, List.zip_cons_cons, List.all_cons, Bool.and_eq_true] at compatible
      have wholeA := plainA a List.mem_cons_self
      have wholeB := plainB b List.mem_cons_self
      have full := sharedPart_whole wholeA wholeB
      obtain ⟨fitsA, fitsB⟩ := sharedPart_fits wholeA wholeB compatible.1
      obtain ⟨restA, restB, rest⟩ := ih
        (fun seg member => plainA seg (List.mem_cons_of_mem _ member))
        (fun seg member => plainB seg (List.mem_cons_of_mem _ member))
        (Nat.succ.inj same) compatible.2
      refine ⟨.cons ⟨fitsA, full.1⟩ restA, .cons ⟨fitsB, full.1⟩ restB, ?_⟩
      intro part member
      rw [List.zipWith_cons_cons] at member
      rcases List.mem_cons.mp member with rfl | member
      · exact full
      · exact rest part member

def pathOf (parts : List (List Char)) : String := String.ofList ('/' :: ['/'].intercalate parts)

theorem pathOf_slash (parts : List (List Char)) : (pathOf parts).toList.head? = some '/' := by
  simp [pathOf]

theorem requestParts_pathOf {parts : List (List Char)}
    (whole : ∀ part ∈ parts, part ≠ [] ∧ '/' ∉ part) :
    requestParts (trimTrailingSlash (pathOf parts).toList) = parts := by
  cases parts with
  | nil => simp [pathOf, trimTrailingSlash, requestParts]
  | cons first rest =>
    have text : (pathOf (first :: rest)).toList = '/' :: ['/'].intercalate (first :: rest) := by
      simp [pathOf]
    have split : (['/'].intercalate (first :: rest)).splitOn '/' = first :: rest :=
      List.splitOn_intercalate '/' (fun part member => (whole part member).2) (by simp)
    have still : trimTrailingSlash (pathOf (first :: rest)).toList =
        '/' :: ['/'].intercalate (first :: rest) := by
      rw [trim_of_split (pathOf_slash _), text]
      rw [text, List.drop_one, List.tail_cons, split]
      exact fun part member => (whole part member).1
    have long : ['/'].intercalate (first :: rest) ≠ [] := by
      intro empty
      rw [empty, List.splitOn_nil, List.cons.injEq] at split
      exact (whole first List.mem_cons_self).1 split.1.symm
    rw [still, requestParts, if_neg (by simpa using long), List.drop_one, List.tail_cons, split]

/-- A path of parts that fit the leading segments of a pattern is one that it matches. -/
theorem matchPath_of_fits {p : Pattern} {parts : List (List Char)}
    (whole : ∀ part ∈ parts, part ≠ [] ∧ '/' ∉ part)
    (fits : List.Forall₂ (fun seg part => Segment.Fits part seg ∧ part ≠ []) p.leading parts) :
    ∃ c, p.matchPath (pathOf parts) = some c := by
  obtain ⟨c, matched⟩ := match_of_fits fits
  have length := fits.length_eq
  unfold Pattern.leading at matched length
  cases tailed : p.hasTail with
  | false =>
    rw [tailed, if_neg Bool.false_ne_true] at matched length
    rw [matchPath_specific tailed (pathOf_slash _), requestParts_pathOf whole, if_pos length]
    exact ⟨c, matched⟩
  | true =>
    rw [tailed, if_pos rfl] at matched length
    obtain ⟨name, last⟩ := (hasTail_iff p).mp tailed
    rw [matchPath_backstop last (pathOf_slash _), requestParts_pathOf whole,
      if_neg (by omega), matched]
    exact ⟨_, rfl⟩

/-! Methods -/

theorem lower_upper_char (c : Char) : c.toUpper.toLower = c.toLower := by
  by_cases small : c.toNat < 128
  · have all : ∀ n : Fin 128, (Char.ofNat n).toUpper.toLower = (Char.ofNat n).toLower := by decide
    have := all ⟨c.toNat, small⟩
    simpa only [Char.ofNat_toNat] using this
  · have still : c.toUpper = c := by
      unfold Char.toUpper
      rw [dif_neg]
      rintro ⟨_, below⟩
      have : c.toNat ≤ 122 := UInt32.le_iff_toNat_le.mp below
      omega
    rw [still]

theorem methodsMatch_self {methods : Methods} {method : String} (listed : method ∈ methods) :
    methodsMatch methods method = true := by
  simp only [methodsMatch, List.any_eq_true, Bool.or_eq_true]
  refine ⟨method, listed, .inr ?_⟩
  simp only [eqIgnoreAsciiCase, toAsciiLowercase, toAsciiUppercase, List.map_map,
    Function.comp_def, lower_upper_char, beq_self_eq_true]

theorem methodsMatch_any {methods : Methods} (any : "ANY" ∈ methods) (method : String) :
    methodsMatch methods method = true := by
  simp only [methodsMatch, List.any_eq_true, Bool.or_eq_true, beq_iff_eq]
  exact ⟨"ANY", any, .inl rfl⟩

theorem method_of_overlap {a b : Methods} (someA : a ≠ []) (someB : b ≠ [])
    (overlap : methodsOverlap a b = true) :
    ∃ method, methodsMatch a method = true ∧ methodsMatch b method = true := by
  simp only [methodsOverlap, Bool.or_eq_true, List.any_eq_true, beq_iff_eq] at overlap
  rcases overlap with (⟨_, anyA, rfl⟩ | ⟨_, anyB, rfl⟩) | ⟨x, memA, _, memB, rfl⟩
  · obtain ⟨m, listed⟩ := List.exists_mem_of_ne_nil b someB
    exact ⟨m, methodsMatch_any anyA m, methodsMatch_self listed⟩
  · obtain ⟨m, listed⟩ := List.exists_mem_of_ne_nil a someA
    exact ⟨m, methodsMatch_self listed, methodsMatch_any anyB m⟩
  · exact ⟨x, methodsMatch_self memA, methodsMatch_self memB⟩

/-! Conflicts -/

/-- Patterns that a conflict can hold between: without tails, or backstops of one depth. -/
def SameShape (a b : Pattern) : Prop :=
  (a.hasTail = false ∧ b.hasTail = false) ∨
    (a.hasTail = true ∧ b.hasTail = true ∧ a.leading.length = b.leading.length)

/-- Some request that a route of either kind serves. -/
def ShareRequest (methodsA : Methods) (a : Pattern) (methodsB : Methods) (b : Pattern) : Prop :=
  ∃ method path, (methodsMatch methodsA method = true ∧ (a.matchPath path).isSome) ∧
    methodsMatch methodsB method = true ∧ (b.matchPath path).isSome

theorem patterns_conflict_leading (a b : Pattern) :
    patternsConflict a b = true ↔ a.hasTail = b.hasTail ∧
      a.leading.length = b.leading.length ∧ allCompatible a.leading b.leading = true := by
  unfold patternsConflict Pattern.leading
  cases a.hasTail <;> cases b.hasTail <;> simp

/-- A conflict is reported exactly for patterns of one shape that some request falls to both of. -/
theorem routes_conflict_exact {rawA rawB : String} {a b : Pattern} {listedA listedB : List String}
    {methodsA methodsB : Methods} (parsedA : Pattern.parse rawA = .ok a)
    (parsedB : Pattern.parse rawB = .ok b) (acceptedA : validateMethods listedA = .ok methodsA)
    (acceptedB : validateMethods listedB = .ok methodsB) :
    routesConflict methodsA a methodsB b = true ↔
      SameShape a b ∧ ShareRequest methodsA a methodsB b := by
  obtain ⟨rfl, someA, validA⟩ := validate_methods_ok acceptedA
  obtain ⟨rfl, someB, validB⟩ := validate_methods_ok acceptedB
  rw [routesConflict, Bool.and_eq_true]
  constructor
  · rintro ⟨overlap, conflict⟩
    obtain ⟨tails, lengths, compatible⟩ := (patterns_conflict_leading a b).mp conflict
    obtain ⟨method, matchA, matchB⟩ := method_of_overlap someA someB overlap
    obtain ⟨fitsA, fitsB, whole⟩ :=
      sharedParts_fit (leading_plain parsedA) (leading_plain parsedB) lengths compatible
    obtain ⟨c, pathA⟩ := matchPath_of_fits whole fitsA
    obtain ⟨d, pathB⟩ := matchPath_of_fits whole fitsB
    refine ⟨?_, method, _, ⟨matchA, by rw [pathA]; rfl⟩, matchB, by rw [pathB]; rfl⟩
    cases kind : a.hasTail with
    | false => exact .inl ⟨kind, tails ▸ kind⟩
    | true => exact .inr ⟨kind, tails ▸ kind, lengths⟩
  · rintro ⟨shape, method, path, ⟨matchA, pathA⟩, matchB, pathB⟩
    obtain ⟨c, pathA⟩ := Option.isSome_iff_exists.mp pathA
    obtain ⟨d, pathB⟩ := Option.isSome_iff_exists.mp pathB
    refine ⟨methods_overlap_of_match validA validB matchA matchB, ?_⟩
    rcases shape with ⟨kindA, kindB⟩ | ⟨kindA, kindB, lengths⟩
    · refine patterns_conflict_of_match (kindA.trans kindB.symm) ?_ pathA pathB
      intro tailed
      rw [kindA] at tailed
      cases tailed
    · refine patterns_conflict_of_match (kindA.trans kindB.symm) (fun _ => ?_) pathA pathB
      obtain ⟨_, lastA⟩ := (hasTail_iff a).mp kindA
      obtain ⟨_, lastB⟩ := (hasTail_iff b).mp kindB
      have fullA : a.segments.length ≠ 0 := by
        intro empty
        simp [List.length_eq_zero_iff.mp empty] at lastA
      have fullB : b.segments.length ≠ 0 := by
        intro empty
        simp [List.length_eq_zero_iff.mp empty] at lastB
      simp only [Pattern.leading, kindA, kindB, if_true, List.length_dropLast] at lengths
      omega

theorem routes_conflict_exact_charges :
    SameShape ⟨"/v1/{id}", [.literal "v1", .param "id"]⟩
        ⟨"/{version}/charges", [.param "version", .literal "charges"]⟩ ∧
      ShareRequest ["POST"] ⟨"/v1/{id}", [.literal "v1", .param "id"]⟩ ["ANY"]
        ⟨"/{version}/charges", [.param "version", .literal "charges"]⟩ := by
  have conflict : routesConflict ["POST"] ⟨"/v1/{id}", [.literal "v1", .param "id"]⟩ ["ANY"]
      ⟨"/{version}/charges", [.param "version", .literal "charges"]⟩ = true := by
    decide +kernel
  exact (@routes_conflict_exact "/v1/{id}/" "/{version}/charges" _ _ ["POST"] ["ANY"] _ _
    (by decide +kernel) (by decide +kernel) (by decide +kernel) (by decide +kernel)).mp conflict

end WireMirage
