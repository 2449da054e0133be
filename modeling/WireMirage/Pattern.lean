import Mathlib.Data.List.Basic
import Mathlib.Data.Nat.Notation

/-!
Path patterns: parsing, matching and conflict detection. A path is handled as
its list of characters; a segment of a pattern keeps its text as a string.
-/
namespace WireMirage

inductive PatternError where
  | missingLeadingSlash
  | emptySegment
  | badParam
  | duplicateParam (name : String)
  | invalidParamName (name : String)
  | tailNotFinal (name : String)
  deriving DecidableEq, Repr

inductive Segment where
  | literal (text : String)
  | param (name : String)
  | tail (name : String)
  deriving DecidableEq, Repr

structure Pattern where
  raw : String
  segments : List Segment
  deriving DecidableEq, Repr

def Segment.isTail : Segment → Bool
  | .tail _ => true
  | _ => false

/-- Drop one trailing slash, unless the path is a single character. -/
def trimTrailingSlash (path : List Char) : List Char :=
  if 1 < path.length ∧ path.getLast? = some '/' then path.dropLast else path

def nameChar (c : Char) : Bool := c.isAlphanum || c == '_' || c == '-'

def stripTailDots (inner : List Char) : Option (List Char) :=
  if ['.', '.', '.'].isSuffixOf inner then some (inner.take (inner.length - 3)) else none

def parseName (seen : List String) (name : List Char) (isTail : Bool) :
    Except PatternError Segment :=
  if name = [] then .error .badParam
  else if ¬ name.all nameChar then .error (.invalidParamName (String.ofList name))
  else if String.ofList name ∈ seen then .error (.duplicateParam (String.ofList name))
  else if isTail then .ok (.tail (String.ofList name))
  else .ok (.param (String.ofList name))

def parsePart (seen : List String) (part : List Char) : Except PatternError Segment :=
  if part = [] then .error .emptySegment
  else if part.head? = some '{' then
    let rest := part.tail
    if rest.getLast? ≠ some '}' then .error .badParam
    else if rest.dropLast = [] then .error .badParam
    else match stripTailDots rest.dropLast with
      | some name => parseName seen name true
      | none => parseName seen rest.dropLast false
  else if '{' ∈ part ∨ '}' ∈ part then .error .badParam
  else .ok (.literal (String.ofList part))

def Segment.paramName : Segment → Option String
  | .literal _ => none
  | .param name => some name
  | .tail name => some name

def parseParts (seen : List String) : List (List Char) → Except PatternError (List Segment)
  | [] => .ok []
  | part :: rest =>
    match parsePart seen part with
    | .error e => .error e
    | .ok seg =>
      match parseParts (seg.paramName.toList ++ seen) rest with
      | .error e => .error e
      | .ok segs => .ok (seg :: segs)

/-- The name of the first tail segment, when that segment is not the last. -/
def misplacedTail : List Segment → Option String
  | [] => none
  | [_] => none
  | .tail name :: _ :: _ => some name
  | _ :: seg :: rest => misplacedTail (seg :: rest)

def Pattern.parse (raw : String) : Except PatternError Pattern :=
  let path := raw.toList
  if path.head? ≠ some '/' then .error .missingLeadingSlash
  else
    let trimmed := trimTrailingSlash path
    if trimmed = ['/'] then .ok ⟨"/", []⟩
    else match parseParts [] ((trimmed.drop 1).splitOn '/') with
      | .error e => .error e
      | .ok segments =>
        match misplacedTail segments with
        | some name => .error (.tailNotFinal name)
        | none => .ok ⟨String.ofList trimmed, segments⟩

def Pattern.hasTail (p : Pattern) : Bool := p.segments.getLast?.any Segment.isTail

/-- The parts between the slashes of a request path; none for the root. -/
def requestParts (trimmed : List Char) : List (List Char) :=
  if trimmed = ['/'] then [] else (trimmed.drop 1).splitOn '/'

/-- Match segments against parts pairwise, up to the end of the shorter list.
    A tail among them is unreachable in the source and matches nothing here. -/
def matchSegments : List Segment → List (List Char) → Option (List (String × String))
  | [], _ => some []
  | _ :: _, [] => some []
  | seg :: segs, part :: parts =>
    if part = [] then none
    else match seg with
      | .literal text => if text.toList = part then matchSegments segs parts else none
      | .param name => (matchSegments segs parts).map ((name, String.ofList part) :: ·)
      | .tail _ => none

def joinSlash (parts : List (List Char)) : String := String.ofList (['/'].intercalate parts)

def Pattern.matchPath (p : Pattern) (path : String) : Option (List (String × String)) :=
  if path.toList.head? ≠ some '/' then none
  else
    let trimmed := trimTrailingSlash path.toList
    let parts := requestParts trimmed
    match p.segments.getLast? with
    | some (.tail tailName) =>
      let leading := p.segments.dropLast
      if parts.length < leading.length then none
      else (matchSegments leading parts).map
        (· ++ [(tailName, joinSlash (parts.drop leading.length))])
    | _ =>
      if trimmed = ['/'] then (if p.segments = [] then some [] else none)
      else if parts.length ≠ p.segments.length then none
      else matchSegments p.segments parts

def toAsciiUppercase (s : List Char) : List Char := s.map Char.toUpper
def toAsciiLowercase (s : List Char) : List Char := s.map Char.toLower

def eqIgnoreAsciiCase (a b : List Char) : Bool := toAsciiLowercase a == toAsciiLowercase b

/-- The methods a route serves: method names, or the special `ANY`. -/
abbrev Methods := List String

def methodsMatch (methods : Methods) (method : String) : Bool :=
  methods.any (fun x => x == "ANY" ||
    eqIgnoreAsciiCase x.toList (toAsciiUppercase method.toList))

def methodsOverlap (a b : Methods) : Bool :=
  a.any (· == "ANY") || b.any (· == "ANY") || a.any (fun x => b.any (fun y => x == y))

def segmentsCompatible : Segment → Segment → Bool
  | .literal x, .literal y => x == y
  | .literal _, .param _ => true
  | .param _, .literal _ => true
  | .param _, .param _ => true
  | .tail _, _ => false
  | _, .tail _ => false

def allCompatible (as bs : List Segment) : Bool :=
  (as.zip bs).all (fun pair => segmentsCompatible pair.1 pair.2)

def patternsConflict (a b : Pattern) : Bool :=
  match a.hasTail, b.hasTail with
  | false, false =>
    a.segments.length == b.segments.length && allCompatible a.segments b.segments
  | true, true =>
    a.segments.dropLast.length == b.segments.dropLast.length &&
      allCompatible a.segments.dropLast b.segments.dropLast
  | _, _ => false

def routesConflict (methodsA : Methods) (patternA : Pattern) (methodsB : Methods)
    (patternB : Pattern) : Bool :=
  methodsOverlap methodsA methodsB && patternsConflict patternA patternB

/-! A normalised path parses as itself. -/

theorem parseParts_nonempty {seen : List String} {parts : List (List Char)} {segs : List Segment}
    (parsed : parseParts seen parts = .ok segs) : ∀ part ∈ parts, part ≠ [] := by
  induction parts generalizing seen segs with
  | nil => simp
  | cons part rest ih =>
    unfold parseParts at parsed
    cases here : parsePart seen part with
    | error e => simp [here] at parsed
    | ok seg =>
      simp only [here] at parsed
      cases later : parseParts (seg.paramName.toList ++ seen) rest with
      | error e => simp [later] at parsed
      | ok segs' =>
        intro q member
        rcases List.mem_cons.mp member with rfl | inRest
        · intro empty
          simp [parsePart, empty] at here
        · exact ih later q inRest

theorem trim_head {path : List Char} (slash : path.head? = some '/') :
    (trimTrailingSlash path).head? = some '/' := by
  unfold trimTrailingSlash
  split
  · rename_i long
    cases path with
    | nil => simp at slash
    | cons c rest =>
      have nonempty : rest ≠ [] := by
        intro empty
        simp [empty] at long
      simpa [List.dropLast_cons_of_ne_nil nonempty] using slash
  · exact slash

theorem trim_of_split {path : List Char} (slash : path.head? = some '/')
    (full : ∀ part ∈ (path.drop 1).splitOn '/', part ≠ []) : trimTrailingSlash path = path := by
  unfold trimTrailingSlash
  rw [if_neg]
  rintro ⟨long, last⟩
  cases path with
  | nil => simp at slash
  | cons c rest =>
    have nonempty : rest ≠ [] := by
      intro empty
      simp [empty] at long
    obtain ⟨init, tail⟩ : ∃ init, rest = init ++ ['/'] := by
      refine ⟨rest.dropLast, ?_⟩
      rw [List.getLast?_cons_of_ne_nil nonempty] at last
      have := List.dropLast_append_getLast? '/' last
      exact this.symm
    have parts : (rest.splitOn '/') = init.splitOn '/' ++ [[]] := by
      rw [tail, List.splitOn_append_cons_self, List.splitOn_nil]
    have := full []
    simp [parts] at this

theorem trim_of_parts {path : List Char} {segs : List Segment} (slash : path.head? = some '/')
    (parsed : parseParts [] ((path.drop 1).splitOn '/') = .ok segs) :
    trimTrailingSlash path = path :=
  trim_of_split slash (parseParts_nonempty parsed)

/-- What a text holds that the parser accepts, and what it makes of it. -/
theorem parse_cases {raw : String} {p : Pattern} (parsed : Pattern.parse raw = .ok p) :
    raw.toList.head? = some '/' ∧
      ((trimTrailingSlash raw.toList = ['/'] ∧ p = ⟨"/", []⟩) ∨
        (trimTrailingSlash raw.toList ≠ ['/'] ∧
          parseParts [] (((trimTrailingSlash raw.toList).drop 1).splitOn '/') = .ok p.segments ∧
          misplacedTail p.segments = none ∧
          p.raw = String.ofList (trimTrailingSlash raw.toList))) := by
  unfold Pattern.parse at parsed
  by_cases slash : raw.toList.head? = some '/'
  · simp only [slash, ne_eq, not_true_eq_false, if_false] at parsed
    refine ⟨slash, ?_⟩
    by_cases root : trimTrailingSlash raw.toList = ['/']
    · rw [if_pos root, Except.ok.injEq] at parsed
      exact .inl ⟨root, parsed.symm⟩
    · rw [if_neg root] at parsed
      cases parts : parseParts [] (((trimTrailingSlash raw.toList).drop 1).splitOn '/') with
      | error e =>
        rw [parts] at parsed
        cases parsed
      | ok segs =>
        simp only [parts] at parsed
        cases tails : misplacedTail segs with
        | some name => simp [tails] at parsed
        | none =>
          simp only [tails, Except.ok.injEq] at parsed
          subst parsed
          exact .inr ⟨root, rfl, tails, rfl⟩
  · simp [slash] at parsed

theorem parse_raw {raw : String} {p : Pattern} (parsed : Pattern.parse raw = .ok p) :
    Pattern.parse p.raw = .ok p := by
  obtain ⟨slash, ⟨_, rfl⟩ | ⟨other, parts, placed, text⟩⟩ := parse_cases parsed
  · decide
  · have head := trim_head slash
    have still := trim_of_parts head parts
    cases p with
    | mk text' segs =>
      simp only at text parts placed
      subst text
      unfold Pattern.parse
      simp only [String.toList_ofList, head, ne_eq, not_true_eq_false, if_false, still, other,
        parts, placed]

/-! Matching the same path makes patterns of the same shape conflict. -/

theorem segments_compatible_of_match {a b : Segment} {part : List Char}
    {as bs : List Segment} {parts : List (List Char)} {c d : List (String × String)}
    (ha : matchSegments (a :: as) (part :: parts) = some c)
    (hb : matchSegments (b :: bs) (part :: parts) = some d) :
    segmentsCompatible a b = true := by
  simp only [matchSegments] at ha hb
  cases a <;> cases b <;> simp_all [segmentsCompatible]
  exact String.toList_injective (ha.2.1.trans hb.1.symm)

theorem matchSegments_tail {seg : Segment} {segs : List Segment} {part : List Char}
    {parts : List (List Char)} {c : List (String × String)}
    (matched : matchSegments (seg :: segs) (part :: parts) = some c) :
    ∃ d, matchSegments segs parts = some d := by
  simp only [matchSegments] at matched
  cases seg with
  | literal text => simp_all
  | param name =>
    simp only [Option.ite_none_left_eq_some, Option.map_eq_some_iff] at matched
    obtain ⟨_, d, rest, _⟩ := matched
    exact ⟨d, rest⟩
  | tail name => simp at matched

theorem all_compatible_of_match {as bs : List Segment} {parts : List (List Char)}
    {c d : List (String × String)} (room : as.length ≤ parts.length)
    (ha : matchSegments as parts = some c) (hb : matchSegments bs parts = some d) :
    allCompatible as bs = true := by
  induction as generalizing bs parts c d with
  | nil => rfl
  | cons a as ih =>
    cases bs with
    | nil => rfl
    | cons b bs =>
      cases parts with
      | nil => simp at room
      | cons part parts =>
        obtain ⟨c', restA⟩ := matchSegments_tail ha
        obtain ⟨d', restB⟩ := matchSegments_tail hb
        have here := segments_compatible_of_match ha hb
        have later := ih (by simpa using room) restA restB
        simp only [allCompatible, List.zip_cons_cons, List.all_cons, Bool.and_eq_true]
        exact ⟨here, later⟩

theorem hasTail_iff (p : Pattern) :
    p.hasTail = true ↔ ∃ name, p.segments.getLast? = some (.tail name) := by
  unfold Pattern.hasTail
  cases h : p.segments.getLast? with
  | none => simp
  | some seg => cases seg <;> simp [Segment.isTail]

theorem matchPath_specific {p : Pattern} {path : String} (noTail : p.hasTail = false)
    (slash : path.toList.head? = some '/') :
    p.matchPath path =
      if p.segments.length = (requestParts (trimTrailingSlash path.toList)).length then
        matchSegments p.segments (requestParts (trimTrailingSlash path.toList)) else none := by
  have noName : ∀ name, p.segments.getLast? ≠ some (.tail name) := by
    intro name found
    have := (hasTail_iff p).mpr ⟨name, found⟩
    simp [this] at noTail
  have plain : p.matchPath path = if (trimTrailingSlash path.toList) = ['/'] then
        (if p.segments = [] then some [] else none)
      else if (requestParts (trimTrailingSlash path.toList)).length ≠ p.segments.length then none
      else matchSegments p.segments (requestParts (trimTrailingSlash path.toList)) := by
    unfold Pattern.matchPath
    simp only [slash, ne_eq, not_true_eq_false, if_false]
  rw [plain]
  by_cases root : trimTrailingSlash path.toList = ['/']
  · rw [if_pos root]
    by_cases bare : p.segments = []
    · simp [bare, root, requestParts, matchSegments]
    · simp [bare, root, requestParts]
  · rw [if_neg root]
    by_cases same : (requestParts (trimTrailingSlash path.toList)).length = p.segments.length
    · rw [if_neg (not_not_intro same), if_pos same.symm]
    · rw [if_pos same, if_neg (fun equal => same equal.symm)]

theorem matchPath_backstop {p : Pattern} {path name : String}
    (tailed : p.segments.getLast? = some (.tail name)) (slash : path.toList.head? = some '/') :
    p.matchPath path =
      if (requestParts (trimTrailingSlash path.toList)).length < p.segments.dropLast.length
      then none
      else (matchSegments p.segments.dropLast (requestParts (trimTrailingSlash path.toList))).map
        (· ++ [(name, joinSlash ((requestParts (trimTrailingSlash path.toList)).drop
          p.segments.dropLast.length))]) := by
  simp only [Pattern.matchPath, tailed, slash, ne_eq, not_true_eq_false, if_false]

theorem match_slash {p : Pattern} {path : String} {c : List (String × String)}
    (matched : p.matchPath path = some c) : path.toList.head? = some '/' := by
  by_contra other
  simp [Pattern.matchPath, other] at matched

/-- What a successful match says of a pattern without a tail. -/
theorem match_specific {p : Pattern} {path : String} {c : List (String × String)}
    (noTail : p.hasTail = false) (matched : p.matchPath path = some c) :
    p.segments.length = (requestParts (trimTrailingSlash path.toList)).length ∧
      matchSegments p.segments (requestParts (trimTrailingSlash path.toList)) = some c := by
  rw [matchPath_specific noTail (match_slash matched)] at matched
  split at matched
  · rename_i same
    exact ⟨same, matched⟩
  · cases matched

/-- What a successful match says of a pattern with a tail. -/
theorem match_backstop {p : Pattern} {path : String} {c : List (String × String)}
    (tailed : p.hasTail = true) (matched : p.matchPath path = some c) :
    p.segments.dropLast.length ≤ (requestParts (trimTrailingSlash path.toList)).length ∧
      ∃ d, matchSegments p.segments.dropLast
        (requestParts (trimTrailingSlash path.toList)) = some d := by
  obtain ⟨name, found⟩ := (hasTail_iff p).mp tailed
  rw [matchPath_backstop found (match_slash matched)] at matched
  split at matched
  · cases matched
  · rename_i room
    obtain ⟨d, inner, _⟩ := Option.map_eq_some_iff.mp matched
    exact ⟨Nat.not_lt.mp room, d, inner⟩

/-- Two specific patterns, or two backstops of one length, that match a path conflict. -/
theorem patterns_conflict_of_match {a b : Pattern} {path : String}
    {c d : List (String × String)} (tails : a.hasTail = b.hasTail)
    (lengths : a.hasTail = true → a.segments.length = b.segments.length)
    (ha : a.matchPath path = some c) (hb : b.matchPath path = some d) :
    patternsConflict a b = true := by
  cases kind : a.hasTail with
  | false =>
    have kindB : b.hasTail = false := tails ▸ kind
    obtain ⟨lenA, segsA⟩ := match_specific kind ha
    obtain ⟨lenB, segsB⟩ := match_specific kindB hb
    simp only [patternsConflict, kind, kindB, Bool.and_eq_true, beq_iff_eq]
    exact ⟨lenA.trans lenB.symm, all_compatible_of_match (Nat.le_of_eq lenA) segsA segsB⟩
  | true =>
    have kindB : b.hasTail = true := tails ▸ kind
    obtain ⟨roomA, _, segsA⟩ := match_backstop kind ha
    obtain ⟨_, _, segsB⟩ := match_backstop kindB hb
    simp only [patternsConflict, kind, kindB, Bool.and_eq_true, beq_iff_eq]
    refine ⟨?_, all_compatible_of_match roomA segsA segsB⟩
    simp only [List.length_dropLast, lengths kind]

/-! Method lists -/

/-- A method name that route creation accepts. -/
def validMethod (m : String) : Bool :=
  m != "" && (m == "ANY" || m.toList.all (fun c => c.isUpper || c.isDigit || c == '-'))

theorem lower_lower_char (c : Char) : c.toLower.toLower = c.toLower := by
  by_cases small : c.toNat < 128
  · have all : ∀ n : Fin 128, (Char.ofNat n).toLower.toLower = (Char.ofNat n).toLower := by decide
    have := all ⟨c.toNat, small⟩
    simpa only [Char.ofNat_toNat] using this
  · have still : c.toLower = c := by
      unfold Char.toLower
      rw [dif_neg]
      rintro ⟨_, below⟩
      have : c.toNat ≤ 90 := UInt32.le_iff_toNat_le.mp below
      omega
    rw [still, still]

theorem lowercase_lowercase (s : List Char) :
    toAsciiLowercase (toAsciiLowercase s) = toAsciiLowercase s := by
  simp only [toAsciiLowercase, List.map_map, Function.comp_def, lower_lower_char]

theorem upper_lower_char (c : Char) (plain : (c.isUpper || c.isDigit || c == '-') = true) :
    c.toLower.toUpper = c := by
  have small : c.toNat < 128 := by
    delta Char.isUpper Char.isDigit at plain
    simp only [Bool.or_eq_true, Bool.and_eq_true, decide_eq_true_eq, beq_iff_eq,
      UInt32.le_iff_toNat_le] at plain
    rcases plain with (h | h) | h
    · have := h.2
      exact Nat.lt_of_le_of_lt this (by decide)
    · have := h.2
      exact Nat.lt_of_le_of_lt this (by decide)
    · subst h
      decide
  have all : ∀ n : Fin 128, ((Char.ofNat n).isUpper || (Char.ofNat n).isDigit ||
      Char.ofNat n == '-') = true → (Char.ofNat n).toLower.toUpper = Char.ofNat n := by
    decide
  have := all ⟨c.toNat, small⟩
  simp only [Char.ofNat_toNat] at this
  exact this plain

theorem upper_lower_chars (s : List Char)
    (plain : s.all (fun c => c.isUpper || c.isDigit || c == '-') = true) :
    (toAsciiLowercase s).map Char.toUpper = s := by
  simp only [toAsciiLowercase, List.map_map]
  conv => rhs; rw [← List.map_id s]
  apply List.map_congr_left
  intro c member
  exact upper_lower_char c (List.all_eq_true.mp plain c member)

theorem methods_overlap_of_match {a b : Methods} {method : String}
    (validA : ∀ m ∈ a, validMethod m = true) (validB : ∀ m ∈ b, validMethod m = true)
    (ha : methodsMatch a method = true) (hb : methodsMatch b method = true) :
    methodsOverlap a b = true := by
  simp only [methodsMatch, List.any_eq_true, Bool.or_eq_true, beq_iff_eq] at ha hb
  obtain ⟨x, memX, hx⟩ := ha
  obtain ⟨y, memY, hy⟩ := hb
  simp only [methodsOverlap, Bool.or_eq_true, List.any_eq_true, beq_iff_eq]
  by_cases anyX : x = "ANY"
  · exact .inl (.inl ⟨x, memX, anyX⟩)
  by_cases anyY : y = "ANY"
  · exact .inl (.inr ⟨y, memY, anyY⟩)
  · right
    have vx := validA x memX
    have vy := validB y memY
    simp only [validMethod, anyX, anyY, Bool.and_eq_true, bne_iff_ne, Bool.or_eq_true,
      beq_iff_eq, false_or] at vx vy
    have lowX := hx.resolve_left anyX
    have lowY := hy.resolve_left anyY
    simp only [eqIgnoreAsciiCase, beq_iff_eq] at lowX lowY
    have same : toAsciiLowercase x.toList = toAsciiLowercase y.toList := lowX.trans lowY.symm
    have text : x.toList = y.toList := by
      rw [← upper_lower_chars x.toList vx.2, ← upper_lower_chars y.toList vy.2, same]
    exact ⟨x, memX, y, memY, String.toList_injective text⟩

/-! Conflict is symmetric. -/

theorem segments_compatible_comm (a b : Segment) :
    segmentsCompatible a b = segmentsCompatible b a := by
  cases a <;> cases b <;> simp [segmentsCompatible, Bool.beq_comm]

theorem all_compatible_comm (as bs : List Segment) : allCompatible as bs = allCompatible bs as := by
  induction as generalizing bs with
  | nil => cases bs <;> rfl
  | cons a as ih =>
    cases bs with
    | nil => rfl
    | cons b bs =>
      simp only [allCompatible, List.zip_cons_cons, List.all_cons] at ih ⊢
      rw [ih bs, segments_compatible_comm a b]

theorem methods_overlap_comm (a b : Methods) : methodsOverlap a b = methodsOverlap b a := by
  rw [Bool.eq_iff_iff]
  simp only [methodsOverlap, Bool.or_eq_true, List.any_eq_true, beq_iff_eq]
  constructor
  · rintro ((h | h) | ⟨x, hx, y, hy, same⟩)
    · exact .inl (.inr h)
    · exact .inl (.inl h)
    · exact .inr ⟨y, hy, x, hx, same.symm⟩
  · rintro ((h | h) | ⟨x, hx, y, hy, same⟩)
    · exact .inl (.inr h)
    · exact .inl (.inl h)
    · exact .inr ⟨y, hy, x, hx, same.symm⟩

theorem patterns_conflict_comm (a b : Pattern) : patternsConflict a b = patternsConflict b a := by
  unfold patternsConflict
  cases a.hasTail <;> cases b.hasTail <;> simp only
  · rw [all_compatible_comm, Bool.beq_comm]
  · rw [all_compatible_comm, Bool.beq_comm]

theorem routes_conflict_comm (ma mb : Methods) (pa pb : Pattern) :
    routesConflict ma pa mb pb = routesConflict mb pb ma pa := by
  simp only [routesConflict, methods_overlap_comm ma mb, patterns_conflict_comm pa pb]

end WireMirage
