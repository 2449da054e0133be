import WireMirage.Table.Captures

/-!
The normal form of a pattern: its text is its segments rendered again, and the arms that the
matcher takes for unreachable are.
-/
namespace WireMirage

def Segment.render : Segment → List Char
  | .literal text => text.toList
  | .param name => '{' :: (name.toList ++ ['}'])
  | .tail name => '{' :: (name.toList ++ ['.', '.', '.'] ++ ['}'])

def Pattern.render (p : Pattern) : String := pathOf (p.segments.map Segment.render)

/-! Rendering what was parsed -/

theorem stripTailDots_some {inner name : List Char} (stripped : stripTailDots inner = some name) :
    inner = name ++ ['.', '.', '.'] := by
  unfold stripTailDots at stripped
  split at stripped
  · rename_i dots
    obtain ⟨init, rfl⟩ := List.isSuffixOf_iff_suffix.mp dots
    have long : (init ++ ['.', '.', '.']).length - 3 = init.length := by simp
    rw [long, List.take_left, Option.some.injEq] at stripped
    rw [stripped]
  · cases stripped

theorem parseName_segment {seen : List String} {name : List Char} {isTail : Bool} {seg : Segment}
    (parsed : parseName seen name isTail = .ok seg) :
    seg = if isTail then .tail (String.ofList name) else .param (String.ofList name) := by
  unfold parseName at parsed
  split at parsed
  · cases parsed
  · split at parsed
    · cases parsed
    · split at parsed
      · cases parsed
      · cases isTail with
        | true => exact (Except.ok.inj parsed).symm
        | false => exact (Except.ok.inj parsed).symm

theorem parsePart_render {seen : List String} {part : List Char} {seg : Segment}
    (parsed : parsePart seen part = .ok seg) : seg.render = part := by
  unfold parsePart at parsed
  split at parsed
  · cases parsed
  · split at parsed
    · rename_i brace
      obtain ⟨rest, opened⟩ := List.head?_eq_some_iff.mp brace
      have behind : part.tail = rest := by rw [opened, List.tail_cons]
      simp only at parsed
      split at parsed
      · cases parsed
      · rename_i closed
        rw [behind, ne_eq, Decidable.not_not] at closed
        have whole : rest = rest.dropLast ++ ['}'] :=
          (List.dropLast_append_getLast? '}' closed).symm
        split at parsed
        · cases parsed
        · split at parsed
          · rename_i name stripped
            rw [behind] at stripped
            rw [parseName_segment parsed, if_pos rfl, Segment.render, String.toList_ofList,
              ← stripTailDots_some stripped, ← whole, opened]
          · rw [parseName_segment parsed, if_neg (by simp), Segment.render, String.toList_ofList,
              behind, ← whole, opened]
    · split at parsed
      · cases parsed
      · cases parsed
        rw [Segment.render, String.toList_ofList]

theorem parseParts_render {seen : List String} {parts : List (List Char)} {segs : List Segment}
    (parsed : parseParts seen parts = .ok segs) : segs.map Segment.render = parts := by
  induction parts generalizing seen segs with
  | nil =>
    cases parsed
    rfl
  | cons part rest ih =>
    unfold parseParts at parsed
    cases here : parsePart seen part with
    | error e => simp [here] at parsed
    | ok first =>
      simp only [here] at parsed
      cases later : parseParts (first.paramName.toList ++ seen) rest with
      | error e => simp [later] at parsed
      | ok others =>
        simp only [later, Except.ok.injEq] at parsed
        subst parsed
        rw [List.map_cons, parsePart_render here, ih later]

theorem parse_render {raw : String} {p : Pattern} (parsed : Pattern.parse raw = .ok p) :
    p.render = p.raw := by
  obtain ⟨slash, ⟨_, rfl⟩ | ⟨other, parts, _, text⟩⟩ := parse_cases parsed
  · decide
  · have path := pathOf_requestParts (trim_head slash)
    rw [requestParts, if_neg other] at path
    rw [Pattern.render, parseParts_render parts, path, text]

theorem parse_tail_last {raw : String} {p : Pattern} (parsed : Pattern.parse raw = .ok p) :
    ∀ seg ∈ p.segments.dropLast, seg.isTail = false := by
  obtain ⟨_, ⟨_, rfl⟩ | ⟨_, _, placed, _⟩⟩ := parse_cases parsed
  · simp
  · exact tails_last placed

/-! The arms for which there is no segment -/

/-- The loop of `match_path`, without an answer in the arm it takes for unreachable. -/
def matchSegmentsChecked :
    List Segment → List (List Char) → Option (Option (List (String × String)))
  | [], _ => some (some [])
  | _ :: _, [] => some (some [])
  | seg :: segs, part :: parts =>
    if part = [] then some none
    else match seg with
      | .literal text =>
        if text.toList = part then matchSegmentsChecked segs parts else some none
      | .param name =>
        (matchSegmentsChecked segs parts).map (·.map ((name, String.ofList part) :: ·))
      | .tail _ => none

/-- `match_path`, without an answer in the arms it takes for unreachable. -/
def Pattern.matchPathChecked (p : Pattern) (path : String) :
    Option (Option (List (String × String))) :=
  if path.toList.head? ≠ some '/' then some none
  else
    let trimmed := trimTrailingSlash path.toList
    let parts := requestParts trimmed
    match p.segments.getLast? with
    | some (.tail tailName) =>
      let leading := p.segments.dropLast
      if parts.length < leading.length then some none
      else (matchSegmentsChecked leading parts).map
        (·.map (· ++ [(tailName, joinSlash (parts.drop leading.length))]))
    | _ =>
      if trimmed = ['/'] then (if p.segments = [] then some (some []) else some none)
      else if parts.length ≠ p.segments.length then some none
      else matchSegmentsChecked p.segments parts

theorem matchSegmentsChecked_eq {segs : List Segment} (parts : List (List Char))
    (inner : ∀ seg ∈ segs, seg.isTail = false) :
    matchSegmentsChecked segs parts = some (matchSegments segs parts) := by
  induction segs generalizing parts with
  | nil => rfl
  | cons seg segs ih =>
    cases parts with
    | nil => rfl
    | cons part parts =>
      have later := ih parts (fun other member => inner other (List.mem_cons_of_mem _ member))
      unfold matchSegmentsChecked matchSegments
      by_cases empty : part = []
      · rw [if_pos empty, if_pos empty]
      · rw [if_neg empty, if_neg empty]
        cases seg with
        | literal text =>
          by_cases same : text.toList = part
          · simp only [if_pos same, later]
          · simp only [if_neg same]
        | param name => simp only [later, Option.map_some]
        | tail name =>
          have wrong := inner (.tail name) List.mem_cons_self
          cases wrong

theorem matchPathChecked_eq {raw : String} {p : Pattern} (parsed : Pattern.parse raw = .ok p)
    (path : String) : p.matchPathChecked path = some (p.matchPath path) := by
  have inner := parse_tail_last parsed
  unfold Pattern.matchPathChecked Pattern.matchPath
  by_cases slash : path.toList.head? = some '/'
  · rw [if_neg (not_not_intro slash), if_neg (not_not_intro slash)]
    simp only
    cases last : p.segments.getLast? with
    | none =>
      rw [List.getLast?_eq_none_iff] at last
      simp only [last, matchSegmentsChecked_eq _ (List.forall_mem_nil _)]
      repeat' split
      all_goals rfl
    | some final =>
      have whole := List.dropLast_append_getLast? final last
      cases final with
      | tail name =>
        simp only [matchSegmentsChecked_eq _ inner, Option.map_some]
        split <;> rfl
      | literal text | param name =>
        have every : ∀ seg ∈ p.segments, seg.isTail = false := by
          intro seg member
          rw [← whole] at member
          rcases List.mem_append.mp member with early | here
          · exact inner seg early
          · rw [List.mem_singleton.mp here]
            rfl
        simp only [matchSegmentsChecked_eq _ every]
        repeat' split
        all_goals rfl
  · rw [if_pos slash, if_pos slash]

end WireMirage
