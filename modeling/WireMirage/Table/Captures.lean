import WireMirage.Table.Conflicts

/-!
What the captures of a match keep of the path: a pattern with its captures filled in is the
request path again, but for a slash at the end.
-/
namespace WireMirage

/-- The parts of a pattern with values for its parameters, in order. -/
def fillSegments : List Segment → List String → List (List Char)
  | [], _ => []
  | .literal text :: segs, values => text.toList :: fillSegments segs values
  | _ :: _, [] => []
  | _ :: segs, value :: values => value.toList :: fillSegments segs values

def Pattern.substitute (p : Pattern) (captures : List (String × String)) : String :=
  pathOf (fillSegments p.segments (captures.map Prod.snd))

/-- Two paths are the same but for one slash at the end. -/
def UpToSlash (a b : String) : Prop := a = b ∨ a = b ++ "/" ∨ b = a ++ "/"

/-! Parts of a path -/

theorem trim_cases (path : List Char) :
    path = trimTrailingSlash path ∨ path = trimTrailingSlash path ++ ['/'] := by
  unfold trimTrailingSlash
  split
  · rename_i long
    exact .inr (List.dropLast_append_getLast? '/' long.2).symm
  · exact .inl rfl

/-- The parts of a path, joined, are the path. -/
theorem pathOf_requestParts {trimmed : List Char} (slash : trimmed.head? = some '/') :
    pathOf (requestParts trimmed) = String.ofList trimmed := by
  cases trimmed with
  | nil => cases slash
  | cons c rest =>
    cases Option.some.inj slash
    unfold requestParts
    split
    · rename_i root
      rw [root]
      rfl
    · rw [pathOf, List.drop_one, List.tail_cons, List.intercalate_splitOn]

theorem join_append (a : List (List Char)) {rest : List (List Char)} (some_ : rest ≠ []) :
    ['/'].intercalate (a ++ [['/'].intercalate rest]) = ['/'].intercalate (a ++ rest) := by
  induction a with
  | nil => rw [List.nil_append, List.nil_append, List.intercalate_singleton]
  | cons part a ih =>
    rw [List.cons_append, List.cons_append, List.intercalate_cons_of_ne_nil (by simp),
      List.intercalate_cons_of_ne_nil (by simp [some_]), ih]

/-- An empty part at the end is a slash. -/
theorem join_empty {a : List (List Char)} (some_ : a ≠ []) :
    ['/'].intercalate (a ++ [[]]) = ['/'].intercalate a ++ ['/'] := by
  induction a with
  | nil => exact absurd rfl some_
  | cons part a ih =>
    by_cases last : a = []
    · subst last
      rw [List.cons_append, List.nil_append, List.intercalate_cons_cons,
        List.intercalate_singleton, List.intercalate_singleton, List.append_nil]
    · rw [List.cons_append, List.intercalate_cons_of_ne_nil (by simp),
        List.intercalate_cons_of_ne_nil last, ih last]
      simp only [List.append_assoc]

theorem requestParts_whole (trimmed : List Char) : ∀ part ∈ requestParts trimmed, '/' ∉ part := by
  unfold requestParts
  split
  · simp
  · exact split_whole _

/-! The names of a pattern -/

theorem parsePart_name {seen : List String} {part : List Char} {seg : Segment}
    (parsed : parsePart seen part = .ok seg) : ∀ name ∈ seg.paramName, name ∉ seen := by
  have named : ∀ name isTail, parseName seen name isTail = .ok seg →
      ∀ n ∈ seg.paramName, n ∉ seen := by
    intro name isTail done
    unfold parseName at done
    split at done
    · cases done
    · split at done
      · cases done
      · split at done
        · cases done
        · rename_i fresh
          split at done <;> cases done <;> rintro n ⟨⟩ <;> exact fresh
  unfold parsePart at parsed
  split at parsed
  · cases parsed
  · split at parsed
    · simp only at parsed
      split at parsed
      · cases parsed
      · split at parsed
        · cases parsed
        · split at parsed
          · exact named _ _ parsed
          · exact named _ _ parsed
    · split at parsed
      · cases parsed
      · cases parsed
        simp [Segment.paramName]

theorem parseParts_names {seen : List String} {parts : List (List Char)} {segs : List Segment}
    (parsed : parseParts seen parts = .ok segs) :
    (segs.filterMap Segment.paramName).Nodup ∧
      ∀ name ∈ segs.filterMap Segment.paramName, name ∉ seen := by
  induction parts generalizing seen segs with
  | nil =>
    cases parsed
    simp
  | cons part rest ih =>
    unfold parseParts at parsed
    cases here : parsePart seen part with
    | error e => simp [here] at parsed
    | ok first =>
      simp only [here] at parsed
      cases later : parseParts (first.paramName.toList ++ seen) rest with
      | error e => simp [later] at parsed
      | ok others =>
        simp only [later, Except.ok.injEq] at parsed
        subst parsed
        obtain ⟨nodup, apart⟩ := ih later
        have fresh := parsePart_name here
        cases named : first.paramName with
        | none =>
          rw [named] at apart
          rw [List.filterMap_cons, named]
          exact ⟨nodup, apart⟩
        | some name =>
          rw [named] at apart fresh
          rw [List.filterMap_cons, named]
          have other : name ∉ others.filterMap Segment.paramName :=
            fun inside => apart name inside (by simp)
          refine ⟨List.nodup_cons.mpr ⟨other, nodup⟩, ?_⟩
          intro n member
          rcases List.mem_cons.mp member with rfl | member
          · exact fresh _ rfl
          · exact fun inside => apart n member (List.mem_append_right _ inside)

theorem parse_names {raw : String} {p : Pattern} (parsed : Pattern.parse raw = .ok p) :
    (p.segments.filterMap Segment.paramName).Nodup := by
  obtain ⟨_, ⟨_, rfl⟩ | ⟨_, parts, _⟩⟩ := parse_cases parsed
  · exact List.nodup_nil
  · exact (parseParts_names parts).1

/-! What a match captures -/

/-- The captures of plain segments: their names, what they fill in, and that each is one part. -/
theorem matchSegments_captures {segs : List Segment} {parts : List (List Char)}
    {c : List (String × String)} (plain : ∀ seg ∈ segs, seg.Plain)
    (whole : ∀ part ∈ parts, '/' ∉ part) (room : segs.length ≤ parts.length)
    (matched : matchSegments segs parts = some c) :
    c.map Prod.fst = segs.filterMap Segment.paramName ∧
      (∀ more values, fillSegments (segs ++ more) (c.map Prod.snd ++ values) =
        parts.take segs.length ++ fillSegments more values) ∧
      ∀ capture ∈ c, capture.2 ≠ "" ∧ '/' ∉ capture.2.toList := by
  induction segs generalizing parts c with
  | nil =>
    cases matched
    simp
  | cons seg segs ih =>
    cases parts with
    | nil => simp at room
    | cons part parts =>
      have later : ∀ d, matchSegments segs parts = some d → _ := fun d found =>
        ih (fun s member => plain s (List.mem_cons_of_mem _ member))
          (fun q member => whole q (List.mem_cons_of_mem _ member)) (Nat.le_of_succ_le_succ room)
          found
      have one := whole part List.mem_cons_self
      simp only [matchSegments] at matched
      split at matched
      · cases matched
      · rename_i full
        cases seg with
        | tail name => cases matched
        | literal text =>
          simp only at matched
          split at matched
          · rename_i same
            obtain ⟨names, fills, each⟩ := later c matched
            refine ⟨names, ?_, each⟩
            intro more values
            rw [List.cons_append, fillSegments, fills, same]
            rfl
          · cases matched
        | param name =>
          obtain ⟨d, found, rfl⟩ := Option.map_eq_some_iff.mp matched
          obtain ⟨names, fills, each⟩ := later d found
          refine ⟨by rw [List.map_cons, names]; rfl, ?_, ?_⟩
          · intro more values
            rw [List.map_cons, List.cons_append, List.cons_append, fillSegments, fills,
              String.toList_ofList]
            · rfl
            · intro text
              simp
          · intro capture member
            rcases List.mem_cons.mp member with rfl | member
            · refine ⟨?_, by rw [String.toList_ofList]; exact one⟩
              intro empty
              have text : String.ofList part = "" := empty
              apply full
              rw [← String.toList_ofList (l := part), text]
              rfl
            · exact each capture member

section Matching
variable {raw : String} {p : Pattern} {path : String} {captures : List (String × String)}

theorem text_of_trimmed (slash : path.toList.head? = some '/') :
    path = pathOf (requestParts (trimTrailingSlash path.toList)) ∨
      path = pathOf (requestParts (trimTrailingSlash path.toList)) ++ "/" := by
  rw [pathOf_requestParts (trim_head slash)]
  rcases trim_cases path.toList with same | longer
  · left
    rw [← same, String.ofList_toList]
  · right
    apply String.toList_injective
    rw [String.toList_append, String.toList_ofList]
    exact longer

/-- The captures of a pattern without a tail make up the path. -/
theorem captured_specific (parsed : Pattern.parse raw = .ok p) (noTail : p.hasTail = false)
    (matched : p.matchPath path = some captures) :
    captures.map Prod.fst = p.segments.filterMap Segment.paramName ∧
      (∀ capture ∈ captures, capture.2 ≠ "" ∧ '/' ∉ capture.2.toList) ∧
      (path = p.substitute captures ∨ path = p.substitute captures ++ "/") := by
  have plain := leading_plain parsed
  rw [Pattern.leading, noTail, if_neg Bool.false_ne_true] at plain
  obtain ⟨same, inner⟩ := match_specific noTail matched
  obtain ⟨names, fills, each⟩ := matchSegments_captures plain (requestParts_whole _)
    (Nat.le_of_eq same) inner
  have filled := fills [] []
  rw [List.append_nil, List.append_nil, fillSegments, List.append_nil, same,
    List.take_length] at filled
  refine ⟨names, each, ?_⟩
  rw [Pattern.substitute, filled]
  exact text_of_trimmed (match_slash matched)

/-- Those of a pattern with a tail make it up too, but a prefix alone is short of a slash. -/
theorem captured_backstop (parsed : Pattern.parse raw = .ok p) (tailed : p.hasTail = true)
    (matched : p.matchPath path = some captures) :
    captures.map Prod.fst = p.segments.filterMap Segment.paramName ∧
      (∀ name value, (name, value) ∈ captures → Segment.param name ∈ p.segments →
        value ≠ "" ∧ '/' ∉ value.toList) ∧
      (path = p.substitute captures ∨ path = p.substitute captures ++ "/" ∨
        p.leading ≠ [] ∧ (∃ name, captures.getLast? = some (name, "")) ∧
          p.substitute captures = path ++ "/") := by
  obtain ⟨name, last⟩ := (hasTail_iff p).mp tailed
  have plain := leading_plain parsed
  rw [Pattern.leading, tailed, if_pos rfl] at plain
  have slash := match_slash matched
  rw [matchPath_backstop last slash] at matched
  split at matched
  · cases matched
  · rename_i room
    obtain ⟨c, inner, rfl⟩ := Option.map_eq_some_iff.mp matched
    have split : p.segments = p.segments.dropLast ++ [.tail name] :=
      (List.dropLast_append_getLast? _ last).symm
    obtain ⟨names, fills, each⟩ := matchSegments_captures plain (requestParts_whole _)
      (Nat.not_lt.mp room) inner
    have distinct := parse_names parsed
    have text := text_of_trimmed slash
    have leading : p.leading = p.segments.dropLast := by rw [Pattern.leading, tailed, if_pos rfl]
    generalize p.segments.dropLast = lead at split names fills room leading
    generalize requestParts (trimTrailingSlash path.toList) = parts at fills room text ⊢
    rw [split, List.filterMap_append] at distinct
    refine ⟨?_, ?_, ?_⟩
    · rw [split, List.filterMap_append, List.map_append, names]
      rfl
    · intro n value member asParam
      rcases List.mem_append.mp member with early | here
      · exact each _ early
      · cases List.mem_singleton.mp here
        rw [split] at asParam
        rcases List.mem_append.mp asParam with inLead | atEnd
        · have twice : name ∈ lead.filterMap Segment.paramName :=
            List.mem_filterMap.mpr ⟨_, inLead, rfl⟩
          exact absurd rfl ((List.nodup_append.mp distinct).2.2 name twice name
            (by simp [Segment.paramName]))
        · cases List.mem_singleton.mp atEnd
    · have filled : p.substitute (c ++ [(name, joinSlash (parts.drop lead.length))]) =
          pathOf (parts.take lead.length ++ [['/'].intercalate (parts.drop lead.length)]) := by
        rw [Pattern.substitute, split, List.map_append, fills]
        simp [fillSegments, joinSlash]
      rw [filled]
      by_cases bare : parts.drop lead.length = []
      · have short : parts.length ≤ lead.length := List.drop_eq_nil_iff.mp bare
        rw [bare, List.take_of_length_le short, List.intercalate_nil]
        by_cases root : parts = []
        · subst root
          rcases text with same | longer
          · exact .inl same
          · exact .inr (.inl longer)
        · have joined : pathOf (parts ++ [[]]) = pathOf parts ++ "/" := by
            apply String.toList_injective
            simp [pathOf, join_empty root]
          rw [joined]
          rcases text with same | longer
          · refine .inr (.inr ⟨?_, ⟨name, by simp [joinSlash]⟩, by rw [← same]⟩)
            rw [leading]
            intro none_
            rw [none_, List.length_nil, Nat.le_zero, List.length_eq_zero_iff] at short
            exact root short
          · exact .inl longer
      · have whole : pathOf (parts.take lead.length ++
            [['/'].intercalate (parts.drop lead.length)]) = pathOf parts := by
          rw [pathOf, join_append _ bare, List.take_append_drop]
          rfl
        rw [whole]
        rcases text with same | longer
        · exact .inl same
        · exact .inr (.inl longer)

/-- The captures of a match are the parameters in order, single ones are parts of the path, and
    filled in they give the path but for a slash at the end. Two paths with the same captures
    differ by a slash at the end at most, or by two where nothing follows the prefix of a tail. -/
theorem captures_reconstruct (parsed : Pattern.parse raw = .ok p)
    (matched : p.matchPath path = some captures) :
    captures.map Prod.fst = p.segments.filterMap Segment.paramName ∧
      (∀ name value, (name, value) ∈ captures → Segment.param name ∈ p.segments →
        value ≠ "" ∧ '/' ∉ value.toList) ∧
      UpToSlash path (p.substitute captures) ∧
      ∀ path', p.matchPath path' = some captures →
        UpToSlash path path' ∨ p.hasTail = true ∧ p.leading ≠ [] ∧
          (∃ name, captures.getLast? = some (name, "")) ∧
          (path = path' ++ "//" ∨ path' = path ++ "//") := by
  cases tailed : p.hasTail with
  | false =>
    obtain ⟨names, each, text⟩ := captured_specific parsed tailed matched
    refine ⟨names, fun _ _ member _ => each _ member, ?_, ?_⟩
    · rcases text with same | longer
      · exact .inl same
      · exact .inr (.inl longer)
    · intro path' matched'
      obtain ⟨_, _, text'⟩ := captured_specific parsed tailed matched'
      left
      rcases text with same | longer
      · rcases text' with same' | longer'
        · exact .inl (same.trans same'.symm)
        · exact .inr (.inr (by rw [longer', ← same]))
      · rcases text' with same' | longer'
        · exact .inr (.inl (by rw [longer, ← same']))
        · exact .inl (longer.trans longer'.symm)
  | true =>
    have cancel : ∀ a b : String, a ++ "/" = b ++ "/" → a = b := by
      intro a b same
      apply String.toList_injective
      have chars := congrArg String.toList same
      rw [String.toList_append, String.toList_append] at chars
      exact List.append_cancel_right chars
    have twice : ∀ a : String, a ++ "/" ++ "/" = a ++ "//" := by
      intro a
      rw [String.append_assoc]
      rfl
    obtain ⟨names, each, text⟩ := captured_backstop parsed tailed matched
    refine ⟨names, each, ?_, ?_⟩
    · rcases text with same | longer | ⟨_, _, shorter⟩
      · exact .inl same
      · exact .inr (.inl longer)
      · exact .inr (.inr shorter)
    · intro path' matched'
      obtain ⟨_, _, text'⟩ := captured_backstop parsed tailed matched'
      rcases text with same | longer | ⟨lead, empty, shorter⟩
      · rcases text' with same' | longer' | ⟨_, _, shorter'⟩
        · exact .inl (.inl (same.trans same'.symm))
        · exact .inl (.inr (.inr (by rw [longer', ← same])))
        · exact .inl (.inr (.inl (same.trans shorter')))
      · rcases text' with same' | longer' | ⟨lead, empty, shorter'⟩
        · exact .inl (.inr (.inl (by rw [longer, ← same'])))
        · exact .inl (.inl (longer.trans longer'.symm))
        · exact .inr ⟨rfl, lead, empty, .inl (by rw [longer, shorter', twice])⟩
      · rcases text' with same' | longer' | ⟨_, _, shorter'⟩
        · exact .inl (.inr (.inr (same'.trans shorter)))
        · exact .inr ⟨rfl, lead, empty, .inr (by rw [longer', shorter, twice])⟩
        · exact .inl (.inl (cancel _ _ (shorter.symm.trans shorter')))

end Matching
theorem captures_reconstruct_charge : ∃ p, Pattern.parse "/v1/{id}/lines/{rest...}" = .ok p ∧
    UpToSlash "/v1/7/lines/a//b/" (p.substitute [("id", "7"), ("rest", "a//b")]) := by
  have parsed : Pattern.parse "/v1/{id}/lines/{rest...}" = .ok ⟨"/v1/{id}/lines/{rest...}",
      [.literal "v1", .param "id", .literal "lines", .tail "rest"]⟩ := by
    decide +kernel
  exact ⟨_, parsed, (captures_reconstruct parsed (by decide +kernel)).2.2.1⟩

/-- The prefix of a tail pattern, and the prefix with two slashes, both capture nothing. -/
theorem captures_lose_slashes : ∃ p, Pattern.parse "/v1/{rest...}" = .ok p ∧
    p.matchPath "/v1" = some [("rest", "")] ∧ p.matchPath "/v1//" = some [("rest", "")] ∧
    ¬ UpToSlash "/v1" "/v1//" := by
  refine ⟨⟨"/v1/{rest...}", [.literal "v1", .tail "rest"]⟩, by decide +kernel, by decide +kernel,
    by decide +kernel, ?_⟩
  unfold UpToSlash
  decide +kernel

end WireMirage
