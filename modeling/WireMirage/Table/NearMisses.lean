import WireMirage.Table.Captures
import WireMirage.Table.RouteTable

/-!
The near misses of a request that no route answers: routes whose pattern matches and whose
methods do not, and routes whose pattern matches but for one segment.
-/
namespace WireMirage

structure NearMiss where
  route : Route
  reason : NearMissReason
  deriving DecidableEq

def nearMissLimit : Nat := 20

/-- The walk over the segments, with the one that differs so far. -/
def diffSegments (i : Nat) (diff : Option (Nat × String × String)) :
    List (Segment × List Char) → Option (Nat × String × String)
  | [] => diff
  | (.param _, _) :: rest => diffSegments (i + 1) diff rest
  | (.tail _, _) :: rest => diffSegments (i + 1) diff rest
  | (.literal expected, req) :: rest =>
    if expected.toList = req then diffSegments (i + 1) diff rest
    else if ¬ (req.isPrefixOf expected.toList || expected.toList.isPrefixOf req) then none
    else if diff.isSome then none
    else diffSegments (i + 1) (some (i, expected, String.ofList req)) rest

def prefixSegmentDiff (pattern : Pattern) (path : String) : Option (Nat × String × String) :=
  if pattern.hasTail then none
  else
    let trimmed := trimTrailingSlash path.toList
    if trimmed.head? ≠ some '/' then none
    else
      let requestSegments := requestParts trimmed
      if requestSegments.length ≠ pattern.segments.length then none
      else diffSegments 0 none (pattern.segments.zip requestSegments)

def nearMiss (group : Option String) (method path : String) (route : Route) : Option NearMiss :=
  if group.any (fun g => route.groupName ≠ g) then none
  else
    match Pattern.parse route.path with
    | .error _ => none
    | .ok pattern =>
      if (pattern.matchPath path).isSome then
        some ⟨route, .methodMismatch route.methods method⟩
      else
        (prefixSegmentDiff pattern path).map
          (fun diff => ⟨route, .prefixMatch diff.1 diff.2.1 diff.2.2⟩)

def computeNearMissesFiltered (routes : List Route) (group : Option String)
    (method path : String) : List NearMiss :=
  (routes.filterMap (nearMiss group method path)).take nearMissLimit

/-! What a report is for -/

/-- The request path with one of its segments replaced. -/
def replaceSegment (path : String) (i : Nat) (text : String) : String :=
  pathOf ((requestParts (trimTrailingSlash path.toList)).set i text.toList) ++
    String.ofList (path.toList.drop (trimTrailingSlash path.toList).length)

/-- A method mismatch is of a route that serves the path under other methods, and a prefix match
    of one that serves the path once the named segment is what is expected. -/
def NearMiss.Actionable (method path : String) (miss : NearMiss) : Prop :=
  ∃ pattern, Pattern.parse miss.route.path = .ok pattern ∧
    match miss.reason with
    | .methodMismatch expected got =>
      expected = miss.route.methods ∧ got = method ∧ (pattern.matchPath path).isSome ∧
        methodsMatch miss.route.methods method = false
    | .prefixMatch i expected got =>
      (requestParts (trimTrailingSlash path.toList))[i]? = some got.toList ∧
        (pattern.matchPath (replaceSegment path i expected)).isSome

/-- No parameter of the pattern stands at an empty segment of the path. -/
def ParamsFilled (path : String) (pattern : Pattern) : Prop :=
  ∀ name part, (Segment.param name, part) ∈
    pattern.segments.zip (requestParts (trimTrailingSlash path.toList)) → part ≠ []

/-! The walk over the segments -/

/-- A literal stands at the part it spells. -/
def Spelled (pair : Segment × List Char) : Prop :=
  match pair.1 with
  | .literal text => text.toList = pair.2
  | _ => True

theorem diffSegments_some {i : Nat} {d diff : Nat × String × String}
    {pairs : List (Segment × List Char)} (found : diffSegments i (some d) pairs = some diff) :
    diff = d ∧ ∀ pair ∈ pairs, Spelled pair := by
  induction pairs generalizing i with
  | nil =>
    cases found
    simp
  | cons pair rest ih =>
    obtain ⟨seg, req⟩ := pair
    cases seg with
    | param name =>
      obtain ⟨same, later⟩ := ih found
      refine ⟨same, ?_⟩
      intro pair member
      rcases List.mem_cons.mp member with rfl | member
      · trivial
      · exact later pair member
    | tail name =>
      obtain ⟨same, later⟩ := ih found
      refine ⟨same, ?_⟩
      intro pair member
      rcases List.mem_cons.mp member with rfl | member
      · trivial
      · exact later pair member
    | literal expected =>
      rw [diffSegments] at found
      split at found
      · rename_i spelled
        obtain ⟨same, later⟩ := ih found
        refine ⟨same, ?_⟩
        intro pair member
        rcases List.mem_cons.mp member with rfl | member
        · exact spelled
        · exact later pair member
      · split at found
        · cases found
        · cases found

/-- One literal is not what the request has there, and all others are. -/
theorem diffSegments_none {i : Nat} {diff : Nat × String × String}
    {pairs : List (Segment × List Char)} (found : diffSegments i none pairs = some diff) :
    ∃ before after, pairs = before ++ (.literal diff.2.1, diff.2.2.toList) :: after ∧
      diff.1 = i + before.length ∧ diff.2.1.toList ≠ diff.2.2.toList ∧
      ∀ pair ∈ before ++ after, Spelled pair := by
  induction pairs generalizing i with
  | nil => cases found
  | cons pair rest ih =>
    obtain ⟨seg, req⟩ := pair
    have step : Spelled (seg, req) → diffSegments (i + 1) none rest = some diff →
        ∃ before after, (seg, req) :: rest =
            before ++ (.literal diff.2.1, diff.2.2.toList) :: after ∧
          diff.1 = i + before.length ∧ diff.2.1.toList ≠ diff.2.2.toList ∧
          ∀ pair ∈ before ++ after, Spelled pair := by
      intro spelled later
      obtain ⟨before, after, rfl, index, apart, each⟩ := ih later
      refine ⟨(seg, req) :: before, after, rfl, ?_, apart, ?_⟩
      · rw [index, List.length_cons]
        omega
      · intro pair member
        rcases List.mem_cons.mp member with rfl | member
        · exact spelled
        · exact each pair member
    cases seg with
    | param name => exact step trivial found
    | tail name => exact step trivial found
    | literal expected =>
      rw [diffSegments] at found
      split at found
      · rename_i spelled
        exact step spelled found
      · rename_i apart
        split at found
        · cases found
        · simp only [Option.isSome_none, Bool.false_eq_true, if_false] at found
          obtain ⟨rfl, later⟩ := diffSegments_some found
          refine ⟨[], rest, ?_, rfl, ?_, later⟩
          · rw [String.toList_ofList]
            rfl
          · rw [String.toList_ofList]
            exact apart

/-! Paths with a segment replaced -/

/-- A path that has no slash to drop ends in a part that is not empty. -/
theorem last_part_full {path : List Char} (slash : path.head? = some '/')
    (kept : trimTrailingSlash path = path) (inner : path ≠ ['/']) :
    (requestParts path).getLast? ≠ some [] := by
  intro last
  cases path with
  | nil => cases slash
  | cons c rest =>
    cases Option.some.inj slash
    rw [requestParts, if_neg inner, List.drop_one, List.tail_cons] at last
    have parts := (List.dropLast_append_getLast? _ last).symm
    have text : rest = ['/'].intercalate (rest.splitOn '/') := (List.intercalate_splitOn '/').symm
    rw [parts] at text
    by_cases one : (rest.splitOn '/').dropLast = []
    · rw [one, List.nil_append, List.intercalate_singleton] at text
      exact inner (by rw [text])
    · rw [join_empty one] at text
      have ends : ('/' :: rest).getLast? = some '/' := by
        rw [text, ← List.cons_append, List.getLast?_concat]
      have shorter : (trimTrailingSlash ('/' :: rest)).length < ('/' :: rest).length := by
        have long : 1 < ('/' :: rest).length := by
          rw [text]
          simp
        rw [trimTrailingSlash, if_pos ⟨long, ends⟩, List.length_dropLast]
        omega
      rw [kept] at shorter
      exact Nat.lt_irrefl _ shorter

theorem getLast_set {A : Type} {l : List A} {i : Nat} {a b : A}
    (last : (l.set i a).getLast? = some b) :
    b = a ∨ l.getLast? = some b := by
  rw [List.getLast?_eq_getElem?, List.length_set, List.getElem?_set] at last
  split at last
  · split at last
    · exact .inl (Option.some.inj last).symm
    · cases last
  · exact .inr (by rw [List.getLast?_eq_getElem?]; exact last)

/-- Parts joined are a path with no slash to drop, unless the last of them is empty. -/
theorem trim_join {parts : List (List Char)} (whole : ∀ part ∈ parts, '/' ∉ part)
    (some_ : parts ≠ []) (full : parts.getLast? ≠ some []) :
    trimTrailingSlash ('/' :: ['/'].intercalate parts) = '/' :: ['/'].intercalate parts := by
  have split := List.splitOn_intercalate '/' whole some_
  generalize ['/'].intercalate parts = text at split
  rw [trimTrailingSlash, if_neg]
  rintro ⟨long, ends⟩
  have nonempty : text ≠ [] := by
    rintro rfl
    exact absurd long (by simp)
  rw [List.getLast?_cons_of_ne_nil nonempty] at ends
  rw [← List.dropLast_append_getLast? '/' ends, List.splitOn_append_cons_self,
    List.splitOn_nil] at split
  apply full
  rw [← split, List.getLast?_concat]

/-- Replacing a segment of a path replaces the part of it. -/
theorem requestParts_replaceSegment {path : String} (slash : path.toList.head? = some '/')
    {i : Nat} (inside : i < (requestParts (trimTrailingSlash path.toList)).length) {text : String}
    (full : text.toList ≠ []) (whole : '/' ∉ text.toList) :
    requestParts (trimTrailingSlash (replaceSegment path i text).toList) =
      (requestParts (trimTrailingSlash path.toList)).set i text.toList := by
  have inner : trimTrailingSlash path.toList ≠ ['/'] := by
    intro root
    rw [root, requestParts, if_pos rfl] at inside
    exact absurd inside (Nat.not_lt_zero i)
  have member := List.mem_set inside text.toList
  have clean : ∀ part ∈ (requestParts (trimTrailingSlash path.toList)).set i text.toList,
      '/' ∉ part := by
    intro part among
    rcases List.mem_or_eq_of_mem_set among with old | new
    · exact requestParts_whole _ part old
    · exact new ▸ whole
  have closed : trimTrailingSlash path.toList = path.toList →
      ((requestParts (trimTrailingSlash path.toList)).set i text.toList).getLast? ≠ some [] := by
    intro same last
    rcases getLast_set last with empty | old
    · exact full empty.symm
    · rw [same] at old inner
      exact last_part_full slash same inner old
  have written : (replaceSegment path i text).toList = '/' :: ['/'].intercalate
      ((requestParts (trimTrailingSlash path.toList)).set i text.toList) ++
        path.toList.drop (trimTrailingSlash path.toList).length := by
    rw [replaceSegment, pathOf, String.toList_append, String.toList_ofList, String.toList_ofList]
  have cases_ := trim_cases path.toList
  generalize (requestParts (trimTrailingSlash path.toList)).set i text.toList = parts
    at member clean closed written ⊢
  have some_ : parts ≠ [] := List.ne_nil_of_mem member
  have split := List.splitOn_intercalate '/' clean some_
  have long : ['/'].intercalate parts ≠ [] := by
    intro empty
    rw [empty, List.splitOn_nil] at split
    rw [← split, List.mem_singleton] at member
    exact full member
  have trimmed : trimTrailingSlash (replaceSegment path i text).toList =
      '/' :: ['/'].intercalate parts := by
    rw [written]
    rcases cases_ with same | longer
    · rw [← same, List.drop_length, List.append_nil]
      exact trim_join clean some_ (closed same.symm)
    · have dropped : path.toList.drop (trimTrailingSlash path.toList).length = ['/'] := by
        generalize trimTrailingSlash path.toList = kept at longer
        rw [longer, List.drop_left]
      rw [dropped, trimTrailingSlash, if_pos, List.dropLast_concat]
      refine ⟨?_, List.getLast?_concat⟩
      rw [List.length_append, List.length_cons, List.length_singleton]
      omega
  rw [trimmed, requestParts, if_neg, List.drop_one, List.tail_cons, split]
  intro root
  exact long (List.cons.inj root).2

/-! Segments against parts -/

theorem zip_set {A B : Type} {as : List A} {bs : List B} {before after : List (A × B)} {a : A}
    {b c : B} (split : as.zip bs = before ++ (a, b) :: after) :
    as.zip (bs.set before.length c) = before ++ (a, c) :: after := by
  induction before generalizing as bs with
  | nil =>
    cases as with
    | nil => cases split
    | cons x as =>
      cases bs with
      | nil => cases split
      | cons y bs =>
        rw [List.zip_cons_cons, List.nil_append, List.cons.injEq, Prod.mk.injEq] at split
        obtain ⟨⟨rfl, rfl⟩, rfl⟩ := split
        rfl
  | cons pair before ih =>
    cases as with
    | nil => cases split
    | cons x as =>
      cases bs with
      | nil => cases split
      | cons y bs =>
        rw [List.zip_cons_cons, List.cons_append, List.cons.injEq] at split
        rw [List.length_cons, List.set_cons_succ, List.zip_cons_cons, ih split.2, split.1]
        rfl

theorem getElem_of_zip {A B : Type} {as : List A} {bs : List B} {before after : List (A × B)}
    {a : A} {b : B} (split : as.zip bs = before ++ (a, b) :: after) :
    bs[before.length]? = some b := by
  have here : (as.zip bs)[before.length]? = some (a, b) := by
    rw [split, List.getElem?_append_right (Nat.le_refl _), Nat.sub_self]
    rfl
  exact (List.getElem?_zip_eq_some.mp here).2

/-- Plain segments match the parts they stand at where these are full and spelled. -/
theorem matchSegments_isSome {segs : List Segment} {parts : List (List Char)}
    (plain : ∀ seg ∈ segs, seg.Plain) : (matchSegments segs parts).isSome = true ↔
      ∀ pair ∈ segs.zip parts, pair.2 ≠ [] ∧ Spelled pair := by
  induction segs generalizing parts with
  | nil => simp [matchSegments]
  | cons seg segs ih =>
    cases parts with
    | nil => simp [matchSegments]
    | cons part parts =>
      have later := @ih parts (fun s member => plain s (List.mem_cons_of_mem _ member))
      rw [List.zip_cons_cons, List.forall_mem_cons, ← later]
      by_cases empty : part = []
      · simp [matchSegments, empty]
      · cases seg with
        | tail name => exact (plain _ List.mem_cons_self).elim
        | param name => simp [matchSegments, empty, Spelled]
        | literal text =>
          by_cases same : text.toList = part
          · simp [matchSegments, same, empty, Spelled]
          · simp [matchSegments, same, Spelled]

theorem zip_concat {A B : Type} {as : List A} {a : A} {bs : List B} {pair : A × B}
    (member : pair ∈ (as ++ [a]).zip bs) : pair ∈ as.zip bs ∨ pair.1 = a := by
  induction as generalizing bs with
  | nil =>
    cases bs with
    | nil => cases member
    | cons b bs =>
      right
      rw [List.nil_append, List.zip_cons_cons, List.zip_nil_left, List.mem_singleton] at member
      rw [member]
  | cons x as ih =>
    cases bs with
    | nil => cases member
    | cons b bs =>
      rw [List.cons_append, List.zip_cons_cons, List.mem_cons] at member
      rw [List.zip_cons_cons, List.mem_cons]
      rcases member with here | later
      · exact .inl (.inl here)
      · rcases ih later with earlier | last
        · exact .inl (.inr earlier)
        · exact .inr last

theorem head_of_trim {path : List Char} (slash : (trimTrailingSlash path).head? = some '/') :
    path.head? = some '/' := by
  unfold trimTrailingSlash at slash
  split at slash
  · rename_i long
    cases path with
    | nil => cases slash
    | cons c rest =>
      have nonempty : rest ≠ [] := by
        rintro rfl
        exact absurd long.1 (by simp)
      rw [List.dropLast_cons_of_ne_nil nonempty] at slash
      exact slash
  · exact slash

theorem replaceSegment_slash (path : String) (i : Nat) (text : String) :
    (replaceSegment path i text).toList.head? = some '/' := by
  rw [replaceSegment, pathOf, String.toList_append, String.toList_ofList]
  rfl

/-! What a report says -/

section Reports
variable {raw path : String} {p : Pattern} (parsed : Pattern.parse raw = .ok p)
include parsed

/-- A path that a pattern matches has no empty segment at a parameter. -/
theorem filled_of_match (matched : (p.matchPath path).isSome = true) : ParamsFilled path p := by
  obtain ⟨captures, found⟩ := Option.isSome_iff_exists.mp matched
  have plain := leading_plain parsed
  cases tailed : p.hasTail with
  | false =>
    rw [Pattern.leading, tailed, if_neg Bool.false_ne_true] at plain
    obtain ⟨_, inner⟩ := match_specific tailed found
    have each := (matchSegments_isSome plain).mp (by rw [inner]; rfl)
    intro name part member
    exact (each _ member).1
  | true =>
    rw [Pattern.leading, tailed, if_pos rfl] at plain
    obtain ⟨_, _, inner⟩ := match_backstop tailed found
    have each := (matchSegments_isSome plain).mp (by rw [inner]; rfl)
    obtain ⟨last, ends⟩ := (hasTail_iff p).mp tailed
    intro name part member
    rw [← List.dropLast_append_getLast? _ ends] at member
    rcases zip_concat member with early | atEnd
    · exact (each _ early).1
    · cases atEnd

/-- A difference in one literal can be mended when no parameter is left without a value. -/
theorem prefixSegmentDiff_some {diff : Nat × String × String}
    (found : prefixSegmentDiff p path = some diff) :
    (requestParts (trimTrailingSlash path.toList))[diff.1]? = some diff.2.2.toList ∧
      ((p.matchPath (replaceSegment path diff.1 diff.2.1)).isSome = true ↔
        ParamsFilled path p) := by
  have plain := leading_plain parsed
  unfold prefixSegmentDiff at found
  simp only at found
  split at found
  · cases found
  · rename_i tailed
    have noTail : p.hasTail = false := by simpa using tailed
    rw [Pattern.leading, noTail, if_neg Bool.false_ne_true] at plain
    split at found
    · cases found
    · rename_i inner
      split at found
      · cases found
      · rename_i level
        have slash := head_of_trim (by simpa using inner)
        obtain ⟨before, after, split, index, apart, spelled⟩ := diffSegments_none found
        have here := getElem_of_zip split
        have expected : (Segment.literal diff.2.1).Plain := by
          apply plain
          have among : (Segment.literal diff.2.1, diff.2.2.toList) ∈ p.segments.zip
              (requestParts (trimTrailingSlash path.toList)) := by
            rw [split]
            simp
          exact (List.of_mem_zip among).1
        rw [Nat.zero_add] at index
        rw [index]
        refine ⟨here, ?_⟩
        obtain ⟨inside, _⟩ := List.getElem?_eq_some_iff.mp here
        have parts := requestParts_replaceSegment slash inside expected.1 expected.2
        have length : p.segments.length = (requestParts (trimTrailingSlash
            (replaceSegment path before.length diff.2.1).toList)).length := by
          rw [parts, List.length_set]
          exact (not_not.mp level).symm
        rw [matchPath_specific noTail (replaceSegment_slash _ _ _), if_pos length, parts,
          matchSegments_isSome plain, zip_set split]
        constructor
        · intro each name part member
          rw [split] at member
          rcases List.mem_append.mp member with early | later
          · exact (each _ (List.mem_append_left _ early)).1
          · rcases List.mem_cons.mp later with same | later
            · cases same
            · exact (each _ (List.mem_append_right _ (List.mem_cons_of_mem _ later))).1
        · intro filled
          have other : ∀ pair ∈ before ++ after, pair.2 ≠ [] ∧ Spelled pair := by
            rintro ⟨seg, part⟩ member
            have among : (seg, part) ∈
                p.segments.zip (requestParts (trimTrailingSlash path.toList)) := by
              rw [split]
              rcases List.mem_append.mp member with early | later
              · exact List.mem_append_left _ early
              · exact List.mem_append_right _ (List.mem_cons_of_mem _ later)
            have spelt := spelled _ member
            refine ⟨?_, spelt⟩
            have whole := plain _ (List.of_mem_zip among).1
            cases seg with
            | tail name => exact whole.elim
            | param name => exact filled name part among
            | literal text =>
              have same : text.toList = part := spelt
              exact same ▸ whole.1
          intro pair member
          rcases List.mem_append.mp member with early | later
          · exact other _ (List.mem_append_left _ early)
          · rcases List.mem_cons.mp later with rfl | later
            · exact ⟨expected.1, rfl⟩
            · exact other _ (List.mem_append_right _ later)

end Reports

/-- Where dispatch finds nothing, no route of the group whose pattern matches serves the method. -/
theorem rejected_of_unmatched {routes : List Route} {group : Option String} {method path : String}
    (unmatched : RouteTable.findMatchFiltered routes group method path = none) {route : Route}
    (row : route ∈ routes) (home : group.any (fun g => route.groupName ≠ g) = false) {p : Pattern}
    (parsed : Pattern.parse route.path = .ok p) (matched : (p.matchPath path).isSome = true) :
    methodsMatch route.methods method = false := by
  by_contra serves
  rw [Bool.not_eq_false] at serves
  obtain ⟨captures, found⟩ := Option.isSome_iff_exists.mp matched
  have offered : RouteTable.offer group method path route = some
      (if p.hasTail then .reserve p.segments.length ⟨route, p.raw, captures⟩
        else .decisive ⟨route, p.raw, captures⟩) := by
    unfold RouteTable.offer RouteTable.matchRoute
    rw [home, if_neg Bool.false_ne_true]
    simp only [parsed, serves, not_true_eq_false, if_false, found, Option.map_some]
  have standing := List.mem_filterMap.mpr ⟨route, row, offered⟩
  exact Offer.choose_some (.inl (List.ne_nil_of_mem standing)) unmatched

/-- A near miss is actionable exactly when no parameter of the route it names stands at an empty
    segment of the path: those of method mismatches always are. -/
theorem near_miss_actionable_iff {routes : List Route} {group : Option String}
    {method path : String}
    (unmatched : RouteTable.findMatchFiltered routes group method path = none) {miss : NearMiss}
    (reported : miss ∈ computeNearMissesFiltered routes group method path) :
    miss.route ∈ routes ∧ ∃ pattern, Pattern.parse miss.route.path = .ok pattern ∧
      (miss.Actionable method path ↔ ParamsFilled path pattern) := by
  obtain ⟨route, row, found⟩ := List.mem_filterMap.mp (List.mem_of_mem_take reported)
  unfold nearMiss at found
  split at found
  · cases found
  · rename_i home
    cases parsed : Pattern.parse route.path with
    | error e => simp [parsed] at found
    | ok p =>
      simp only [parsed] at found
      split at found
      · rename_i matched
        obtain rfl := Option.some.inj found
        have rejects := rejected_of_unmatched unmatched row (by simpa using home) parsed matched
        exact ⟨row, p, parsed, iff_of_true ⟨p, parsed, rfl, rfl, matched, rejects⟩
          (filled_of_match parsed matched)⟩
      · obtain ⟨diff, differs, rfl⟩ := Option.map_eq_some_iff.mp found
        obtain ⟨here, mended⟩ := prefixSegmentDiff_some parsed differs
        refine ⟨row, p, parsed, ?_⟩
        rw [← mended]
        constructor
        · rintro ⟨q, same, _, mends⟩
          obtain rfl := Except.ok.inj (parsed.symm.trans same)
          exact mends
        · intro mends
          exact ⟨p, parsed, here, mends⟩

def Sample.charging : Route :=
  ⟨"r", "g", "shop", 1, ["POST"], "/users/{id}/charge", "wasm", "1", [], none, 0, "ann", 0, none⟩

theorem near_miss_actionable_iff_charges :
    (⟨Sample.charging, .prefixMatch 2 "charge" "charges"⟩ : NearMiss).Actionable "POST"
      "/users/7/charges" := by
  have unmatched : RouteTable.findMatchFiltered [Sample.charging] (some "shop") "POST"
      "/users/7/charges" = none := by
    decide +kernel
  have reported : ⟨Sample.charging, .prefixMatch 2 "charge" "charges"⟩ ∈
      computeNearMissesFiltered [Sample.charging] (some "shop") "POST" "/users/7/charges" := by
    decide +kernel
  obtain ⟨_, p, parsed, exactly⟩ := near_miss_actionable_iff unmatched reported
  apply exactly.mpr
  have shape : Pattern.parse Sample.charging.path =
      .ok ⟨"/users/{id}/charge", [.literal "users", .param "id", .literal "charge"]⟩ := by
    decide +kernel
  obtain rfl := Except.ok.inj (shape.symm.trans parsed)
  have parts : requestParts (trimTrailingSlash "/users/7/charges".toList) =
      ["users".toList, "7".toList, "charges".toList] := by
    decide +kernel
  intro name part member
  rw [parts] at member
  simp at member
  simp [member]

/-- A path with an empty segment for the parameter: no text at the named segment makes the
    pattern match it. -/
theorem near_miss_misleads :
    RouteTable.findMatchFiltered [Sample.charging] (some "shop") "POST" "/users//charges" = none ∧
      computeNearMissesFiltered [Sample.charging] (some "shop") "POST" "/users//charges" =
        [⟨Sample.charging, .prefixMatch 2 "charge" "charges"⟩] ∧
      ¬ (⟨Sample.charging, .prefixMatch 2 "charge" "charges"⟩ : NearMiss).Actionable "POST"
        "/users//charges" := by
  refine ⟨by decide +kernel, by decide +kernel, ?_⟩
  rintro ⟨p, parsed, _, mends⟩
  have shape : Pattern.parse Sample.charging.path =
      .ok ⟨"/users/{id}/charge", [.literal "users", .param "id", .literal "charge"]⟩ := by
    decide +kernel
  obtain rfl := Except.ok.inj (shape.symm.trans parsed)
  revert mends
  decide +kernel

end WireMirage
