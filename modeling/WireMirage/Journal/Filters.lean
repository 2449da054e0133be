import WireMirage.Journal.Operations

/-!
The filters of the journal: how the parameters of a query are read, and which records
they let pass.
-/
namespace WireMirage

/-! Globs -/

/-- What follows the first place where a part occurs in a text. -/
def afterFirst (part : List Char) : List Char → Option (List Char)
  | [] => if part = [] then some [] else none
  | c :: rest =>
    if part.isPrefixOf (c :: rest) then some ((c :: rest).drop part.length)
    else afterFirst part rest

/-- The first part is anchored at the start and the last one at the end. -/
def globLoop (first : Bool) : List (List Char) → List Char → Bool
  | [], _ => true
  | part :: rest, target =>
    if part = [] then globLoop false rest target
    else if first then
      if part.isPrefixOf target then globLoop false rest (target.drop part.length) else false
    else if rest = [] then part.isSuffixOf target
    else match afterFirst part target with
      | some later => globLoop false rest later
      | none => false

def globMatch (pattern target : String) : Bool :=
  if '*' ∉ pattern.toList then pattern == target
  else globLoop true (pattern.toList.splitOn '*') target.toList

/-! Reading the parameters -/

/-- Digits with an optional plus sign, below a bound. -/
def parseUnsigned (bound : Nat) (text : List Char) : Option Nat :=
  let digits : List Char := match text with
    | '+' :: rest => rest
    | _ => text
  let value : Nat := digits.foldl (fun n c => n * 10 + (c.toNat - '0'.toNat)) 0
  if digits ≠ [] ∧ digits.all Char.isDigit ∧ value < bound then some value else none

inductive FilterParseError where
  | badSlug (slug : String)
  | badRouteNumber (number : String)
  | badStatus (status : String)
  | badMethod (method : String)
  | badSince (value : String)
  deriving DecidableEq, Repr

structure RouteSlug where
  groupRef : String
  number : Nat
  deriving DecidableEq, Repr

def rsplitOnce (c : Char) (text : List Char) : Option (List Char × List Char) :=
  if c ∈ text then
    some ((text.reverse.dropWhile (· ≠ c)).tail.reverse, (text.reverse.takeWhile (· ≠ c)).reverse)
  else none

def RouteSlug.parse (slug : String) : Except FilterParseError RouteSlug :=
  match rsplitOnce '/' slug.toList with
  | none => .error (.badSlug slug)
  | some (group, num) =>
    if group = [] then .error (.badSlug slug)
    else match parseUnsigned u32Size num with
      | none => .error (.badRouteNumber (String.ofList num))
      | some number => .ok ⟨String.ofList group, number⟩

inductive StatusFilter where
  | twoXx
  | threeXx
  | fourXx
  | fiveXx
  | exact (code : Nat)
  deriving DecidableEq, Repr

def StatusFilter.parse (text : String) : Except FilterParseError StatusFilter :=
  if text = "2xx" ∨ text = "2XX" then .ok .twoXx
  else if text = "3xx" ∨ text = "3XX" then .ok .threeXx
  else if text = "4xx" ∨ text = "4XX" then .ok .fourXx
  else if text = "5xx" ∨ text = "5XX" then .ok .fiveXx
  else match (parseUnsigned 65536 text.toList).filter (fun c => 100 ≤ c ∧ c ≤ 599) with
    | some code => .ok (.exact code)
    | none => .error (.badStatus text)

def StatusFilter.matches (status : Nat) : StatusFilter → Bool
  | .twoXx => 200 ≤ status && status ≤ 299
  | .threeXx => 300 ≤ status && status ≤ 399
  | .fourXx => 400 ≤ status && status ≤ 499
  | .fiveXx => 500 ≤ status && status ≤ 599
  | .exact code => code == status

def validateMethod (raw : String) : Except FilterParseError String :=
  if validMethod raw then .ok raw else .error (.badMethod raw)

/-! Matching -/

structure JournalFilter where
  group : Option String := none
  route : Option RouteSlug := none
  method : Option String := none
  pathPattern : Option String := none
  status : Option StatusFilter := none
  since : Option Time := none
  until_ : Option Time := none
  deriving DecidableEq, Repr

def namesGroup (reference : String) (r : JournalRecord) : Bool :=
  r.groupName == reference || r.groupId == reference

def JournalFilter.matchesHandled (f : JournalFilter) (r : JournalRecord) : Bool :=
  f.group.all (fun group => namesGroup group r) &&
  f.route.all (fun route => namesGroup route.groupRef r && r.routeNumber == route.number) &&
  f.method.all (fun method => eqIgnoreAsciiCase method.toList r.request.method.toList) &&
  f.pathPattern.all (fun pat => globMatch pat r.matchedPattern) &&
  f.status.all (fun status => status.matches r.response.status) &&
  f.since.all (fun since => ¬ r.createdAt < since) &&
  f.until_.all (fun til => ¬ til < r.createdAt)

end WireMirage
