import WireMirage.Library.Multimap
import WireMirage.Records
import WireMirage.Pattern

/-!
The headers that a handler sets on its response: which of them are sent, what is
sent of them, and which are dropped.
-/
namespace WireMirage
open Multimap BoundedMultimap

/-- What the server takes of names and values of headers, and of maps of them: names are
    parsed into lower case, and no map is granted more than 32768 entries. -/
class HttpTypes (Map : Type) extends BoundedMultimap Map String String where
  parseName : String → Option String
  acceptsValue : String → Bool
  lowered : ∀ text name, parseName text = some name → name.toList = toAsciiLowercase text.toList
  capacity_le : capacity ≤ 32768

def reservedNames : List String := ["content-length", "transfer-encoding", "connection"]

def reservedResponseHeader (name : String) : Bool := reservedNames.contains name

def sanitizeHeaderText (value : String) : String :=
  String.ofList (value.toList.map
    (fun c => if c = '\t' ∨ (32 ≤ c.toNat ∧ c.toNat ≠ 127) then c else ' '))

structure FilteredHeaders (Map : Type) where
  wire : Map
  sent : List (String × String)
  dropped : List String

section Filtering
variable {Map : Type} [HttpTypes Map]

def FilteredHeaders.drop (f : FilteredHeaders Map) (name : String) : FilteredHeaders Map :=
  { f with dropped := f.dropped ++ [name] }

def FilteredHeaders.send (f : FilteredHeaders Map) (name value : String) :
    Option (FilteredHeaders Map) :=
  (append f.wire name value).map
    (fun wire => { f with wire := wire, sent := f.sent ++ [(name, value)] })

def filterHandlerHeader (f : FilteredHeaders Map) (header : String × String) :
    Option (FilteredHeaders Map) :=
  match HttpTypes.parseName Map header.1 with
  | none => some (f.drop header.1)
  | some name =>
    if reservedResponseHeader name then some (f.drop name)
    else if HttpTypes.acceptsValue Map header.2 then f.send name header.2
    else
      let cleaned := sanitizeHeaderText header.2
      if HttpTypes.acceptsValue Map cleaned then f.send name cleaned else some (f.drop name)

def filterEach : List (String × String) → FilteredHeaders Map → Option (FilteredHeaders Map)
  | [], f => some f
  | header :: rest, f => (filterHandlerHeader f header).bind (filterEach rest)

variable (Map) in
/-- No result stands for a panic of the header map. -/
def filterHandlerHeaders (pairs : List (String × String)) : Option (FilteredHeaders Map) :=
  (withCapacity pairs.length).bind (fun wire => filterEach pairs ⟨wire, [], []⟩)

def applyWireHeaders (headers wire : Map) : Option Map := appendAll (iter wire) headers

end Filtering

/-! What becomes of each header -/

inductive Verdict where
  | sent (name value : String)
  | dropped (name : String)
  deriving DecidableEq, Repr

def Verdict.kept : Verdict → Option (String × String)
  | .sent name value => some (name, value)
  | .dropped _ => none

def Verdict.lost : Verdict → Option String
  | .sent _ _ => none
  | .dropped name => some name

/-- A header is sent under its name in lower case with its value, cleaned if need be, or is
    dropped by its name. -/
def Verdict.On (header : String × String) : Verdict → Prop
  | .sent name value => name.toList = toAsciiLowercase header.1.toList ∧
      (value = header.2 ∨ value = sanitizeHeaderText header.2)
  | .dropped name => name = header.1 ∨ name.toList = toAsciiLowercase header.1.toList

variable (Map : Type) [HttpTypes Map]

/-- The verdict of the filter, from the header alone. -/
def judge (header : String × String) : Verdict :=
  match HttpTypes.parseName Map header.1 with
  | none => .dropped header.1
  | some name =>
    if reservedResponseHeader name then .dropped name
    else if HttpTypes.acceptsValue Map header.2 then .sent name header.2
    else if HttpTypes.acceptsValue Map (sanitizeHeaderText header.2) then
      .sent name (sanitizeHeaderText header.2)
    else .dropped name

/-- The pairs of a response that are sent, and the names that are dropped. -/
def settled (pairs : List (String × String)) : List (String × String) :=
  (pairs.map (judge Map)).filterMap Verdict.kept

def discarded (pairs : List (String × String)) : List String :=
  (pairs.map (judge Map)).filterMap Verdict.lost

variable {Map}

theorem filterHandlerHeader_judge (f : FilteredHeaders Map) (header : String × String) :
    filterHandlerHeader f header =
      match judge Map header with
      | .sent name value => f.send name value
      | .dropped name => some (f.drop name) := by
  unfold filterHandlerHeader judge
  cases HttpTypes.parseName Map header.1 with
  | none => rfl
  | some name =>
    simp only
    split
    · rfl
    · split
      · rfl
      · split <;> rfl

theorem judge_on (header : String × String) : (judge Map header).On header := by
  unfold judge
  cases parsed : HttpTypes.parseName Map header.1 with
  | none => exact .inl rfl
  | some name =>
    have lower := HttpTypes.lowered header.1 name parsed
    simp only
    split
    · exact .inr lower
    · split
      · exact ⟨lower, .inl rfl⟩
      · split
        · exact ⟨lower, .inr rfl⟩
        · exact .inr lower

/-- A name that is sent is in lower case and not reserved. -/
theorem judge_sent {header : String × String} {name value : String}
    (verdict : judge Map header = .sent name value) :
    toAsciiLowercase name.toList = name.toList ∧ reservedResponseHeader name = false := by
  have on : (judge Map header).On header := judge_on header
  rw [verdict] at on
  refine ⟨by rw [on.1, lowercase_lowercase], ?_⟩
  unfold judge at verdict
  cases parsed : HttpTypes.parseName Map header.1 with
  | none =>
    rw [parsed] at verdict
    cases verdict
  | some known =>
    rw [parsed] at verdict
    simp only at verdict
    split at verdict
    · cases verdict
    · rename_i free
      repeat' split at verdict
      all_goals cases verdict
      all_goals simpa using free

/-! The loop over the headers -/

/-- Nothing is lost of the headers gone through: each is sent or dropped, in order, the map has
    for each name what is sent of it, and no reserved name is among them. -/
structure Lossless (pairs : List (String × String)) (f : FilteredHeaders Map) : Prop where
  sorted : ∃ verdicts, List.Forall₂ Verdict.On pairs verdicts ∧
    f.sent = verdicts.filterMap Verdict.kept ∧ f.dropped = verdicts.filterMap Verdict.lost
  wire : ∀ name, valuesOf name (iter f.wire) = valuesOf name f.sent
  unreserved : ∀ pair ∈ f.sent, ∀ reserved ∈ reservedNames,
    toAsciiLowercase pair.1.toList ≠ reserved.toList

/-- What the loop has done after some of the headers. -/
structure Filtered (pairs : List (String × String)) (f : FilteredHeaders Map) : Prop where
  sent : f.sent = settled Map pairs
  dropped : f.dropped = discarded Map pairs
  wire : ∀ name, valuesOf name (iter f.wire) = valuesOf name f.sent

theorem settled_append (pairs others : List (String × String)) :
    settled Map (pairs ++ others) = settled Map pairs ++ settled Map others := by
  simp [settled]

theorem discarded_append (pairs others : List (String × String)) :
    discarded Map (pairs ++ others) = discarded Map pairs ++ discarded Map others := by
  simp [discarded]

theorem settled_length_le (pairs : List (String × String)) :
    (settled Map pairs).length ≤ pairs.length := by
  have fewer := List.length_filterMap_le Verdict.kept (pairs.map (judge Map))
  rwa [List.length_map] at fewer

theorem filtered_step {pairs : List (String × String)} {f f' : FilteredHeaders Map}
    {header : String × String} (filtered : Filtered pairs f)
    (next : filterHandlerHeader f header = some f') : Filtered (pairs ++ [header]) f' := by
  rw [filterHandlerHeader_judge] at next
  cases verdict : judge Map header with
  | dropped name =>
    rw [verdict] at next
    cases next
    refine ⟨?_, ?_, filtered.wire⟩
    · rw [settled_append]
      simp [FilteredHeaders.drop, filtered.sent, settled, verdict, Verdict.kept]
    · rw [discarded_append]
      simp [FilteredHeaders.drop, filtered.dropped, discarded, verdict, Verdict.lost]
  | sent name value =>
    rw [verdict] at next
    obtain ⟨wire, added, rfl⟩ := Option.map_eq_some_iff.mp next
    refine ⟨?_, ?_, ?_⟩
    · rw [settled_append]
      simp [filtered.sent, settled, verdict, Verdict.kept]
    · rw [discarded_append]
      simp [filtered.dropped, discarded, verdict, Verdict.lost]
    · intro other
      rw [appended f.wire name value wire added, filtered.wire, valuesOf_append]

/-- As long as fewer headers than the map can hold are gone through, the next does not panic. -/
theorem filter_next {pairs : List (String × String)} {f : FilteredHeaders Map}
    (filtered : Filtered pairs f) (few : pairs.length < capacity Map)
    (header : String × String) : ∃ f', filterHandlerHeader f header = some f' := by
  rw [filterHandlerHeader_judge]
  cases judge Map header with
  | dropped name => exact ⟨_, rfl⟩
  | sent name value =>
    have held := names_length_le filtered.wire
    rw [filtered.sent] at held
    have short : (settled Map pairs).length ≤ pairs.length := settled_length_le pairs
    have room := room f.wire name value (by omega)
    obtain ⟨wire, added⟩ := Option.isSome_iff_exists.mp room
    exact ⟨_, by simp only [FilteredHeaders.send, added, Option.map_some]; rfl⟩

theorem filterEach_filtered {rest pairs : List (String × String)} {f f' : FilteredHeaders Map}
    (filtered : Filtered pairs f) (done : filterEach rest f = some f') :
    Filtered (pairs ++ rest) f' := by
  induction rest generalizing pairs f with
  | nil =>
    cases done
    rwa [List.append_nil]
  | cons header rest ih =>
    obtain ⟨g, next, later⟩ := Option.bind_eq_some_iff.mp done
    have shifted := ih (filtered_step filtered next) later
    rwa [List.append_assoc] at shifted

theorem filterEach_total {rest pairs : List (String × String)} {f : FilteredHeaders Map}
    (filtered : Filtered pairs f) (few : pairs.length + rest.length ≤ capacity Map) :
    ∃ f', filterEach rest f = some f' := by
  induction rest generalizing pairs f with
  | nil => exact ⟨f, rfl⟩
  | cons header rest ih =>
    rw [List.length_cons] at few
    obtain ⟨g, next⟩ := filter_next filtered (by omega) header
    obtain ⟨f', later⟩ := ih (filtered_step filtered next) (by simp; omega)
    exact ⟨f', by rw [filterEach, next]; exact later⟩

theorem filtered_start {wire : Map} {n : Nat} (made : withCapacity n = some wire) :
    Filtered [] (⟨wire, [], []⟩ : FilteredHeaders Map) where
  sent := rfl
  dropped := rfl
  wire := by
    intro name
    rw [empty n wire made]

theorem filterHandlerHeaders_filtered {pairs : List (String × String)} {f : FilteredHeaders Map}
    (done : filterHandlerHeaders Map pairs = some f) : Filtered pairs f := by
  obtain ⟨wire, made, loop⟩ := Option.bind_eq_some_iff.mp done
  exact filterEach_filtered (filtered_start made) loop

theorem filterHandlerHeaders_total {pairs : List (String × String)}
    (few : pairs.length ≤ capacity Map) : ∃ f, filterHandlerHeaders Map pairs = some f := by
  obtain ⟨wire, made⟩ := Option.isSome_iff_exists.mp ((granted pairs.length).mpr few)
  obtain ⟨f, loop⟩ := filterEach_total (filtered_start made) (by simpa using few)
  exact ⟨f, by rw [filterHandlerHeaders, made]; exact loop⟩

theorem settled_sent {pairs : List (String × String)} {pair : String × String}
    (member : pair ∈ settled Map pairs) :
    toAsciiLowercase pair.1.toList = pair.1.toList ∧ reservedResponseHeader pair.1 = false := by
  obtain ⟨verdict, among, keeps⟩ := List.mem_filterMap.mp member
  obtain ⟨header, _, rfl⟩ := List.mem_map.mp among
  cases verdict : judge Map header with
  | dropped name => simp [verdict, Verdict.kept] at keeps
  | sent name value =>
    simp only [verdict, Verdict.kept, Option.some.injEq] at keeps
    subst keeps
    exact judge_sent verdict

theorem lossless_of_filtered {pairs : List (String × String)} {f : FilteredHeaders Map}
    (filtered : Filtered pairs f) : Lossless pairs f where
  sorted := by
    refine ⟨pairs.map (judge Map), ?_, filtered.sent, filtered.dropped⟩
    rw [List.forall₂_map_right_iff, List.forall₂_same]
    exact fun header _ => judge_on header
  wire := filtered.wire
  unreserved := by
    intro pair member reserved listed same
    rw [filtered.sent] at member
    obtain ⟨lower, free⟩ := settled_sent member
    rw [lower] at same
    have named := String.toList_injective same
    simp [reservedResponseHeader, named, listed] at free

/-- The filter goes through exactly the lists that a header map is granted the capacity for, and
    loses nothing of them. -/
theorem filter_handler_headers_lossless (pairs : List (String × String)) :
    (∃ f, filterHandlerHeaders Map pairs = some f ∧ Lossless pairs f) ↔
      pairs.length ≤ capacity Map := by
  constructor
  · rintro ⟨f, done, _⟩
    obtain ⟨wire, made, _⟩ := Option.bind_eq_some_iff.mp done
    exact (granted pairs.length).mp (by rw [made]; rfl)
  · intro few
    obtain ⟨f, done⟩ := filterHandlerHeaders_total few
    exact ⟨f, done, lossless_of_filtered (filterHandlerHeaders_filtered done)⟩

abbrev Sample.HeaderMap := Listed 24576 String String

instance : HttpTypes Sample.HeaderMap where
  parseName text :=
    if text ≠ "" ∧ text.toList.all nameChar then
      some (String.ofList (toAsciiLowercase text.toList))
    else none
  acceptsValue value := value.toList.all (fun c => c = '\t' || (32 ≤ c.toNat && c.toNat ≠ 127))
  lowered := by
    intro text name parsed
    split at parsed
    · cases parsed
      simp
    · cases parsed
  capacity_le := by decide

theorem long_header_list_panics :
    filterHandlerHeaders Sample.HeaderMap (List.replicate 24577 ("set-cookie", "a=b")) = none := by
  cases done : filterHandlerHeaders Sample.HeaderMap
      (List.replicate 24577 ("set-cookie", "a=b")) with
  | none => rfl
  | some f =>
    obtain ⟨wire, made, _⟩ := Option.bind_eq_some_iff.mp done
    have few := (granted _).mp (Option.isSome_iff_exists.mpr ⟨wire, made⟩)
    have granted : capacity Sample.HeaderMap = 24576 := rfl
    rw [List.length_replicate] at few
    omega

end WireMirage
