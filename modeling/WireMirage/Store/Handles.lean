import Mathlib.Data.Nat.Digits.Defs
import WireMirage.Library.Glob
import WireMirage.Records

/-!
The buckets a handler holds: a key of the handler is a key of the backing store behind the
prefix of its bucket, and values are the bytes the handler wrote.
-/
namespace WireMirage

/-! Text and bytes -/

def utf8Bytes (s : String) : Bytes := s.toUTF8.data.toList

/-- `from_utf8`. -/
def utf8Text (b : Bytes) : Option String := String.fromUTF8? b.toByteArray

theorem bytes_of_text {b : Bytes} {s : String} (valid : utf8Text b = some s) :
    utf8Bytes s = b := by
  unfold utf8Text String.fromUTF8? at valid
  split at valid
  · cases valid
    exact List.toList_data_toByteArray
  · cases valid

theorem length_utf8Bytes (s : String) : (utf8Bytes s).length = s.utf8ByteSize := by
  unfold utf8Bytes
  simp

theorem utf8Bytes_eq (s : String) : utf8Bytes s = s.toList.flatMap String.utf8EncodeChar := by
  have encoded : s.toByteArray = (s.toList.flatMap String.utf8EncodeChar).toByteArray :=
    String.utf8Encode_toList.symm
  show s.toByteArray.data.toList = _
  rw [encoded, List.toList_data_toByteArray]

theorem utf8Bytes_append (s t : String) : utf8Bytes (s ++ t) = utf8Bytes s ++ utf8Bytes t := by
  simp only [utf8Bytes_eq, String.toList_append, List.flatMap_append]

/-- `starts_with`. -/
def startsWith (p s : String) : Bool := (utf8Bytes p).isPrefixOf (utf8Bytes s)

def stripKeyPrefix (p s : String) : Option String :=
  if startsWith p s then some (String.ofList (s.toList.drop p.toList.length)) else none

theorem startsWith_iff (p s : String) : startsWith p s = true ↔ ∃ t, s = p ++ t := by
  rw [startsWith, List.isPrefixOf_iff_prefix]
  constructor
  · rintro ⟨t, joined⟩
    have bytes : p.toList.utf8Encode ++ t.toByteArray = s.toList.utf8Encode := by
      rw [String.utf8Encode_toList, String.utf8Encode_toList]
      ext1
      apply Array.toList_inj.mp
      simpa [utf8Bytes] using joined
    obtain ⟨u, whole⟩ := List.isPrefix_of_utf8Encode_append_eq_utf8Encode t.toByteArray bytes
    refine ⟨String.ofList u, String.toList_inj.mp ?_⟩
    rw [String.toList_append, String.toList_ofList, whole]
  · rintro ⟨t, rfl⟩
    rw [utf8Bytes_append]
    exact List.prefix_append _ _

theorem stripKeyPrefix_append (p t : String) : stripKeyPrefix p (p ++ t) = some t := by
  rw [stripKeyPrefix, if_pos ((startsWith_iff p _).mpr ⟨t, rfl⟩), String.toList_append,
    List.drop_left, String.ofList_toList]

theorem append_left_cancel {p s t : String} (same : p ++ s = p ++ t) : s = t := by
  have stripped := stripKeyPrefix_append p s
  rw [same, stripKeyPrefix_append] at stripped
  exact (Option.some.inj stripped).symm

/-- No text begins with both. -/
def PrefixesApart (p q : String) : Prop := ∀ a b, p ++ a ≠ q ++ b

/-- Two texts of which neither begins with the other. -/
def Differ (x y : String) : Bool := !x.toList.isPrefixOf y.toList && !y.toList.isPrefixOf x.toList

theorem apart_of_differ {x y : String} (differ : Differ x y) : PrefixesApart x y := by
  intro a b joined
  have chars := congrArg String.toList joined
  rw [String.toList_append, String.toList_append] at chars
  have whole : x.toList <+: y.toList ++ b.toList := ⟨a.toList, chars⟩
  simp only [Differ, Bool.and_eq_true, Bool.not_eq_true', ← Bool.not_eq_true,
    List.isPrefixOf_iff_prefix] at differ
  rcases List.prefix_or_prefix_of_prefix whole (List.prefix_append _ _) with before | after
  · exact differ.1 before
  · exact differ.2 after

/-! Decimal numbers -/

def decimalDigits (l : List Char) : Option Nat :=
  if l ≠ [] ∧ l.all Char.isDigit then some (l.foldl (fun n c => n * 10 + (c.toNat - 48)) 0)
  else none

def inI64 (n : Int) : Option Int := if i64Min ≤ n ∧ n ≤ i64Max then some n else none

/-- `parse::<i64>`: a sign of either kind, then digits. -/
def parseI64 (l : List Char) : Option Int :=
  match l with
  | '-' :: rest => (decimalDigits rest).bind (fun n => inI64 (-n))
  | '+' :: rest => (decimalDigits rest).bind (fun n => inI64 n)
  | l => (decimalDigits l).bind (fun n => inI64 n)

/-- The Valkey server reads a number only in the form it writes one. -/
def canonicalI64 (l : List Char) : Option Int :=
  match l with
  | ['0'] => some 0
  | '-' :: '0' :: _ => none
  | '0' :: _ => none
  | '+' :: _ => none
  | l => parseI64 l

instance : Decimal Bytes where
  parse b := (utf8Text b).bind (fun s => parseI64 s.toList)
  canonical b := (utf8Text b).bind (fun s => canonicalI64 s.toList)
  ofInt n := utf8Bytes (toString n)

theorem utf8ByteSize_le (s : String) : s.utf8ByteSize ≤ 4 * s.length := by
  have each : ∀ l : List Char, (l.flatMap String.utf8EncodeChar).length ≤ 4 * l.length := by
    intro l
    induction l with
    | nil => simp
    | cons c l ih =>
      have width := c.utf8Size_le_four
      simp only [List.flatMap_cons, List.length_append, String.length_utf8EncodeChar,
        List.length_cons]
      omega
  have whole := each s.toList
  rw [← utf8Bytes_eq, length_utf8Bytes] at whole
  exact whole

theorem length_ofInt {n : Int} (low : i64Min ≤ n) (high : n ≤ i64Max) :
    (Decimal.ofInt n : Bytes).length ≤ 80 := by
  have digits : ∀ m : Nat, m < 10 ^ 19 → m.repr.length ≤ 19 := by
    intro m small
    exact Nat.repr_length m 19 (by omega) small
  unfold i64Min at low
  unfold i64Max at high
  have text : (toString n).length ≤ 20 := by
    cases n with
    | ofNat m =>
      have short := digits m (by have := Int.ofNat_eq_natCast m; omega)
      show m.repr.length ≤ 20
      omega
    | negSucc m =>
      have short := digits (m + 1) (by omega)
      show ("-" ++ (m + 1).repr).length ≤ 20
      rw [String.length_append]
      have sign : "-".length = 1 := rfl
      omega
  show (utf8Bytes (toString n)).length ≤ 80
  rw [length_utf8Bytes]
  have wide := utf8ByteSize_le (toString n)
  omega

/-! Buckets -/

/-- The backing store by its full keys. -/
abbrev Backing := Storage String Bytes

def routeBucketUnder (root groupUlid routeUlid : String) : String :=
  root ++ "kv:" ++ groupUlid ++ ":" ++ routeUlid ++ ":"

def groupBucketUnder (root groupUlid : String) : String := root ++ "gkv:" ++ groupUlid ++ ":"

def routeBucket (groupUlid routeUlid : String) : String := routeBucketUnder "" groupUlid routeUlid

def groupBucket (groupUlid : String) : String := groupBucketUnder "" groupUlid

def adminBucket : String := ""

def strip (full p : String) : String := (stripKeyPrefix p full).getD full

def restoreUserKey (p : String) : StoreError String → StoreError String
  | .wrongType key actual expected => .wrongType (strip key p) actual expected
  | .notInteger key field => .notInteger (strip key p) field
  | .incrOverflow key field => .incrOverflow (strip key p) field
  | .backend msg => .backend msg

/-- An operation on a key of a bucket. -/
def inBucket {A : Type} (p : String) (op : String → Backing → Storage.Reply String Bytes A)
    (key : String) (s : Backing) : Storage.Reply String Bytes A :=
  ((op (p ++ key) s).1.mapError (restoreUserKey p), (op (p ++ key) s).2)

/-- How a scan of the server reports keys: each at least once, in any order. -/
structure Reporting where
  report : List String → List String
  mem_report : ∀ keys k, k ∈ report keys ↔ k ∈ keys

theorem mem_as_held (keys : List String) (k : String) : k ∈ id keys ↔ k ∈ keys := Iff.rfl

def scanWithPrefix (reporting : Reporting) (full : String) (s : Backing) : List String :=
  match s.backend with
  | .inMemory => s.entries.keys.filter (startsWith full)
  | .valkey =>
    reporting.report (s.entries.keys.filter
      (fun k => Glob.isMatch (utf8Bytes (full ++ "*")) (utf8Bytes k)))

def listKeys (reporting : Reporting) (p : String) (userPrefix : Option String) (s : Backing) :
    List String :=
  (scanWithPrefix reporting (p ++ userPrefix.getD "") s).map (fun k => (stripKeyPrefix p k).getD k)

def deleteWithPrefix (reporting : Reporting) (p userPrefix : String) (s : Backing) :
    Nat × Backing :=
  let keys := listKeys reporting p (some userPrefix) s
  (keys.length, keys.foldl (fun s key => (inBucket p Storage.delete key s).2) s)

/-! The prefixes of buckets -/

def crockford : List Char := "0123456789ABCDEFGHJKMNPQRSTVWXYZ".toList

/-- The text a ULID is written as. -/
def isUlid (s : String) : Bool := s.toList.length = 26 ∧ s.toList.all (fun c => c ∈ crockford)

theorem literal_append {a b : Bytes} (first : Glob.Literal a) (second : Glob.Literal b) :
    Glob.Literal (a ++ b) := by
  intro x member
  rcases List.mem_append.mp member with left | right
  · exact first x left
  · exact second x right

theorem literal_ulid {id : String} (ulid : isUlid id) : Glob.Literal (utf8Bytes id) := by
  have each : crockford.all (fun c => (String.utf8EncodeChar c).all (fun b => b ∉ Glob.special)) =
      true := by decide +kernel
  simp only [List.all_eq_true, decide_eq_true_eq] at each
  simp only [isUlid, List.all_eq_true, decide_eq_true_eq] at ulid
  rw [utf8Bytes_eq]
  intro b member
  obtain ⟨c, inside, encoded⟩ := List.mem_flatMap.mp member
  exact each c (ulid.2 c inside) b encoded

theorem literal_routeBucket {groupUlid routeUlid : String} (group : isUlid groupUlid)
    (route : isUlid routeUlid) : Glob.Literal (utf8Bytes (routeBucket groupUlid routeUlid)) := by
  have kv : Glob.Literal (utf8Bytes ("" ++ "kv:")) := by
    unfold Glob.Literal
    decide +kernel
  have colon : Glob.Literal (utf8Bytes ":") := by
    unfold Glob.Literal
    decide +kernel
  simp only [routeBucket, routeBucketUnder, utf8Bytes_append] at kv ⊢
  exact literal_append (literal_append (literal_append (literal_append kv (literal_ulid group))
    colon) (literal_ulid route)) colon

theorem literal_groupBucket {groupUlid : String} (group : isUlid groupUlid) :
    Glob.Literal (utf8Bytes (groupBucket groupUlid)) := by
  have gkv : Glob.Literal (utf8Bytes ("" ++ "gkv:")) := by
    unfold Glob.Literal
    decide +kernel
  have colon : Glob.Literal (utf8Bytes ":") := by
    unfold Glob.Literal
    decide +kernel
  simp only [groupBucket, groupBucketUnder, utf8Bytes_append] at gkv ⊢
  exact literal_append (literal_append gkv (literal_ulid group)) colon

/-! Scans -/

section Scans
variable {reporting : Reporting} {s : Backing}

theorem mem_keys_iff (s : Backing) (k : String) :
    k ∈ s.entries.keys ↔ ∃ v, s.lookup k = some v := by
  rw [← Option.isSome_iff_exists, ← not_iff_not, ← Storage.lookup_eq_none_iff,
    Option.not_isSome_iff_eq_none]

theorem mem_scanWithPrefix {full : String} (plain : Glob.Literal (utf8Bytes full)) (k : String) :
    k ∈ scanWithPrefix reporting full s ↔ (∃ v, s.lookup k = some v) ∧
      startsWith full k = true := by
  unfold scanWithPrefix
  cases s.backend with
  | inMemory => simp only [List.mem_filter, mem_keys_iff]
  | valkey =>
    have star : utf8Bytes "*" = [42] := by decide +kernel
    simp only [reporting.mem_report, List.mem_filter, mem_keys_iff, utf8Bytes_append, star,
      Glob.isMatch_literal plain, startsWith, List.isPrefixOf_iff_prefix]

/-- The keys of a bucket are those of the store that stand behind its prefix. -/
theorem mem_listKeys {p : String} (plain : Glob.Literal (utf8Bytes p)) (key : String) :
    key ∈ listKeys reporting p none s ↔ ∃ v, s.lookup (p ++ key) = some v := by
  have whole : p ++ (none : Option String).getD "" = p := String.append_empty
  simp only [listKeys, whole, List.mem_map, mem_scanWithPrefix plain]
  constructor
  · rintro ⟨k, ⟨held, starts⟩, rfl⟩
    obtain ⟨t, rfl⟩ := (startsWith_iff p k).mp starts
    rw [stripKeyPrefix_append]
    exact held
  · intro held
    refine ⟨p ++ key, ⟨held, (startsWith_iff p _).mpr ⟨key, rfl⟩⟩, ?_⟩
    rw [stripKeyPrefix_append]
    rfl

end Scans

/-! Handlers -/

/-- A call of a handler on a bucket it holds. -/
inductive HandlerCall where
  | get (key : String)
  | set (key : String) (value : Bytes)
  | delete (key : String)
  | incr (key : String) (delta : Int64)
  | listKeys (userPrefix : Option String)
  | listPush (key : String) (value : Bytes)
  | listPop (key : String)
  | listRange (key : String) (start stop : Int64)
  | listLength (key : String)
  | hashGet (key field : String)
  | hashSet (key field : String) (value : Bytes)
  | hashDelete (key field : String)
  | hashKeys (key : String)
  | setAdd (key member : String)
  | setRemove (key member : String)
  | setContains (key member : String)

namespace HandlerCall

/-- The backing store after a call on the bucket behind a prefix. -/
def after (p : String) (s : Backing) : HandlerCall → Backing
  | get key => (inBucket p Storage.get key s).2
  | set key value => (inBucket p (Storage.set · value) key s).2
  | delete key => (inBucket p Storage.delete key s).2
  | incr key delta => (inBucket p (Storage.incr · delta.toInt) key s).2
  | listKeys _ => s
  | listPush key value => (inBucket p (Storage.listPush · value) key s).2
  | listPop key => (inBucket p Storage.listPop key s).2
  | listRange key start stop => (inBucket p (Storage.listRange · start.toInt stop.toInt) key s).2
  | listLength key => (inBucket p Storage.listLength key s).2
  | hashGet key field => (inBucket p (Storage.hashGet · field) key s).2
  | hashSet key field value => (inBucket p (Storage.hashSet · field value) key s).2
  | hashDelete key field => (inBucket p (Storage.hashDelete · field) key s).2
  | hashKeys key => (inBucket p Storage.hashKeys key s).2
  | setAdd key member => (inBucket p (Storage.setAdd · member) key s).2
  | setRemove key member => (inBucket p (Storage.setRemove · member) key s).2
  | setContains key member => (inBucket p (Storage.setContains · member) key s).2

/-- Every value set is of at most so many bytes. -/
def Sets (bound : Nat) : HandlerCall → Prop
  | set _ value => value.length ≤ bound
  | _ => True

end HandlerCall

/-- Every bytes entry of the store is of at most so many bytes. -/
def Capped (bound : Nat) (s : Backing) : Prop :=
  ∀ k b, s.lookup k = some (.bytes b) → b.length ≤ bound

theorem addInt_fits {s : Backing} {k : String} {field : Option String} {b : Bytes} {delta n : Int}
    (added : s.addInt k field (some b) delta = .ok n) : i64Min ≤ n ∧ n ≤ i64Max := by
  simp only [Storage.addInt] at added
  split at added
  · cases added
  · split at added
    · rename_i fits
      cases added
      exact fits
    · cases added

section Caps
variable {bound : Nat} {s : Backing} (capped : Capped bound s)
include capped

theorem capped_replace (k : String) {v : MemValue Bytes} (e : Option Nat)
    (small : ∀ b, v = .bytes b → b.length ≤ bound) : Capped bound (s.replace k v e) := by
  intro k' b held
  rw [Storage.lookup_replace] at held
  split at held
  · exact small b (Option.some.inj held)
  · exact capped k' b held

theorem capped_write (k : String) {v : MemValue Bytes}
    (small : ∀ b, v = .bytes b → b.length ≤ bound) : Capped bound (s.write k v) :=
  capped_replace capped k (s.armed k) small

theorem capped_erase (k : String) : Capped bound (s.erase k) := by
  intro k' b held
  rw [Storage.lookup_erase] at held
  split at held
  · cases held
  · exact capped k' b held

theorem capped_writeBack (k : String) {v : MemValue Bytes}
    (small : ∀ b, v = .bytes b → b.length ≤ bound) : Capped bound (s.writeBack k v) := by
  unfold Storage.writeBack
  split
  · exact capped_erase capped k
  · exact capped_write capped k small

theorem capped_incr (room : 80 ≤ bound) (k : String) (delta : Int64) :
    Capped bound (s.incr k delta.toInt).2 := by
  have stored : ∀ n : Int, i64Min ≤ n → n ≤ i64Max →
      Capped bound (s.write k (.bytes (Decimal.ofInt n))) := by
    intro n low high
    apply capped_write capped k
    rintro b ⟨⟩
    exact (length_ofInt low high).trans room
  unfold Storage.incr
  split
  · exact stored delta.toInt delta.le_toInt delta.toInt_le
  · unfold Storage.storeSum
    split
    · exact capped
    · rename_i added
      obtain ⟨low, high⟩ := addInt_fits added
      exact stored _ low high
  · exact capped

theorem capped_after (room : 80 ≤ bound) (p : String) {call : HandlerCall}
    (small : call.Sets bound) : Capped bound (call.after p s) := by
  have plain : ∀ v : MemValue Bytes, v.kind ≠ .bytes → ∀ b, v = .bytes b → b.length ≤ bound := by
    rintro v other b rfl
    exact absurd rfl other
  cases call with
  | get key =>
    show Capped bound (s.get (p ++ key)).2
    unfold Storage.get
    split <;> exact capped
  | set key value =>
    apply capped_replace capped
    rintro b ⟨⟩
    exact small
  | delete key => exact capped_erase capped (p ++ key)
  | incr key delta => exact capped_incr capped room (p ++ key) delta
  | listKeys userPrefix => exact capped
  | listPush key value =>
    show Capped bound (s.listPush (p ++ key) value).2
    unfold Storage.listPush
    split
    · exact capped_write capped _ (plain _ (by simp [MemValue.kind]))
    · exact capped_write capped _ (plain _ (by simp [MemValue.kind]))
    · exact capped
  | listPop key =>
    show Capped bound (s.listPop (p ++ key)).2
    unfold Storage.listPop
    split
    · exact capped
    · exact capped_writeBack capped _ (plain _ (by simp [MemValue.kind]))
    · exact capped
  | listRange key start stop =>
    show Capped bound (s.listRange (p ++ key) start.toInt stop.toInt).2
    unfold Storage.listRange
    split
    · exact capped
    · split <;> exact capped
    · exact capped
  | listLength key =>
    show Capped bound (s.listLength (p ++ key)).2
    unfold Storage.listLength
    split <;> exact capped
  | hashGet key field =>
    show Capped bound (s.hashGet (p ++ key) field).2
    unfold Storage.hashGet
    split <;> exact capped
  | hashSet key field value =>
    show Capped bound (s.hashSet (p ++ key) field value).2
    unfold Storage.hashSet
    split
    · exact capped_write capped _ (plain _ (by simp [MemValue.kind]))
    · exact capped_write capped _ (plain _ (by simp [MemValue.kind]))
    · exact capped
  | hashDelete key field =>
    show Capped bound (s.hashDelete (p ++ key) field).2
    unfold Storage.hashDelete
    split
    · exact capped
    · exact capped_writeBack capped _ (plain _ (by simp [MemValue.kind]))
    · exact capped
  | hashKeys key =>
    show Capped bound (s.hashKeys (p ++ key)).2
    unfold Storage.hashKeys
    split <;> exact capped
  | setAdd key member =>
    show Capped bound (s.setAdd (p ++ key) member).2
    unfold Storage.setAdd
    split
    · exact capped_write capped _ (plain _ (by simp [MemValue.kind]))
    · exact capped_write capped _ (plain _ (by simp [MemValue.kind]))
    · exact capped
  | setRemove key member =>
    show Capped bound (s.setRemove (p ++ key) member).2
    unfold Storage.setRemove
    split
    · exact capped
    · exact capped_writeBack capped _ (plain _ (by simp [MemValue.kind]))
    · exact capped
  | setContains key member =>
    show Capped bound (s.setContains (p ++ key) member).2
    unfold Storage.setContains
    split <;> exact capped

end Caps

end WireMirage
