import WireMirage.Library.Base64
import WireMirage.Library.Json
import WireMirage.Store.Handles

/-!
How a byte value crosses a JSON boundary: as text where it is valid UTF-8, as base64
where it is not, and on the way in also as the JSON value whose text it is.
-/
namespace WireMirage

inductive WireBytes where
  | text (s : String)
  | binary (base64 : String)
  | json (value : Json)

namespace WireBytes

/-- A malformed base64 payload is the only failure, named by the payload. -/
def intoBytes : WireBytes → Except String Bytes
  | .text s => .ok (utf8Bytes s)
  | .binary base64 =>
    match Base64.decode base64.toList with
    | none => .error base64
    | some bytes => .ok bytes
  | .json value => .ok (utf8Bytes value.text)

def fromBytes (bytes : Bytes) : WireBytes :=
  match utf8Text bytes with
  | some s => .text s
  | none => .binary (String.ofList (Base64.encode bytes))

def toJson : WireBytes → Json
  | .text s => .str s
  | .binary base64 => .obj [("base64", .str base64)]
  | .json value => .obj [("json", value)]

/-- The first variant that fits, other members aside. -/
def ofJson : Json → Option WireBytes
  | .str s => some (.text s)
  | .obj members =>
    match Json.field "base64" members with
    | some (.str base64) => some (.binary base64)
    | _ => (Json.field "json" members).map .json
  | _ => none

theorem into_from (bytes : Bytes) : (fromBytes bytes).intoBytes = .ok bytes := by
  unfold fromBytes
  split
  · rename_i s valid
    simp only [intoBytes, bytes_of_text valid]
  · simp only [intoBytes, String.toList_ofList, Base64.decode_encode]

theorem of_to_json (v : WireBytes) (stringFirst : ∀ j, v ≠ .json j) : ofJson v.toJson = some v := by
  cases v with
  | text s => rfl
  | binary base64 => rfl
  | json j => exact absurd rfl (stringFirst j)

theorem fromBytes_stringFirst (bytes : Bytes) (j : Json) : fromBytes bytes ≠ .json j := by
  unfold fromBytes
  split <;> nofun

theorem of_from_json (bytes : Bytes) : ofJson (fromBytes bytes).toJson = some (fromBytes bytes) :=
  of_to_json _ (fromBytes_stringFirst bytes)

/-- The bytes a value takes in JSON. -/
def wireSize (bytes : Bytes) : Nat :=
  match utf8Text bytes with
  | some s => Json.quotedSize s
  | none => 13 + 4 * ((bytes.length + 2) / 3)

theorem quotedSize_base64 (bytes : Bytes) :
    Json.quotedSize (String.ofList (Base64.encode bytes)) = 2 + 4 * ((bytes.length + 2) / 3) := by
  have single : Base64.signs.all (fun c => Json.charSize c = 1) = true := by decide +kernel
  simp only [List.all_eq_true, decide_eq_true_eq] at single
  have ones : (Base64.encode bytes).map Json.charSize =
      List.replicate (Base64.encode bytes).length 1 := by
    apply List.eq_replicate_iff.mpr
    refine ⟨List.length_map _, ?_⟩
    intro n member
    obtain ⟨c, inside, rfl⟩ := List.mem_map.mp member
    exact single c (Base64.encode_signs bytes c inside)
  rw [Json.quotedSize, String.toList_ofList, ones, List.sum_replicate_nat, Base64.length_encode]
  simp

theorem size_fromBytes (bytes : Bytes) : (fromBytes bytes).toJson.size = wireSize bytes := by
  unfold fromBytes wireSize
  split
  · exact Json.size_str _
  · have name : Json.quotedSize "base64" = 8 := by decide +kernel
    simp only [toJson, Json.size_obj, Json.membersSize, List.map_cons, List.map_nil, List.sum_cons,
      List.sum_nil, List.length_cons, List.length_nil, name, Json.size_str, quotedSize_base64]
    omega

end WireBytes

/-! Maps -/

/-- Collecting pairs into a map: the last of the pairs with a key wins. -/
def Fields.ofPairs {A : Type} (pairs : List (String × A)) : Fields A :=
  pairs.foldl (fun m e => m.insert e.1 e.2) ∅

def Fields.pairs {A : Type} (m : Fields A) : List (String × A) :=
  m.entries.map (fun e => (e.1, e.2))

section Maps
variable {A : Type}

theorem lookup_foldl (pairs : List (String × A)) (m : Fields A)
    (single : ∀ k a b, (k, a) ∈ pairs → (k, b) ∈ pairs → a = b) (k : String) (a : A) :
    (pairs.foldl (fun m e => m.insert e.1 e.2) m).lookup k = some a ↔
      (k, a) ∈ pairs ∨ (∀ b, (k, b) ∉ pairs) ∧ m.lookup k = some a := by
  induction pairs generalizing m with
  | nil => simp
  | cons e rest ih =>
    obtain ⟨name, value⟩ := e
    have later : ∀ k a b, (k, a) ∈ rest → (k, b) ∈ rest → a = b := fun k a b first second =>
      single k a b (List.mem_cons_of_mem _ first) (List.mem_cons_of_mem _ second)
    rw [List.foldl_cons, ih _ later, lookup_insert]
    by_cases same : k = name
    · subst same
      have whole : ∀ b, (k, b) ∈ rest → b = value := fun b inside =>
        single k b value (List.mem_cons_of_mem _ inside) List.mem_cons_self
      simp only [List.mem_cons, Prod.mk.injEq, true_and, if_true, Option.some.injEq]
      constructor
      · rintro (inside | ⟨_, rfl⟩)
        · exact Or.inl (Or.inr inside)
        · exact Or.inl (Or.inl rfl)
      · rintro ((rfl | inside) | ⟨absent, _⟩)
        · by_cases again : ∃ b, (k, b) ∈ rest
          · obtain ⟨b, inside⟩ := again
            exact Or.inl (whole b inside ▸ inside)
          · exact Or.inr ⟨fun b inside => again ⟨b, inside⟩, rfl⟩
        · exact Or.inl inside
        · exact absurd (Or.inl rfl) (absent value)
    · simp [same]

theorem lookup_ofPairs {pairs : List (String × A)}
    (single : ∀ k a b, (k, a) ∈ pairs → (k, b) ∈ pairs → a = b) (k : String) (a : A) :
    (Fields.ofPairs pairs).lookup k = some a ↔ (k, a) ∈ pairs := by
  rw [Fields.ofPairs, lookup_foldl pairs ∅ single]
  simp

theorem mem_of_lookup_foldl (pairs : List (String × A)) (m : Fields A) {k : String} {a : A}
    (found : (pairs.foldl (fun m e => m.insert e.1 e.2) m).lookup k = some a) :
    (k, a) ∈ pairs ∨ m.lookup k = some a := by
  induction pairs generalizing m with
  | nil => exact Or.inr found
  | cons e rest ih =>
    rcases ih _ found with inside | before
    · exact Or.inl (List.mem_cons_of_mem _ inside)
    · rw [lookup_insert] at before
      split at before
      · rename_i same
        cases before
        subst same
        exact Or.inl List.mem_cons_self
      · exact Or.inr before

theorem mem_of_lookup_ofPairs {pairs : List (String × A)} {k : String} {a : A}
    (found : (Fields.ofPairs pairs).lookup k = some a) : (k, a) ∈ pairs := by
  rcases mem_of_lookup_foldl pairs ∅ found with inside | before
  · exact inside
  · rw [AList.lookup_empty] at before
    cases before

theorem mem_pairs_iff (m : Fields A) (k : String) (a : A) :
    (k, a) ∈ m.pairs ↔ m.lookup k = some a := by
  rw [← Option.mem_def, AList.mem_lookup_iff, Fields.pairs, List.mem_map]
  constructor
  · rintro ⟨e, inside, same⟩
    cases same
    exact inside
  · intro inside
    exact ⟨⟨k, a⟩, inside, rfl⟩

theorem pairs_single (m : Fields A) (k : String) (a b : A) (first : (k, a) ∈ m.pairs)
    (second : (k, b) ∈ m.pairs) : a = b := by
  rw [mem_pairs_iff] at first second
  exact Option.some.inj (first.symm.trans second)

end Maps

/-! Entries -/

/-- What messages take from elsewhere: a text as `{:?}` shows it, and what the base64
    decoder says of a payload. -/
class Messages where
  debug : String → String
  decodeError : String → String

def maxStateValueBytes : Nat := 1024 * 1024

def decodeEntry [Messages] (key : String) (value : WireBytes) : Except String Bytes :=
  match value.intoBytes with
  | .error payload =>
    .error ("entry " ++ Messages.debug key ++ ": invalid base64: " ++ Messages.decodeError payload)
  | .ok bytes =>
    if bytes.length > maxStateValueBytes then
      .error ("entry " ++ Messages.debug key ++ ": value is " ++ toString bytes.length ++
        " bytes, over the " ++ toString maxStateValueBytes ++ "-byte limit")
    else .ok bytes

def decodeEntries [Messages] (entries : Fields WireBytes) : Except String (Fields Bytes) := do
  let pairs ← entries.pairs.mapM (fun e => (e.1, ·) <$> decodeEntry e.1 e.2)
  return Fields.ofPairs pairs

theorem mapM_pure {M : Type → Type} [Monad M] [LawfulMonad M] {A B : Type} {f : A → M B}
    {g : A → B} {l : List A} (each : ∀ a ∈ l, f a = pure (g a)) : l.mapM f = pure (l.map g) := by
  induction l with
  | nil => simp
  | cons a rest ih =>
    have first := each a List.mem_cons_self
    have later := ih (fun a inside => each a (List.mem_cons_of_mem _ inside))
    simp [List.mapM_cons, first, later]

theorem ok_of_mapM {E A B : Type} {f : A → Except E B} {l : List A} {out : List B}
    (all : l.mapM f = .ok out) : ∀ a ∈ l, ∃ b, f a = .ok b := by
  induction l generalizing out with
  | nil => nofun
  | cons a rest ih =>
    rw [List.mapM_cons, ok_bind_iff] at all
    obtain ⟨b, first, then_⟩ := all
    rw [ok_bind_iff] at then_
    obtain ⟨later, ran, _⟩ := then_
    intro a' inside
    rcases List.mem_cons.mp inside with rfl | further
    · exact ⟨b, first⟩
    · exact ih ran a' further

theorem mem_of_mapM {E A B : Type} {f : A → Except E B} {l : List A} {out : List B}
    (all : l.mapM f = .ok out) : ∀ b ∈ out, ∃ a ∈ l, f a = .ok b := by
  induction l generalizing out with
  | nil =>
    cases all
    nofun
  | cons a rest ih =>
    rw [List.mapM_cons, ok_bind_iff] at all
    obtain ⟨b, first, then_⟩ := all
    rw [ok_bind_iff] at then_
    obtain ⟨later, ran, whole⟩ := then_
    cases whole
    intro b' inside
    rcases List.mem_cons.mp inside with rfl | further
    · exact ⟨a, List.mem_cons_self, first⟩
    · obtain ⟨a', there, here⟩ := ih ran b' further
      exact ⟨a', List.mem_cons_of_mem _ there, here⟩

/-- A decoded value is within the limit, whatever form it came in. -/
theorem decoded_within [Messages] {entries : Fields WireBytes} {out : Fields Bytes}
    (decoded : decodeEntries entries = .ok out) {key : String} {b : Bytes}
    (there : out.lookup key = some b) : b.length ≤ maxStateValueBytes := by
  rw [decodeEntries, ok_bind_iff] at decoded
  obtain ⟨pairs, all, whole⟩ := decoded
  cases whole
  obtain ⟨⟨name, v⟩, _, one⟩ := mem_of_mapM all _ (mem_of_lookup_ofPairs there)
  unfold decodeEntry at one
  split at one
  · cases one
  · split at one
    · cases one
    · cases one
      omega

section Decoding
variable {entries : Fields WireBytes} {held : String → Option Bytes}
  (encoded : ∀ key, entries.lookup key = (held key).map WireBytes.fromBytes)
include encoded

theorem mem_encoded {key : String} {v : WireBytes} :
    (key, v) ∈ entries.pairs ↔ ∃ b, held key = some b ∧ WireBytes.fromBytes b = v := by
  rw [mem_pairs_iff, encoded, Option.map_eq_some_iff]

variable [Messages]

theorem within_of_decoded {out : Fields Bytes} (decoded : decodeEntries entries = .ok out)
    {key : String} {b : Bytes} (there : held key = some b) : b.length ≤ maxStateValueBytes := by
  rw [decodeEntries, ok_bind_iff] at decoded
  obtain ⟨pairs, all, _⟩ := decoded
  obtain ⟨pair, one⟩ := ok_of_mapM all (key, .fromBytes b)
    ((mem_encoded encoded).mpr ⟨b, there, rfl⟩)
  by_contra large
  simp only [decodeEntry, WireBytes.into_from] at one
  rw [if_pos (by omega)] at one
  cases one

theorem decode_encoded (small : ∀ key b, held key = some b → b.length ≤ maxStateValueBytes) :
    decodeEntries entries =
      .ok (Fields.ofPairs (entries.pairs.map (fun e => (e.1, (held e.1).getD [])))) := by
  have each : ∀ e ∈ entries.pairs, (e.1, ·) <$> decodeEntry e.1 e.2 =
      (pure (e.1, (held e.1).getD []) : Except String (String × Bytes)) := by
    rintro ⟨key, v⟩ inside
    obtain ⟨b, there, rfl⟩ := (mem_encoded encoded).mp inside
    have fits := small key b there
    simp only [decodeEntry, WireBytes.into_from, there, Option.getD_some]
    rw [if_neg (by omega)]
    rfl
  rw [decodeEntries, mapM_pure each]
  rfl

theorem lookup_decoded {out : Fields Bytes} (decoded : decodeEntries entries = .ok out)
    (key : String) : out.lookup key = held key := by
  rw [decode_encoded encoded (fun _ _ there => within_of_decoded encoded decoded there)] at decoded
  cases decoded
  have single : ∀ k a b, (k, a) ∈ entries.pairs.map (fun e => (e.1, (held e.1).getD [])) →
      (k, b) ∈ entries.pairs.map (fun e => (e.1, (held e.1).getD [])) → a = b := by
    intro k a b first second
    obtain ⟨e, _, same⟩ := List.mem_map.mp first
    obtain ⟨e', _, same'⟩ := List.mem_map.mp second
    obtain ⟨rfl, rfl⟩ := Prod.mk.inj same
    obtain ⟨name, rfl⟩ := Prod.mk.inj same'
    rw [name]
  apply Option.ext
  intro b
  rw [lookup_ofPairs single, List.mem_map]
  constructor
  · rintro ⟨⟨key', v⟩, inside, same⟩
    obtain ⟨b', there, rfl⟩ := (mem_encoded encoded).mp inside
    cases same
    rw [there, Option.getD_some]
  · intro there
    refine ⟨(key, .fromBytes b), (mem_encoded encoded).mpr ⟨b, there, rfl⟩, ?_⟩
    rw [there, Option.getD_some]

end Decoding

end WireMirage
