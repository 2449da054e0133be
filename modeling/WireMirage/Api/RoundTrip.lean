import WireMirage.Api.Snapshots

/-!
What importing a snapshot restores. The namespace exported and the one it is imported
into are looked at by the bytes they hold behind their prefixes.
-/
namespace WireMirage
open Prog

/-! Listings -/

def entryOf (key : String) : Option (MemValue Bytes) → RouteStateEntry
  | none => ⟨key, "bytes", none, none⟩
  | some (.bytes b) => ⟨key, "bytes", some b, none⟩
  | some (.list q) => ⟨key, "list", none, some q.length⟩
  | some (.hash h) => ⟨key, "hash", none, some h.keys.length⟩
  | some (.set members) => ⟨key, "set", none, some members.toList.length⟩

theorem stateEntry_eq (p : String) (s : Backing) (key : String) :
    stateEntry p s key = .ok (entryOf key (s.lookup (p ++ key))) := by
  unfold stateEntry inBucket Storage.kind Storage.get Storage.listLength Storage.hashKeys
    Storage.setMembers
  rcases held : s.lookup (p ++ key) with _ | (b | q | h | members) <;> rfl

theorem listState_eq (reporting : Reporting) (p : String) (s : Backing) :
    listState reporting p s =
      .ok (((listKeys reporting p none s).map
        (fun key => entryOf key (s.lookup (p ++ key)))).mergeSort
        (fun a b => a.key ≤ b.key)) := by
  have all := mapM_pure (f := stateEntry p s) (l := listKeys reporting p none s)
    (fun key _ => stateEntry_eq p s key)
  rw [listState, all]
  rfl

/-- The bytes a namespace holds under a key. -/
def held (p : String) (s : Backing) (key : String) : Option Bytes := s.bytesAt (p ++ key)

theorem held_eq_some {p key : String} {s : Backing} {b : Bytes} :
    held p s key = some b ↔ s.lookup (p ++ key) = some (.bytes b) := by
  unfold held Storage.bytesAt Storage.asBytes
  split <;> simp_all

section Snapshot
variable {reporting : Reporting} {p : String} {s : Backing} {entries : List RouteStateEntry}
  (plain : Glob.Literal (utf8Bytes p)) (listed : listState reporting p s = .ok entries)
include plain listed

theorem mem_snapshotEntries (key : String) (v : WireBytes) :
    (key, v) ∈ (entries.filter (·.kind = "bytes")).filterMap snapshotEntry ↔
      ∃ b, held p s key = some b ∧ WireBytes.fromBytes b = v := by
  rw [listState_eq] at listed
  cases listed
  simp only [List.mem_filterMap, List.mem_filter, List.mem_mergeSort, List.mem_map, snapshotEntry,
    Option.map_eq_some_iff, Prod.mk.injEq]
  constructor
  · rintro ⟨e, ⟨⟨key', listed, rfl⟩, bytes⟩, b, value, name, same⟩
    rcases there : s.lookup (p ++ key') with _ | (b' | q | h | members) <;>
      rw [there] at value name <;> cases value
    cases name
    exact ⟨b, held_eq_some.mpr there, same⟩
  · rintro ⟨b, there, same⟩
    rw [held_eq_some] at there
    have found : key ∈ listKeys reporting p none s := (mem_listKeys plain key).mpr ⟨_, there⟩
    refine ⟨_, ⟨⟨key, found, rfl⟩, ?_⟩, b, ?_, ?_, same⟩
    · rw [there]
      rfl
    · rw [there]
      rfl
    · rw [there]
      rfl

theorem lookup_snapshot (key : String) :
    (Fields.ofPairs ((entries.filter (·.kind = "bytes")).filterMap snapshotEntry)).lookup key =
      (held p s key).map WireBytes.fromBytes := by
  have single : ∀ k a b,
      (k, a) ∈ (entries.filter (·.kind = "bytes")).filterMap snapshotEntry →
      (k, b) ∈ (entries.filter (·.kind = "bytes")).filterMap snapshotEntry → a = b := by
    intro k a b first second
    obtain ⟨c, there, rfl⟩ := (mem_snapshotEntries plain listed k a).mp first
    obtain ⟨d, there', rfl⟩ := (mem_snapshotEntries plain listed k b).mp second
    rw [there] at there'
    cases there'
    rfl
  apply Option.ext
  intro v
  rw [lookup_ofPairs single, mem_snapshotEntries plain listed, Option.map_eq_some_iff]

end Snapshot

/-! Imports -/

/-- The namespace holds what the map holds, and elsewhere what it held before. -/
def Overlaid (p : String) (before after : Backing) (entries : Fields Bytes) : Prop :=
  ∀ key, after.lookup (p ++ key) =
    ((entries.lookup key).map MemValue.bytes).or (before.lookup (p ++ key))

theorem overlaid_foldl {p : String} {before after : Backing} {entries : Fields Bytes}
    (overlaid : Overlaid p before after entries) (pairs : List (String × Bytes)) :
    Overlaid p before
      (pairs.foldl (fun s e => (inBucket p (Storage.set · e.2) e.1 s).2) after)
      (pairs.foldl (fun m e => m.insert e.1 e.2) entries) := by
  induction pairs generalizing after entries with
  | nil => exact overlaid
  | cons e rest ih =>
    apply ih
    intro key
    show (after.replace (p ++ e.1) (.bytes e.2) none).lookup (p ++ key) = _
    rw [Storage.lookup_replace, lookup_insert]
    by_cases same : key = e.1
    · rw [same, if_pos rfl, if_pos rfl]
      rfl
    · have apart : p ++ key ≠ p ++ e.1 := fun joined => same (append_left_cancel joined)
      rw [if_neg apart, if_neg same]
      exact overlaid key

theorem lookup_ofPairs_pairs {A : Type} (m : Fields A) (key : String) :
    (Fields.ofPairs m.pairs).lookup key = m.lookup key := by
  apply Option.ext
  intro a
  rw [lookup_ofPairs (pairs_single m), mem_pairs_iff]

theorem overlaid_setState (p : String) (entries : Fields Bytes) (s : Backing) :
    Overlaid p s (setState p entries s) entries := by
  have start : Overlaid p s s ∅ := by
    intro key
    simp
  have done := overlaid_foldl start entries.pairs
  intro key
  have here := done key
  rw [← lookup_ofPairs_pairs entries key]
  exact here

/-- What an import into an empty namespace leaves there. -/
theorem held_setState {p : String} {s : Backing} (empty : ∀ key, s.lookup (p ++ key) = none)
    (entries : Fields Bytes) (key : String) :
    held p (setState p entries s) key = entries.lookup key := by
  rw [held, Storage.bytesAt, overlaid_setState p entries s key, empty key, Option.or_none]
  cases entries.lookup key <;> rfl

/-! The text of a snapshot -/

theorem setStateBody_snapshot {m : Fields WireBytes}
    (stringFirst : ∀ key v, m.lookup key = some v → ∃ b, WireBytes.fromBytes b = v) :
    setStateBody (snapshotJson m) = some (Fields.ofPairs m.pairs) := by
  have each : ∀ e ∈ m.pairs.map (fun e => (e.1, e.2.toJson)),
      (e.1, ·) <$> WireBytes.ofJson e.2 =
        (pure (e.1, (m.lookup e.1).getD (.text "")) : Option _) := by
    intro e inside
    obtain ⟨⟨key, v⟩, there, rfl⟩ := List.mem_map.mp inside
    rw [mem_pairs_iff] at there
    obtain ⟨b, rfl⟩ := stringFirst key v there
    simp only [WireBytes.of_from_json, there, Option.getD_some]
    rfl
  have back : (m.pairs.map (fun e => (e.1, e.2.toJson))).map
      (fun e => (e.1, (m.lookup e.1).getD (.text ""))) = m.pairs := by
    rw [List.map_map]
    refine (List.map_congr_left ?_).trans (List.map_id _)
    rintro ⟨key, v⟩ inside
    rw [mem_pairs_iff] at inside
    simp [inside]
  have read := mapM_pure each
  rw [back] at read
  have whole : setStateBody (snapshotJson m) = ((m.pairs.map (fun e => (e.1, e.2.toJson))).mapM
      (fun e => (e.1, ·) <$> WireBytes.ofJson e.2)).map Fields.ofPairs := rfl
  rw [whole, read]
  rfl

/-- The bytes of a snapshot, by what the namespace holds. -/
def snapshotSize (entries : List (String × Bytes)) : Nat :=
  14 + (entries.map (fun e => Json.quotedSize e.1 + 1 + WireBytes.wireSize e.2)).sum +
    (entries.length - 1)

/-- The bytes entries of a namespace, in the order of the store. -/
def bytesEntries (p : String) (s : Backing) : List (String × Bytes) :=
  s.entries.keys.filterMap (fun k => (stripKeyPrefix p k).bind
    (fun key => (held p s key).map (key, ·)))

theorem mem_bytesEntries {p key : String} {s : Backing} {b : Bytes} :
    (key, b) ∈ bytesEntries p s ↔ held p s key = some b := by
  simp only [bytesEntries, List.mem_filterMap, Option.bind_eq_some_iff, Option.map_eq_some_iff,
    Prod.mk.injEq]
  constructor
  · rintro ⟨k, _, key', _, b', there, rfl, rfl⟩
    exact there
  · intro there
    refine ⟨p ++ key, (mem_keys_iff s _).mpr ⟨_, held_eq_some.mp there⟩, key,
      stripKeyPrefix_append p key,
      b, there, rfl, rfl⟩

theorem stripKeyPrefix_eq_some {p k key : String} (stripped : stripKeyPrefix p k = some key) :
    k = p ++ key := by
  by_cases starts : startsWith p k = true
  · obtain ⟨t, rfl⟩ := (startsWith_iff p k).mp starts
    rw [stripKeyPrefix_append] at stripped
    rw [Option.some.inj stripped]
  · rw [stripKeyPrefix, if_neg starts] at stripped
    cases stripped

theorem nodup_bytesEntries (p : String) (s : Backing) : (bytesEntries p s).Nodup := by
  refine List.Nodup.filterMap ?_ s.entries.keys_nodup
  intro k k' e first second
  simp only [Option.mem_def, Option.bind_eq_some_iff, Option.map_eq_some_iff] at first second
  obtain ⟨key, stripped, b, _, rfl⟩ := first
  obtain ⟨key', stripped', b', _, same⟩ := second
  obtain ⟨rfl, _⟩ := Prod.mk.inj same
  rw [stripKeyPrefix_eq_some stripped, stripKeyPrefix_eq_some stripped']

theorem nodup_pairs {A : Type} (m : Fields A) : m.pairs.Nodup := by
  have names : (m.pairs.map Prod.fst).Nodup := by
    rw [Fields.pairs, List.map_map]
    exact m.nodupKeys
  exact List.Nodup.of_map Prod.fst names

theorem size_snapshotJson {p : String} {s : Backing} {m : Fields WireBytes}
    (encoded : ∀ key, m.lookup key = (held p s key).map WireBytes.fromBytes) :
    (snapshotJson m).size = snapshotSize (bytesEntries p s) := by
  have name : Json.quotedSize "entries" = 9 := by decide +kernel
  have same : m.pairs.Perm ((bytesEntries p s).map (fun e => (e.1, WireBytes.fromBytes e.2))) := by
    have injective : Function.Injective
        (fun e : String × Bytes => (e.1, WireBytes.fromBytes e.2)) := by
      rintro ⟨key, b⟩ ⟨key', b'⟩ equal
      obtain ⟨rfl, wire⟩ := Prod.mk.inj equal
      have back := WireBytes.into_from b
      rw [wire, WireBytes.into_from] at back
      exact congrArg (key, ·) (Except.ok.inj back).symm
    apply (List.perm_ext_iff_of_nodup (nodup_pairs m)
      ((nodup_bytesEntries p s).map injective)).mpr
    rintro ⟨key, v⟩
    rw [mem_encoded encoded, List.mem_map]
    constructor
    · rintro ⟨b, there, rfl⟩
      exact ⟨(key, b), mem_bytesEntries.mpr there, rfl⟩
    · rintro ⟨⟨key', b⟩, inside, equal⟩
      cases equal
      exact ⟨b, mem_bytesEntries.mp inside, rfl⟩
  have members : Json.membersSize (m.pairs.map (fun e => (e.1, e.2.toJson))) =
      ((bytesEntries p s).map (fun e => Json.quotedSize e.1 + 1 + WireBytes.wireSize e.2)).sum +
        ((bytesEntries p s).length - 1) := by
    have sums := (same.map (fun e => Json.quotedSize e.1 + 1 + e.2.toJson.size)).sum_nat
    have lengths := same.length_eq
    simp only [List.map_map, List.length_map] at sums lengths
    simp only [Json.membersSize, List.map_map, List.length_map, lengths, Nat.add_right_cancel_iff]
    refine sums.trans (congrArg List.sum (List.map_congr_left ?_))
    rintro ⟨key, b⟩ _
    exact congrArg (Json.quotedSize key + 1 + ·) (WireBytes.size_fromBytes b)
  simp only [snapshotJson, Json.size_obj, Json.membersSize, List.map_cons, List.map_nil,
    List.sum_cons, List.sum_nil, List.length_cons, List.length_nil, name] at members ⊢
  rw [members, snapshotSize]
  omega

/-! The ids of records -/

section Reads
variable {inv : Store → Prop}

theorem get_keeps (k : Key) : Keeps inv (Bucket.get k : Reg (Option Val)) := by
  apply keeps_atomic
  intro s hold
  show inv (s.get k).2
  unfold Storage.get
  split <;> exact hold

theorem hashGetAll_keeps (k : Key) : Keeps inv (Bucket.hashGetAll k : Reg (Fields Val)) := by
  apply keeps_atomic
  intro s hold
  show inv (s.hashGetAll k).2
  unfold Storage.hashGetAll
  split <;> exact hold

theorem resolveByName_keeps (name : String) : Keeps inv (resolveByName name) := by
  apply keeps_bind _ _ (get_keeps _)
  rintro (_ | v)
  · trivial
  · dsimp only
    cases v.utf8 <;> trivial

theorem resolved_keeps [UlidText] (reference : String) : Keeps inv (resolved reference) := by
  have resolves : Keeps inv (resolveGroup reference) := by
    unfold resolveGroup
    split
    · apply keeps_bind _ _ (hashGetAll_keeps _)
      intro fields
      split
      · trivial
      · exact resolveByName_keeps reference
    · exact resolveByName_keeps reference
  apply keeps_bind _ _ resolves
  rintro (_ | id) <;> trivial

theorem routeIdBySlug_keeps [UlidText] (groupRef : String) (number : Nat) :
    Keeps inv (routeIdBySlug groupRef number) := by
  apply keeps_bind _ _ (resolved_keeps groupRef)
  intro gid
  apply keeps_bind _ _ (get_keeps _)
  rintro (_ | v)
  · trivial
  · dsimp only
    cases v.utf8 <;> trivial

end Reads

theorem utf8Opt_of_utf8 {fields : Fields Val} {name text : String}
    (read : utf8 fields name = .ok text) : utf8Opt fields name = some text := by
  unfold utf8 at read
  unfold utf8Opt
  cases found : fields.lookup name with
  | none =>
    rw [found] at read
    cases read
  | some v =>
    simp only [found] at read
    simp only [Option.bind_some]
    cases text : v.utf8 with
    | none =>
      rw [text] at read
      cases read
    | some s =>
      rw [text] at read
      cases read
      rfl

theorem ids_of_decodeRoute {fields : Fields Val} {r : Route}
    (decoded : decodeRoute fields = .ok r) :
    utf8Opt fields "id" = some r.id ∧ utf8Opt fields "group_id" = some r.groupId := by
  simp only [decodeRoute, ok_bind_iff] at decoded
  obtain ⟨id, first, gid, second, name, _, number, _, ms, _, path, _, lang, _, version, _, wasm, _,
    created, _, owner, _, hits, _, last, _, whole⟩ := decoded
  cases whole
  exact ⟨utf8Opt_of_utf8 first, utf8Opt_of_utf8 second⟩

theorem id_of_decodeGroup {fields : Fields Val} {g : Group} (decoded : decodeGroup fields = .ok g) :
    utf8Opt fields "id" = some g.id := by
  simp only [decodeGroup, ok_bind_iff] at decoded
  obtain ⟨id, first, name, _, implicit, _, created, _, owner, _, ttl, _, sliding, _, last, _,
    whole⟩ := decoded
  cases whole
  exact utf8Opt_of_utf8 first

theorem ulids_of_hash {s : Store} {k : Key} {fields : Fields Val} (holds : holdsUlids s = true)
    (found : s.lookup k = some (.hash fields)) : ulidFields fields = true := by
  obtain ⟨e, there, value⟩ := Option.map_eq_some_iff.mp found
  have inside := AList.mem_lookup_iff.mp (Option.mem_def.mpr there)
  have here := List.all_eq_true.mp holds _ inside
  rw [value] at here
  exact here

/-- What reading a hash answers with is the hash, or empty. -/
theorem ulids_of_read {s : Store} {k : Key} {fields : Fields Val} (holds : holdsUlids s = true)
    (read : (s.hashGetAll k).1 = .ok fields) : ulidFields fields = true := by
  unfold Storage.hashGetAll at read
  split at read
  · cases read
    rfl
  · rename_i found
    cases read
    exact ulids_of_hash holds found
  · cases read

theorem ulid_of_field {fields : Fields Val} {name id : String} (ulids : ulidFields fields = true)
    (field : name ∈ ["id", "group_id"]) (found : utf8Opt fields name = some id) :
    isUlid id = true := by
  have here := List.all_eq_true.mp ulids name field
  rw [found] at here
  exact here

theorem hashGetAll_ulids (k : Key) :
    Assures (fun s => holdsUlids s = true) (fun fields => ulidFields fields = true)
      (Bucket.hashGetAll k : Reg (Fields Val)) := by
  have one : Single (Bucket.hashGetAll k : Reg (Fields Val)) := single_atomic _
  apply assures_single one
  intro s holds
  refine ⟨@keeps_run _ _ _ (fun s => holdsUlids s = true) _ (hashGetAll_keeps k) s holds, ?_⟩
  intro fields read
  rw [Bucket.hashGetAll, run_command] at read
  cases answer : (s.hashGetAll k).1 with
  | error e =>
    rw [answer] at read
    cases read
  | ok found =>
    rw [answer] at read
    cases read
    exact ulids_of_read holds answer

theorem readRoute_ulids (rid : String) :
    Assures (fun s => holdsUlids s = true) (fun r => isUlid r.groupId = true ∧ isUlid r.id = true)
      (readRoute rid) := by
  apply assures_bind (hashGetAll_ulids _)
  intro fields ulids
  split
  · trivial
  · cases decoded : decodeRoute fields with
    | error e => trivial
    | ok r =>
      obtain ⟨id, gid⟩ := ids_of_decodeRoute decoded
      exact ⟨ulid_of_field ulids (by simp) gid, ulid_of_field ulids (by simp) id⟩

theorem readGroup_ulid (gid : String) :
    Assures (fun s => holdsUlids s = true) (fun g => isUlid g.id = true) (readGroup gid) := by
  apply assures_bind (hashGetAll_ulids _)
  intro fields ulids
  split
  · trivial
  · cases decoded : decodeGroup fields with
    | error e => trivial
    | ok g => exact ulid_of_field ulids (by simp) (id_of_decodeGroup decoded)

section Namespaces
variable [UlidText] (h : StateHost)

theorem ulids_of_route {groupRef : String} {number : Nat} {r : Route}
    (read : h.getRouteBySlug groupRef number = .ok r) :
    isUlid r.groupId = true ∧ isUlid r.id = true := by
  unfold StateHost.getRouteBySlug at read
  cases answer : (run (getRouteBySlug groupRef number) h.records).1 with
  | error e =>
    rw [answer] at read
    cases read
  | ok r' =>
    rw [answer] at read
    cases read
    exact assures_run (assures_bind (assures_of_keeps (routeIdBySlug_keeps groupRef number))
      (fun rid _ => readRoute_ulids rid)) h.ulids answer

theorem ulid_of_group {groupRef : String} {g : Group}
    (read : (run (readGroupByRef groupRef) h.records).1 = .ok g) : isUlid g.id = true :=
  assures_run (assures_bind (assures_of_keeps (resolved_keeps groupRef))
    (fun gid _ => readGroup_ulid gid)) h.ulids read

end Namespaces

/-! Namespaces by their addresses -/

inductive StateAddress where
  | route (groupRef : String) (number : Nat)
  | group (groupRef : String)

def Permits (auth : AuthContext) (ownerId : String) : Prop :=
  ownerId = auth.userId ∨ auth.isAdmin = true

theorem not_barred {auth : AuthContext} {ownerId : String} (permitted : Permits auth ownerId) :
    ¬ (ownerId ≠ auth.userId ∧ ¬ auth.isAdmin = true) := by
  rintro ⟨other, plainUser⟩
  rcases permitted with owner | admin
  · exact other owner
  · exact plainUser admin

namespace StateAddress
section
variable [UlidText] (h : StateHost)

/-- The prefix of the namespace and its owner. -/
def namespace_ : StateAddress → Except StateError (String × String)
  | .route groupRef number => do
    let r ← h.getRouteBySlug groupRef number
    return (routeBucket r.groupId r.id, r.ownerId)
  | .group groupRef =>
    match (run (readGroupByRef groupRef) h.records).1 with
    | .error _ => .error .notFound
    | .ok g => .ok (groupBucket g.id, g.ownerId)

def get (auth : AuthContext) (reporting : Reporting) (format : Option String) :
    StateAddress → Except StateError StateResponse
  | .route groupRef number => StateApi.getRouteState h auth reporting groupRef number format
  | .group groupRef => StateApi.getGroupState h auth reporting groupRef format

def put [Messages] (auth : AuthContext) (body : StateBody) : StateAddress →
    Except StateError StateHost
  | .route groupRef number => StateApi.setRouteState h auth groupRef number body
  | .group groupRef => StateApi.setGroupState h auth groupRef body

def clear (auth : AuthContext) (reporting : Reporting) : StateAddress → Except StateError StateHost
  | .route groupRef number => StateApi.deleteRouteState h auth reporting groupRef number
  | .group groupRef => StateApi.deleteGroupState h auth reporting groupRef

end

section
variable [UlidText] {h : StateHost} {address : StateAddress} {p ownerId : String}
  {auth : AuthContext}
  (found : address.namespace_ h = .ok (p, ownerId))
include found

theorem literal : Glob.Literal (utf8Bytes p) := by
  cases address with
  | route groupRef number =>
    simp only [namespace_, ok_bind_iff] at found
    obtain ⟨r, read, same⟩ := found
    cases same
    obtain ⟨groupUlid, routeUlid⟩ := ulids_of_route h read
    exact literal_routeBucket groupUlid routeUlid
  | group groupRef =>
    simp only [namespace_] at found
    split at found
    · cases found
    · rename_i g read
      cases found
      exact literal_groupBucket (ulid_of_group h read)

variable (permitted : Permits auth ownerId)
include permitted

theorem get_eq (reporting : Reporting) (format : Option String) :
    address.get h auth reporting format = (do
      let entries ← (listState reporting p h.state).mapError .store
      return renderState entries format) := by
  cases address with
  | route groupRef number =>
    simp only [namespace_, ok_bind_iff] at found
    obtain ⟨r, read, same⟩ := found
    cases same
    have allowed := not_barred permitted
    simp only [get, StateApi.getRouteState, StateApi.ownedRoute, StateHost.listRouteState, read]
    show (if r.ownerId ≠ auth.userId ∧ ¬ auth.isAdmin then _ else _) >>= _ = _
    rw [if_neg allowed]
    rfl
  | group groupRef =>
    simp only [namespace_] at found
    split at found
    · cases found
    · rename_i g read
      cases found
      have allowed := fun barred => not_barred permitted (And.symm barred)
      simp only [get, StateApi.getGroupState, StateApi.ensureGroupOwnerOrAdmin, read]
      rw [if_neg allowed]
      rfl

theorem put_ok_iff [Messages] (body : StateBody) (h' : StateHost) :
    address.put h auth body = .ok h' ↔ ∃ entries out, body.entries = .ok entries ∧
      decodeEntries entries = .ok out ∧ h' = { h with state := setState p out h.state } := by
  have decoded : ∀ (entries : Fields WireBytes) (out : Fields Bytes),
      StateApi.decodeStateEntries entries = .ok out ↔ decodeEntries entries = .ok out := by
    intro entries out
    unfold StateApi.decodeStateEntries
    cases decodeEntries entries with
    | error msg => exact ⟨nofun, nofun⟩
    | ok found => exact ⟨fun same => congrArg _ (Except.ok.inj same),
        fun same => congrArg _ (Except.ok.inj same)⟩
  cases address with
  | route groupRef number =>
    simp only [namespace_, ok_bind_iff] at found
    obtain ⟨r, read, same⟩ := found
    cases same
    have allowed := not_barred permitted
    have owned : ∀ msg, StateApi.ownedRoute h auth groupRef number msg = .ok r := by
      intro msg
      simp only [StateApi.ownedRoute, read]
      exact if_neg allowed
    simp only [put, StateApi.setRouteState, StateHost.setRouteState, ok_bind_iff, owned,
      read, decoded]
    constructor
    · rintro ⟨entries, parsed, r', _, out, values, r'', same, written⟩
      cases same
      exact ⟨entries, out, parsed, values, (Except.ok.inj written).symm⟩
    · rintro ⟨entries, out, parsed, values, rfl⟩
      exact ⟨entries, parsed, r, rfl, out, values, r, rfl, rfl⟩
  | group groupRef =>
    simp only [namespace_] at found
    split at found
    · cases found
    · rename_i g read
      cases found
      have allowed := fun barred => not_barred permitted (And.symm barred)
      have owned : StateApi.ensureGroupOwnerOrAdmin h auth groupRef = .ok g := by
        simp only [StateApi.ensureGroupOwnerOrAdmin, read]
        exact if_neg allowed
      simp only [put, StateApi.setGroupState, StateHost.setGroupState, ok_bind_iff, owned, decoded]
      constructor
      · rintro ⟨entries, parsed, g', same, out, values, written⟩
        cases same
        exact ⟨entries, out, parsed, values, (Except.ok.inj written).symm⟩
      · rintro ⟨entries, out, parsed, values, rfl⟩
        exact ⟨entries, parsed, g, rfl, out, values, rfl⟩

end
end StateAddress

/-! Round trips -/

section RoundTrips
variable [UlidText] [Messages] (h : StateHost)

/-- The bytes held in a namespace by its address. -/
def bytesAtAddress (address : StateAddress) (key : String) : Option Bytes :=
  match address.namespace_ h with
  | .error _ => none
  | .ok (p, _) => held p h.state key

/-- The snapshot of one namespace, imported into another, is accepted and restores it. -/
def RoundTrips (reporting : Reporting) (reader writer : AuthContext)
    (source target : StateAddress) :
    Prop :=
  ∃ entries h', source.get h reader reporting (some "snapshot") = .ok (.snapshot entries) ∧
    target.put h writer (snapshotBody entries) = .ok h' ∧
    ∀ key, bytesAtAddress h' target key = bytesAtAddress h source key

/-- The limits of an import, on what a namespace holds. -/
def Importable (p : String) (s : Backing) : Prop :=
  (∀ key b, held p s key = some b → b.length ≤ maxStateValueBytes) ∧
    snapshotSize (bytesEntries p s) ≤ maxApiBodyBytes

variable {h} {reporting : Reporting} {reader writer : AuthContext} {source target : StateAddress}
  {p ownerId q targetOwner : String}

omit [UlidText] [Messages] in
theorem import_entries {m : Fields WireBytes}
    (encoded : ∀ key, m.lookup key = (held p h.state key).map WireBytes.fromBytes) :
    (snapshotBody m).entries =
      if snapshotSize (bytesEntries p h.state) > maxApiBodyBytes then .error .tooLarge
      else .ok (Fields.ofPairs m.pairs) := by
  have parsed : setStateBody (snapshotJson m) = some (Fields.ofPairs m.pairs) := by
    apply setStateBody_snapshot
    intro key v found
    rw [encoded, Option.map_eq_some_iff] at found
    obtain ⟨b, _, same⟩ := found
    exact ⟨b, same⟩
  simp only [StateBody.entries, snapshotBody, size_snapshotJson encoded, parsed]

omit [Messages] in
theorem bytesAtAddress_of_found (found : source.namespace_ h = .ok (p, ownerId)) (key : String) :
    bytesAtAddress h source key = held p h.state key := by
  rw [bytesAtAddress, found]

omit [Messages] in
/-- Where an address leads is a matter of the records alone. -/
theorem namespace_of_state (h : StateHost) (address : StateAddress) (s : Backing) :
    address.namespace_ { h with state := s } = address.namespace_ h := by
  cases address <;> rfl

theorem roundTrips_iff (found : source.namespace_ h = .ok (p, ownerId))
    (mayRead : Permits reader ownerId) (goal : target.namespace_ h = .ok (q, targetOwner))
    (mayWrite : Permits writer targetOwner) (empty : ∀ key, h.state.lookup (q ++ key) = none) :
    RoundTrips h reporting reader writer source target ↔ Importable p h.state := by
  have listed := listState_eq reporting p h.state
  have encoded := lookup_snapshot (source.literal found) listed
  have again := fun key => (lookup_ofPairs_pairs _ key).trans (encoded key)
  have exported := StateAddress.get_eq found mayRead reporting (some "snapshot")
  rw [listed] at exported
  constructor
  · rintro ⟨entries, h', got, accepted, _⟩
    rw [exported] at got
    cases got
    obtain ⟨parsed, out, read, decoded, _⟩ :=
      (StateAddress.put_ok_iff goal mayWrite _ h').mp accepted
    rw [import_entries encoded] at read
    split at read
    · cases read
    · rename_i room
      cases read
      exact ⟨fun key b there => within_of_decoded again decoded there, by omega⟩
  · rintro ⟨small, room⟩
    have decoded := decode_encoded again small
    have read := import_entries encoded
    rw [if_neg (by omega)] at read
    refine ⟨_, _, exported, (StateAddress.put_ok_iff goal mayWrite _ _).mpr
      ⟨_, _, read, decoded, rfl⟩, ?_⟩
    intro key
    rw [bytesAtAddress_of_found ((namespace_of_state h target _).trans goal),
      bytesAtAddress_of_found found]
    exact (held_setState empty _ key).trans (lookup_decoded again decoded key)

end RoundTrips

/-! Runs -/

/-- What changes the namespaces: handlers on the buckets they hold, and the state API. -/
inductive StateAct where
  | routeBucket (groupId routeId : String) (call : HandlerCall)
  | groupBucket (groupId : String) (call : HandlerCall)
  | put (auth : AuthContext) (address : StateAddress) (body : StateBody)
  | clear (auth : AuthContext) (reporting : Reporting) (address : StateAddress)

namespace StateAct

def perform [UlidText] [Messages] (h : StateHost) : StateAct → StateHost
  | routeBucket groupId routeId call =>
    { h with state := call.after (WireMirage.routeBucket groupId routeId) h.state }
  | groupBucket groupId call =>
    { h with state := call.after (WireMirage.groupBucket groupId) h.state }
  | put auth address body => (address.put h auth body).toOption.getD h
  | clear auth reporting address => (address.clear h auth reporting).toOption.getD h

/-- A handler that sets a value keeps within the documented size. -/
def SetsWithin : StateAct → Prop
  | routeBucket _ _ call => call.Sets maxStateValueBytes
  | groupBucket _ call => call.Sets maxStateValueBytes
  | _ => True

end StateAct

def afterActs [UlidText] [Messages] (h : StateHost) (acts : List StateAct) : StateHost :=
  acts.foldl StateAct.perform h

theorem capped_deleteWithPrefix {bound : Nat} {s : Backing} (capped : Capped bound s)
    (reporting : Reporting) (p userPrefix : String) :
    Capped bound (deleteWithPrefix reporting p userPrefix s).2 := by
  have all : ∀ (keys : List String) (s : Backing), Capped bound s →
      Capped bound (keys.foldl (fun s key => (inBucket p Storage.delete key s).2) s) := by
    intro keys
    induction keys with
    | nil => exact fun s capped => capped
    | cons key rest ih => exact fun s capped => ih _ (capped_erase capped (p ++ key))
  exact all _ s capped

theorem capped_setState {bound : Nat} {s : Backing} (capped : Capped bound s) (p : String)
    {entries : Fields Bytes} (small : ∀ key b, entries.lookup key = some b → b.length ≤ bound) :
    Capped bound (setState p entries s) := by
  have all : ∀ (pairs : List (String × Bytes)) (s : Backing), (∀ e ∈ pairs, e.2.length ≤ bound) →
      Capped bound s →
      Capped bound (pairs.foldl (fun s e => (inBucket p (Storage.set · e.2) e.1 s).2) s) := by
    intro pairs
    induction pairs with
    | nil => exact fun s _ capped => capped
    | cons e rest ih =>
      intro s small capped
      apply ih _ (fun e' inside => small e' (List.mem_cons_of_mem _ inside))
      apply capped_replace capped
      rintro b ⟨⟩
      exact small e List.mem_cons_self
  apply all _ s _ capped
  rintro ⟨key, b⟩ inside
  exact small key b ((mem_pairs_iff entries key b).mp inside)

section Steps
variable [UlidText] [Messages] {h h' : StateHost} {auth : AuthContext} {address : StateAddress}

theorem capped_put {body : StateBody} (capped : Capped maxStateValueBytes h.state)
    (accepted : address.put h auth body = .ok h') : Capped maxStateValueBytes h'.state := by
  have values : ∀ {entries : Fields WireBytes} {out : Fields Bytes},
      StateApi.decodeStateEntries entries = .ok out →
      ∀ key b, out.lookup key = some b → b.length ≤ maxStateValueBytes := by
    intro entries out decoded key b there
    unfold StateApi.decodeStateEntries at decoded
    cases ran : decodeEntries entries with
    | error msg =>
      rw [ran] at decoded
      cases decoded
    | ok found =>
      rw [ran] at decoded
      cases decoded
      exact decoded_within ran there
  cases address with
  | route groupRef number =>
    simp only [StateAddress.put, StateApi.setRouteState, StateHost.setRouteState,
      ok_bind_iff] at accepted
    obtain ⟨entries, _, r, _, out, decoded, r', _, written⟩ := accepted
    cases written
    exact capped_setState capped _ (values decoded)
  | group groupRef =>
    simp only [StateAddress.put, StateApi.setGroupState, StateHost.setGroupState,
      ok_bind_iff] at accepted
    obtain ⟨entries, _, g, _, out, decoded, written⟩ := accepted
    cases written
    exact capped_setState capped _ (values decoded)

omit [Messages] in
theorem capped_clear {reporting : Reporting} (capped : Capped maxStateValueBytes h.state)
    (accepted : address.clear h auth reporting = .ok h') : Capped maxStateValueBytes h'.state := by
  cases address with
  | route groupRef number =>
    simp only [StateAddress.clear, StateApi.deleteRouteState,
      StateHost.clearRouteState, ok_bind_iff]
      at accepted
    obtain ⟨r, _, r', _, cleared⟩ := accepted
    cases cleared
    exact capped_deleteWithPrefix capped reporting _ _
  | group groupRef =>
    simp only [StateAddress.clear, StateApi.deleteGroupState,
      StateHost.clearGroupState, ok_bind_iff]
      at accepted
    obtain ⟨g, _, cleared⟩ := accepted
    cases cleared
    exact capped_deleteWithPrefix (capped_deleteWithPrefix capped reporting _ _) reporting _ _

theorem capped_perform (capped : Capped maxStateValueBytes h.state) {act : StateAct}
    (within_ : act.SetsWithin) : Capped maxStateValueBytes (act.perform h).state := by
  have room : 80 ≤ maxStateValueBytes := by decide
  cases act with
  | routeBucket groupId routeId call => exact capped_after capped room _ within_
  | groupBucket groupId call => exact capped_after capped room _ within_
  | put auth address body =>
    show Capped maxStateValueBytes ((address.put h auth body).toOption.getD h).state
    cases accepted : address.put h auth body with
    | error e => exact capped
    | ok h' => exact capped_put capped accepted
  | clear auth reporting address =>
    show Capped maxStateValueBytes ((address.clear h auth reporting).toOption.getD h).state
    cases accepted : address.clear h auth reporting with
    | error e => exact capped
    | ok h' => exact capped_clear capped accepted

theorem capped_afterActs (acts : List StateAct) (capped : Capped maxStateValueBytes h.state)
    (within_ : ∀ act ∈ acts, act.SetsWithin) :
    Capped maxStateValueBytes (afterActs h acts).state := by
  induction acts generalizing h with
  | nil => exact capped
  | cons act rest ih =>
    exact ih (capped_perform capped (within_ act List.mem_cons_self))
      (fun later inside => within_ later (List.mem_cons_of_mem _ inside))

end Steps

/-- A host whose namespaces are empty. -/
def quietHost (records : Store) (ulids : holdsUlids records = true)
    (backend : Backend) : StateHost :=
  ⟨records, Storage.empty backend, ulids⟩

theorem snapshot_imports_iff [UlidText] [Messages] (records : Store)
    (ulids : holdsUlids records = true) (backend : Backend) (acts : List StateAct)
    (reporting : Reporting) {reader writer : AuthContext} {source target : StateAddress}
    {p ownerId q targetOwner : String}
    (found : source.namespace_ (afterActs (quietHost records ulids backend) acts) =
      .ok (p, ownerId))
    (mayRead : Permits reader ownerId)
    (goal : target.namespace_ (afterActs (quietHost records ulids backend) acts) =
      .ok (q, targetOwner))
    (mayWrite : Permits writer targetOwner)
    (empty : ∀ key, (afterActs (quietHost records ulids backend) acts).state.lookup
      (q ++ key) = none) :
    (∀ bytes, (WireBytes.fromBytes bytes).intoBytes = .ok bytes) ∧
      (RoundTrips (afterActs (quietHost records ulids backend) acts) reporting reader writer source
          target ↔
        Importable p (afterActs (quietHost records ulids backend) acts).state) ∧
      ((∀ act ∈ acts, act.SetsWithin) →
        (RoundTrips (afterActs (quietHost records ulids backend) acts) reporting reader writer
            source target ↔
          snapshotSize (bytesEntries p (afterActs (quietHost records ulids backend) acts).state) ≤
            maxApiBodyBytes)) := by
  have exact_ : RoundTrips (afterActs (quietHost records ulids backend) acts)
      reporting reader writer
      source target ↔ Importable p (afterActs (quietHost records ulids backend) acts).state :=
    roundTrips_iff found mayRead goal mayWrite empty
  refine ⟨WireBytes.into_from, exact_, ?_⟩
  intro within_
  have start : Capped maxStateValueBytes (quietHost records ulids backend).state := by
    intro k b there
    rw [quietHost, Storage.lookup_empty] at there
    cases there
  have capped := capped_afterActs acts start within_
  rw [exact_, Importable, and_iff_right]
  intro key b there
  exact capped _ b (held_eq_some.mp there)

/-! Sample runs -/

namespace Sample

instance messages : Messages := ⟨fun s => "\"" ++ s ++ "\"", fun _ => "Invalid padding"⟩

def inOrder : Reporting := ⟨id, mem_as_held⟩

def stateRecords : Store :=
  (run (createRoute (route "shop" "/a" "one" "ann") ⟨idB, idC⟩ 1 draw)
    (run (createGroup (group "shop" "ann") idA 0 draw) (Storage.empty .inMemory)).2).2

theorem stateRecords_ulids : holdsUlids stateRecords = true := by decide +kernel

def keeper : AuthContext := ⟨"ann", "ann@example.com", false, .token, idD⟩

def source : StateAddress := .route "shop" 1

def target : StateAddress := .group "shop"

/-- A handler of the route stores a value. -/
def stores (value : Bytes) : List StateAct := [.routeBucket idA idC (.set "greeting" value)]

def storing (value : Bytes) : StateHost :=
  afterActs (quietHost stateRecords stateRecords_ulids .inMemory) (stores value)

theorem source_found (value : Bytes) :
    source.namespace_ (storing value) = .ok (routeBucket idA idC, "ann") := by
  have there : (source.namespace_ (quietHost stateRecords stateRecords_ulids .inMemory)).toOption =
      some (routeBucket idA idC, "ann") := by decide +kernel
  refine (namespace_of_state (quietHost stateRecords stateRecords_ulids .inMemory)
    source _).trans ?_
  cases answer : source.namespace_ (quietHost stateRecords stateRecords_ulids .inMemory) with
  | error e =>
    rw [answer] at there
    cases there
  | ok found =>
    rw [answer] at there
    exact congrArg Except.ok (Option.some.inj there)

theorem target_found (value : Bytes) :
    target.namespace_ (storing value) = .ok (groupBucket idA, "ann") := by
  have there : (target.namespace_ (quietHost stateRecords stateRecords_ulids .inMemory)).toOption =
      some (groupBucket idA, "ann") := by decide +kernel
  refine (namespace_of_state (quietHost stateRecords stateRecords_ulids .inMemory)
    target _).trans ?_
  cases answer : target.namespace_ (quietHost stateRecords stateRecords_ulids .inMemory) with
  | error e =>
    rw [answer] at there
    cases there
  | ok found =>
    rw [answer] at there
    exact congrArg Except.ok (Option.some.inj there)

theorem bucket_apart (groupUlid groupUlid' routeUlid key key' : String) :
    groupBucket groupUlid ++ key ≠ routeBucket groupUlid' routeUlid ++ key' := by
  intro same
  have chars := congrArg (fun s => s.toList.head?) same
  simp [groupBucket, groupBucketUnder, routeBucket, routeBucketUnder] at chars

theorem target_empty (value : Bytes) (key : String) :
    (storing value).state.lookup (groupBucket idA ++ key) = none := by
  have apart := bucket_apart idA idA idC key "greeting"
  show ((Storage.empty .inMemory : Backing).replace (routeBucket idA idC ++ "greeting")
    (.bytes value) none).lookup _ = none
  rw [Storage.lookup_replace, if_neg apart, Storage.lookup_empty]

theorem source_held (value : Bytes) :
    held (routeBucket idA idC) (storing value).state "greeting" = some value := by
  apply held_eq_some.mpr
  show ((Storage.empty .inMemory : Backing).replace (routeBucket idA idC ++ "greeting")
    (.bytes value) none).lookup _ = _
  rw [Storage.lookup_replace, if_pos rfl]

end Sample

theorem snapshot_imports_iff_greeting :
    RoundTrips (Sample.storing [104, 105]) Sample.inOrder Sample.keeper Sample.keeper Sample.source
      Sample.target := by
  have small : snapshotSize (bytesEntries (routeBucket Sample.idA Sample.idC)
      (Sample.storing [104, 105]).state) ≤ maxApiBodyBytes := by decide +kernel
  have fits : ∀ act ∈ Sample.stores [104, 105], act.SetsWithin := by
    intro act inside
    rw [List.mem_singleton.mp inside]
    show [104, 105].length ≤ maxStateValueBytes
    decide
  exact ((snapshot_imports_iff Sample.stateRecords Sample.stateRecords_ulids .inMemory
    (Sample.stores [104, 105]) Sample.inOrder (Sample.source_found _) (Or.inl rfl)
    (Sample.target_found _) (Or.inl rfl) (Sample.target_empty _)).2.2 fits).mpr small

/-- A handler has stored one byte more than an import takes. -/
theorem large_value_not_imported :
    ¬ RoundTrips (Sample.storing (List.replicate (maxStateValueBytes + 1) 97)) Sample.inOrder
      Sample.keeper Sample.keeper Sample.source Sample.target := by
  intro restored
  have importable := (roundTrips_iff (Sample.source_found _) (Or.inl rfl) (Sample.target_found _)
    (Or.inl rfl) (Sample.target_empty _)).mp restored
  have short := importable.1 "greeting" _ (Sample.source_held _)
  rw [List.length_replicate] at short
  omega

end WireMirage
