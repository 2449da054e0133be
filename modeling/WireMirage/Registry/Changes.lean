import WireMirage.Store.Commands
import WireMirage.Registry.Effects

/-!
The states the writing operations of the registry leave, as total functions of the
state before, and the runs that lead to them.
-/
namespace WireMirage
open Prog

/-! Group records -/

/-- The fields of a group record over those a hash already has. -/
def encodeGroup (g : Group) (h : Fields Val) : Fields Val :=
  (((((((h.insert "id" (.text g.id)).insert "name" (.text g.name)).insert
    "implicit" (.flag g.implicit)).insert "created_at" (.time g.createdAt)).insert
    "owner_id" (.text g.ownerId)).insert "ttl_seconds" (.int g.ttlSeconds)).insert
    "sliding_ttl" (.flag g.slidingTtl)).insert "callout_enabled" (.flag g.calloutEnabled)

def groupWritten (s : Store) (g : Group) : Store :=
  (((s.putHash (.group g.id) (encodeGroup g (s.hashAt (.group g.id)))).put
    (.groupByName g.name) (.text g.id) none).addMember (.groupOwner g.ownerId) g.id).addMember
    .groupAll g.id

def groupArmed (s : Store) (gid name : String) (ttl : Nat) : Store :=
  ttlArmed (ttlArmed s (.group gid) ttl) (.groupByName name) ttl

def groupCreated (s : Store) (g : Group) : Store :=
  groupArmed (groupWritten s g) g.id g.name g.ttlSeconds

theorem flag_reads (b : Bool) : ∃ s, Val.flag b = .text s ∧ b = (s = "1" : Bool) := by
  cases b
  · exact ⟨"0", rfl, by decide⟩
  · exact ⟨"1", rfl, by decide⟩

theorem encode_group_fields (g : Group) (h : Fields Val) (bound : g.ttlSeconds < u64Size)
    (active : h.lookup "last_activity_at" = g.lastActivityAt.map .time) :
    GroupFields (encodeGroup g h) g where
  id := by simp [encodeGroup]
  name := by simp [encodeGroup]
  implicit := by
    obtain ⟨s, written, read⟩ := flag_reads g.implicit
    exact ⟨s, by simp [encodeGroup, written], read⟩
  createdAt := by simp [encodeGroup]
  ownerId := by simp [encodeGroup]
  ttlSeconds := by simp [encodeGroup, bound]
  slidingTtl := by
    obtain ⟨s, written, read⟩ := flag_reads g.slidingTtl
    exact ⟨s, by simp [encodeGroup, written], read⟩
  calloutEnabled := by
    obtain ⟨s, written, read⟩ := flag_reads g.calloutEnabled
    have reads : (Val.flag g.calloutEnabled).utf8 = some s := by rw [written]; rfl
    simp only [encodeGroup, lookup_insert, if_true, Option.bind_some, reads, Option.some.injEq]
    exact read
  lastActivityAt := by simp [encodeGroup, active]

/-! Route records -/

/-- The fields of a route record over those a hash already has. -/
def encodeRoute (r : Route) (h : Fields Val) : Fields Val :=
  let before := ((((((((h.insert "id" (.text r.id)).insert "group_id" (.text r.groupId)).insert
    "group_name" (.text r.groupName)).insert "number" (.int r.number)).insert
    "methods" (.methods r.methods)).insert "path" (.text r.path)).insert
    "language" (.text r.language)).insert "bindings_version" (.text r.bindingsVersion)).insert
    "compiled_wasm" (.blob r.compiledWasm)
  let sourced : Fields Val := match r.source with
    | some src => before.insert "source" (.text src)
    | none => before.erase "source"
  (sourced.insert "created_at" (.time r.createdAt)).insert "owner_id" (.text r.ownerId)

theorem encode_route_fields (r : Route) (h : Fields Val) (bound : r.number < u32Size)
    (hits : HitsField h r.hitsTotal)
    (last : h.lookup "last_hit_at" = r.lastHitAt.map .time) :
    RouteFields (encodeRoute r h) r := by
  unfold HitsField at hits
  cases origin : r.source with
  | none =>
    constructor <;> simp [encodeRoute, origin, bound, last, HitsField, hits]
  | some src =>
    constructor <;>
      simp [encodeRoute, origin, bound, last, HitsField, hits, Val.utf8]

/-- A route's record and every index that leads to it. -/
def routeStored (s : Store) (r : Route) : Store :=
  ((((s.putHash (.route r.id) (encodeRoute r (s.hashAt (.route r.id)))).put
    (.routeByNumber r.groupId r.number) (.text r.id) none).addMember
    (.routeInGroup r.groupId) r.id).addMember .routeAll r.id).addMember
    (.routeByOwner r.ownerId) r.id

/-- The group's count of routes goes up to `n`. -/
def routeCounted (s : Store) (gid : String) (n : Int) : Store :=
  s.putHash (.groupCounters gid)
    ((s.hashAt (.groupCounters gid)).insert "next_route_number" (.int n))

def indexesStripped (s : Store) (r : Route) : Store :=
  (((s.erase (.routeByNumber r.groupId r.number)).dropMember (.routeInGroup r.groupId)
    r.id).dropMember .routeAll r.id).dropMember (.routeByOwner r.ownerId) r.id

def routeDeleted (s : Store) (rid : String) (r : Route) : Store :=
  ((indexesStripped s r).without (KeyPrefix.kvRoute r.groupId r.id).covers).dropFields
    (.route rid) deletedRouteFields

def strippedIfRead (s : Store) (rid : String) : Store :=
  match routeAnswer s rid with
  | .ok r => indexesStripped s r
  | .error _ => s

/-- What the deletion of a group does to one of its routes. -/
def routeCascaded (gid rid : String) (s : Store) : Store :=
  (((strippedIfRead s rid).without (KeyPrefix.kvRoute gid rid).covers).dropFields (.route rid)
    cascadedRouteFields).dropMember .routeAll rid

/-- What the deletion of a group does to its record and the record's indexes. -/
def recordCascaded (gid : String) (s : Store) : Option Group → Store
  | none => s
  | some g => ((s.erase (.groupByName g.name)).dropMember (.groupOwner g.ownerId) gid).dropFields
      (.group gid) cascadedGroupFields

def namespacesErased (gid : String) (s : Store) : Store :=
  ((((s.erase (.routeInGroup gid)).without (KeyPrefix.gkv gid).covers).without
    (KeyPrefix.journal gid).covers).without (KeyPrefix.journalByNumber gid).covers).erase
    (.groupCounters gid)

def groupCascaded (gid : String) (found : Option Group) (s : Store) : Store :=
  (recordCascaded gid (namespacesErased gid
    ((s.setAt (.routeInGroup gid)).foldl (fun t rid => routeCascaded gid rid t) s))
    found).dropMember .groupAll gid

def nameMoved (s : Store) (gid : String) (g : Group) (newName : String) : Store :=
  ttlArmed (((s.putHash (.group gid)
    ((s.hashAt (.group gid)).insert "name" (.text newName))).erase (.groupByName g.name)).put
    (.groupByName newName) (.text gid) none) (.groupByName newName) g.ttlSeconds

def routeRenamed (newName : String) (r : Route) (s : Store) : Store :=
  s.putHash (.route r.id) ((s.hashAt (.route r.id)).insert "group_name" (.text newName))

def groupRenamed (s : Store) (gid : String) (g : Group) (newName : String)
    (routes : List Route) : Store :=
  routes.foldl (fun t r => routeRenamed newName r t) (nameMoved s gid g newName)

/-- One field of a hash rewritten, when there is a value for it. -/
def fieldPatched {A : Type} (k : Key) (field : String) (encode : A → Val) (s : Store) :
    Option A → Store
  | none => s
  | some a => s.putHash k ((s.hashAt k).insert field (encode a))

def sourcePatched (k : Key) (s : Store) : Option (Option String) → Store
  | none => s
  | some (some src) => s.putHash k ((s.hashAt k).insert "source" (.text src))
  | some none => s.dropField k "source"

def routePatched (s : Store) (rid : String) (patch : PatchRoute) (newPath : String) : Store :=
  let key := Key.route rid
  let s := fieldPatched key "methods" .methods s patch.methods
  let s := fieldPatched key "path" .text s (patch.path.map (fun _ => newPath))
  let s := fieldPatched key "language" .text s patch.language
  let s := fieldPatched key "bindings_version" .text s patch.bindingsVersion
  let s := fieldPatched key "compiled_wasm" .blob s patch.compiledWasm
  sourcePatched key s patch.source

/-- What `recordRouteHit` writes first, and what it writes once the count went through. -/
def hitStamped (s : Store) (rid : String) (now : Time) : Store :=
  s.putHash (.route rid) ((s.hashAt (.route rid)).insert "last_hit_at" (.time now))

def hitCounted (s : Store) (rid : String) (n : Int) : Store :=
  s.putHash (.route rid) ((s.hashAt (.route rid)).insert "hits_total" (.int n))

def activityStamped (s : Store) (gid : String) (now : Time) : Store :=
  s.putHash (.group gid) ((s.hashAt (.group gid)).insert "last_activity_at" (.time now))

def ttlPatched (s : Store) (gid : String) (g : Group) : Option Nat → Store
  | none => s
  | some ttl => groupArmed
      (s.putHash (.group gid) ((s.hashAt (.group gid)).insert "ttl_seconds" (.int ttl)))
      gid g.name ttl

def groupPatched (s : Store) (gid : String) (g : Group) (ttl : Option Nat)
    (sliding callout : Option Bool) : Store :=
  fieldPatched (.group gid) "callout_enabled" .flag
    (fieldPatched (.group gid) "sliding_ttl" .flag (ttlPatched s gid g ttl) sliding) callout

def stateCleared (s : Store) (gid : String) : Store :=
  (s.without (KeyPrefix.kvGroup gid).covers).without (KeyPrefix.gkv gid).covers

def journalCleared (s : Store) (gid : String) : Store :=
  ((s.without (KeyPrefix.journal gid).covers).without
    (KeyPrefix.journalByNumber gid).covers).erase (.groupCounters gid)

/-- Byte values stored under keys of a handler's namespace. -/
def statePut (key : String → Key) (s : Store) (state : List (String × Bytes)) : Store :=
  state.foldl (fun t e => t.put (key e.1) (.blob e.2) none) s

/-! Runs. Each step needs and keeps that every key holds values of its own kind. -/

section Commands
variable {s : Store} {k : Key}

theorem leads_deleteWithPrefix {p : KeyPrefix} :
    Leads Storage.WellKinded (Bucket.deleteWithPrefix p : Reg Nat) s
      (s.entries.keys.filter p.covers).length (s.without p.covers) :=
  fun wk => ⟨run_deleteWithPrefix p, Storage.wellKinded_without wk _⟩

theorem leads_clearFields {fields : List String} (family : k.family = some .hash) :
    Leads Storage.WellKinded (clearFields k fields) s () (s.dropFields k fields) :=
  fun wk => ⟨run_clearFields fields s wk family,
    Storage.wellKinded_dropFields wk (by simpa using family) fields⟩

theorem leads_armGroupTtl {ttl : Nat} :
    Leads Storage.WellKinded (armGroupTtl k ttl) s () (ttlArmed s k ttl) := by
  intro wk
  refine ⟨?_, Storage.wellKinded_arm wk _⟩
  unfold armGroupTtl ttlArmed
  by_cases never : ttl = 0
  · simp [never]
  · simp [never]

end Commands

section Runs
variable {s : Store}

theorem leads_writeGroup (g : Group) :
    Leads Storage.WellKinded (writeGroup g) s () (groupWritten s g) := by
  apply Leads.ends
  · unfold writeGroup
    exact (leads_hashSet rfl).bind <| (leads_hashSet rfl).bind <| (leads_hashSet rfl).bind <|
      (leads_hashSet rfl).bind <| (leads_hashSet rfl).bind <| (leads_hashSet rfl).bind <|
      (leads_hashSet rfl).bind <| (leads_hashSet rfl).bind <| (leads_set rfl).bind <|
      (leads_setAdd rfl).bind <| leads_setAdd rfl
  · simp [groupWritten, encodeGroup]

theorem leads_armGroupTtls (gid name : String) (ttl : Nat) :
    Leads Storage.WellKinded (armGroupTtls gid name ttl) s () (groupArmed s gid name ttl) := by
  unfold armGroupTtls
  exact leads_armGroupTtl.bind leads_armGroupTtl

/-- A field cleared from a hash that keeps others. -/
theorem dropField_putHash (k : Key) (h : Fields Val) (f f' : String)
    (kept : ((h.erase f).lookup f').isSome) :
    (s.putHash k h).dropField k f = s.putHash k (h.erase f) := by
  have full : (h.erase f).entries.isEmpty = false := by
    cases vacant : (h.erase f).entries.isEmpty with
    | false => rfl
    | true => simp [lookup_of_isEmpty vacant f'] at kept
  have present : (s.putHash k h).lookup k = some (.hash h) := by
    simp [Storage.putHash, Storage.lookup_write]
  have nonempty : ¬ ((s.putHash k h).backend = .valkey ∧ (MemValue.hash (h.erase f)).isEmpty) := by
    simp [MemValue.isEmpty, full]
  unfold Storage.dropField Storage.writeBack
  rw [if_neg (by simp [present]), Storage.hashAt_putHash, if_pos rfl, if_neg nonempty]
  exact Storage.putHash_putHash s k h (h.erase f)

theorem leads_writeRoute (r : Route) :
    Leads Storage.WellKinded (writeRoute r) s ()
      (s.putHash (.route r.id) (encodeRoute r (s.hashAt (.route r.id)))) := by
  cases origin : r.source with
  | some src =>
    apply Leads.ends
    · unfold writeRoute
      simp only [origin]
      exact (leads_hashSet rfl).bind <| (leads_hashSet rfl).bind <| (leads_hashSet rfl).bind <|
        (leads_hashSet rfl).bind <| (leads_hashSet rfl).bind <| (leads_hashSet rfl).bind <|
        (leads_hashSet rfl).bind <| (leads_hashSet rfl).bind <| (leads_hashSet rfl).bind <|
        (leads_hashSet rfl).bind <| (leads_hashSet rfl).bind <| leads_hashSet rfl
    · simp [encodeRoute, origin]
  | none =>
    apply Leads.ends
    · unfold writeRoute
      simp only [origin]
      exact (leads_hashSet rfl).bind <| (leads_hashSet rfl).bind <| (leads_hashSet rfl).bind <|
        (leads_hashSet rfl).bind <| (leads_hashSet rfl).bind <| (leads_hashSet rfl).bind <|
        (leads_hashSet rfl).bind <| (leads_hashSet rfl).bind <| (leads_hashSet rfl).bind <|
        (leads_hashDelete rfl).bind <| (leads_hashSet rfl).bind <| leads_hashSet rfl
    · simp only [Storage.putHash_putHash, Storage.hashAt_putHash, if_true]
      rw [dropField_putHash _ _ _ "id" (by simp)]
      simp [encodeRoute, origin]

theorem leads_storeRoute (r : Route) :
    Leads Storage.WellKinded (storeRoute r) s () (routeStored s r) := by
  unfold storeRoute routeStored
  exact (leads_writeRoute r).bind <| (leads_set rfl).bind <| (leads_setAdd rfl).bind <|
    (leads_setAdd rfl).bind <| leads_setAdd rfl

theorem leads_stripRouteIndexes (r : Route) :
    Leads Storage.WellKinded (stripRouteIndexes r) s () (indexesStripped s r) := by
  unfold stripRouteIndexes indexesStripped
  exact leads_delete.bind <| (leads_setRemove rfl).bind <| (leads_setRemove rfl).bind <|
    leads_setRemove rfl

theorem leads_removeRoute (rid : String) (r : Route) :
    Leads Storage.WellKinded (removeRoute rid r) s () (routeDeleted s rid r) := by
  unfold removeRoute routeDeleted
  exact (leads_stripRouteIndexes r).bind <| leads_deleteWithPrefix.bind <| leads_clearFields rfl

theorem leads_stripIfRead (rid : String) :
    Leads Storage.WellKinded (stripIfRead rid) s () (strippedIfRead s rid) := by
  intro wk
  unfold stripIfRead strippedIfRead
  rw [run_bind, run_attempt, run_readRoute wk, andThen_ok]
  cases routeAnswer s rid with
  | error e => exact ⟨rfl, wk⟩
  | ok r => exact leads_stripRouteIndexes r wk

theorem leads_cascadeRoute (gid rid : String) :
    Leads Storage.WellKinded (cascadeRoute gid rid) s () (routeCascaded gid rid s) := by
  unfold cascadeRoute routeCascaded
  exact (leads_stripIfRead rid).bind <| leads_deleteWithPrefix.bind <|
    (leads_clearFields rfl).bind <| leads_setRemove rfl

theorem wellKinded_namespacesErased (wk : s.WellKinded) (gid : String) :
    (namespacesErased gid s).WellKinded :=
  Storage.wellKinded_erase <| Storage.wellKinded_without (Storage.wellKinded_without
    (Storage.wellKinded_without (Storage.wellKinded_erase wk) _) _) _

theorem leads_cascadeRecord (gid : String) (found : Option Group) :
    Leads Storage.WellKinded (cascadeRecord gid found) s () (recordCascaded gid s found) := by
  cases found with
  | none => exact Leads.pure
  | some g =>
    exact leads_delete.bind <| (leads_setRemove rfl).bind <| leads_clearFields rfl

/-- What remains of the deletion of a group once its record has been read. -/
def cascadeFound (gid : String) (found : Option Group) : Reg Nat := do
  let routeIds ← Bucket.setMembers (.routeInGroup gid)
  Prog.forEach routeIds (cascadeRoute gid)
  Bucket.delete (.routeInGroup gid)
  let _ ← Bucket.deleteWithPrefix (.gkv gid)
  let _ ← Bucket.deleteWithPrefix (.journal gid)
  let _ ← Bucket.deleteWithPrefix (.journalByNumber gid)
  Bucket.delete (.groupCounters gid)
  cascadeRecord gid found
  Bucket.setRemove .groupAll gid
  return routeIds.length

theorem leads_cascadeFound (gid : String) (found : Option Group) :
    Leads Storage.WellKinded (cascadeFound gid found) s (s.setAt (.routeInGroup gid)).length
      (groupCascaded gid found s) := by
  have members : Leads Storage.WellKinded (Bucket.setMembers (.routeInGroup gid) : Reg _) s
      (s.setAt (.routeInGroup gid)) s := fun wk => ⟨run_setMembers wk rfl, wk⟩
  unfold cascadeFound groupCascaded namespacesErased
  exact members.bind <|
    (Leads.forEach (fun rid _ t => leads_cascadeRoute gid rid)).bind <|
    leads_delete.bind <| leads_deleteWithPrefix.bind <| leads_deleteWithPrefix.bind <|
    leads_deleteWithPrefix.bind <| leads_delete.bind <| (leads_cascadeRecord gid found).bind <|
    (leads_setRemove rfl).bind Leads.pure

theorem leads_patchField {A : Type} {k : Key} (family : k.family = some .hash) (field : String)
    (encode : A → Val) (o : Option A) :
    Leads Storage.WellKinded (patchField k field encode o) s ()
      (fieldPatched k field encode s o) := by
  cases o with
  | none => exact Leads.pure
  | some a => exact leads_hashSet family

theorem leads_patchSource {k : Key} (family : k.family = some .hash)
    (o : Option (Option String)) :
    Leads Storage.WellKinded (patchSource k o) s () (sourcePatched k s o) := by
  rcases o with _ | _ | src
  · exact Leads.pure
  · exact leads_hashDelete family
  · exact leads_hashSet family

theorem leads_moveName (gid : String) (g : Group) (newName : String) :
    Leads Storage.WellKinded (moveName gid g newName) s () (nameMoved s gid g newName) := by
  unfold moveName nameMoved
  exact (leads_hashSet rfl).bind <| leads_delete.bind <| (leads_set rfl).bind leads_armGroupTtl

theorem wellKinded_routePatched (wk : s.WellKinded) (rid : String) (patch : PatchRoute)
    (path : String) : (routePatched s rid patch path).WellKinded := by
  have field : ∀ {A : Type} (t : Store) (name : String) (encode : A → Val) (o : Option A),
      t.WellKinded → (fieldPatched (.route rid) name encode t o).WellKinded :=
    fun t name encode o h => (leads_patchField (s := t) rfl name encode o h).2
  unfold routePatched
  exact (leads_patchSource rfl patch.source (field _ _ _ _ (field _ _ _ _ (field _ _ _ _
    (field _ _ _ _ (field _ _ _ _ wk)))))).2

theorem wellKinded_routeRenamed (wk : s.WellKinded) (newName : String) (r : Route) :
    (routeRenamed newName r s).WellKinded :=
  Storage.wellKinded_putHash wk (by simp) _

theorem leads_renameAll (newName : String) (routes : List Route) :
    Leads Storage.WellKinded
      (Prog.forEach routes
        (fun route => Bucket.hashSet (.route route.id) "group_name" (.text newName)) : Reg Unit)
      s () (routes.foldl (fun t r => routeRenamed newName r t) s) :=
  Leads.forEach (fun _ _ _ => leads_hashSet rfl)

theorem leads_clearGroupState (gid : String) :
    Leads Storage.WellKinded (clearGroupState gid) s () (stateCleared s gid) :=
  leads_deleteWithPrefix.bind <| leads_deleteWithPrefix.bind Leads.pure

theorem leads_clearGroupJournal (gid : String) :
    Leads Storage.WellKinded (clearGroupJournal gid) s () (journalCleared s gid) :=
  leads_deleteWithPrefix.bind <| leads_deleteWithPrefix.bind leads_delete

end Runs

end WireMirage
