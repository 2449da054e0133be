import WireMirage.Records

/-!
When a hash decodes: the records and the fields they are read from, as relations
that updates of single fields keep.
-/
namespace WireMirage

section Fields
variable {fields : Fields Val} {name : String}

theorem val_utf8_iff {v : Val} {s : String} : v.utf8 = some s ↔ v = .text s := by
  cases v <;> simp [Val.utf8]

theorem parse_below_iff {v : Val} {bound n : Nat} :
    v.parseBelow bound = some n ↔ v = .int n ∧ n < bound := by
  cases v with
  | int i =>
    simp only [Val.parseBelow, Option.ite_none_right_eq_some, Option.some.injEq, Val.int.injEq]
    omega
  | _ => simp [Val.parseBelow]

theorem utf8_ok_iff {s : String} :
    utf8 fields name = .ok s ↔ fields.lookup name = some (.text s) := by
  unfold utf8
  cases fields.lookup name with
  | none => simp
  | some v =>
    rw [Option.some.injEq, ← val_utf8_iff]
    cases read : v.utf8 <;> simp [read]

theorem required_ts_ok_iff {t : Time} :
    requiredTs fields name = .ok t ↔ fields.lookup name = some (.time t) := by
  unfold requiredTs
  cases fields.lookup name with
  | none => simp
  | some v => cases v <;> simp [parseTs]

theorem optional_ts_ok_iff {t : Option Time} :
    optionalTs fields name = .ok t ↔ fields.lookup name = t.map .time := by
  unfold optionalTs
  cases fields.lookup name with
  | none => cases t <;> simp
  | some v => cases t <;> cases v <;> simp [parseTs, Except.map]

theorem required_number_ok_iff {bound n : Nat} :
    requiredNumber fields name bound = .ok n ↔ fields.lookup name = some (.int n) ∧ n < bound := by
  unfold requiredNumber
  cases fields.lookup name with
  | none => simp
  | some v =>
    rw [Option.some.injEq, ← parse_below_iff]
    cases read : v.parseBelow bound <;> simp [read]

theorem decode_methods_ok_iff {ms : List String} :
    decodeMethods fields = .ok ms ↔ fields.lookup "methods" = some (.methods ms) := by
  unfold decodeMethods
  cases fields.lookup "methods" with
  | none => simp
  | some v => cases v <;> simp

theorem decode_wasm_ok_iff {b : Bytes} :
    decodeWasm fields = .ok b ↔ fields.lookup "compiled_wasm" = some (.blob b) := by
  unfold decodeWasm
  cases fields.lookup "compiled_wasm" with
  | none => simp
  | some v => cases v <;> simp

/-- The stored hit counter: an absent one reads as zero. -/
def HitsField (fields : Fields Val) (n : Nat) : Prop :=
  (fields.lookup "hits_total" = none ∧ n = 0) ∨
    (fields.lookup "hits_total" = some (.int n) ∧ n < u64Size)

theorem decode_hits_ok_iff {n : Nat} : decodeHits fields = .ok n ↔ HitsField fields n := by
  unfold decodeHits HitsField
  cases fields.lookup "hits_total" with
  | none => simp [eq_comm]
  | some v =>
    rw [Option.some.injEq, ← parse_below_iff]
    cases read : v.parseBelow u64Size <;> simp [read]

end Fields

/-- A hash from which a route record is read. -/
structure RouteFields (h : Fields Val) (r : Route) : Prop where
  id : h.lookup "id" = some (.text r.id)
  groupId : h.lookup "group_id" = some (.text r.groupId)
  groupName : h.lookup "group_name" = some (.text r.groupName)
  number : h.lookup "number" = some (.int r.number) ∧ r.number < u32Size
  methods : h.lookup "methods" = some (.methods r.methods)
  path : h.lookup "path" = some (.text r.path)
  language : h.lookup "language" = some (.text r.language)
  bindingsVersion : h.lookup "bindings_version" = some (.text r.bindingsVersion)
  compiledWasm : h.lookup "compiled_wasm" = some (.blob r.compiledWasm)
  source : (h.lookup "source").bind Val.utf8 = r.source
  createdAt : h.lookup "created_at" = some (.time r.createdAt)
  ownerId : h.lookup "owner_id" = some (.text r.ownerId)
  hitsTotal : HitsField h r.hitsTotal
  lastHitAt : h.lookup "last_hit_at" = r.lastHitAt.map .time

/-- A hash from which a group record is read. -/
structure GroupFields (h : Fields Val) (g : Group) : Prop where
  id : h.lookup "id" = some (.text g.id)
  name : h.lookup "name" = some (.text g.name)
  implicit : ∃ s, h.lookup "implicit" = some (.text s) ∧ g.implicit = (s = "1" : Bool)
  createdAt : h.lookup "created_at" = some (.time g.createdAt)
  ownerId : h.lookup "owner_id" = some (.text g.ownerId)
  ttlSeconds : h.lookup "ttl_seconds" = some (.int g.ttlSeconds) ∧ g.ttlSeconds < u64Size
  slidingTtl : ∃ s, h.lookup "sliding_ttl" = some (.text s) ∧ g.slidingTtl = (s = "1" : Bool)
  calloutEnabled :
    g.calloutEnabled = ((h.lookup "callout_enabled").bind Val.utf8 = some "1" : Bool)
  lastActivityAt : h.lookup "last_activity_at" = g.lastActivityAt.map .time

theorem decode_route_iff {h : Fields Val} {r : Route} :
    decodeRoute h = .ok r ↔ RouteFields h r := by
  simp only [decodeRoute, ok_bind_iff, utf8_ok_iff, required_number_ok_iff,
    decode_methods_ok_iff, decode_wasm_ok_iff, required_ts_ok_iff, decode_hits_ok_iff,
    optional_ts_ok_iff, pure, Except.pure, Except.ok.injEq]
  constructor
  · rintro ⟨_, id, _, groupId, _, groupName, _, number, _, methods, _, path, _, language, _,
      bindings, _, wasm, _, created, _, owner, _, hits, _, last, rfl⟩
    exact ⟨id, groupId, groupName, number, methods, path, language, bindings, wasm, rfl,
      created, owner, hits, last⟩
  · intro f
    refine ⟨_, f.id, _, f.groupId, _, f.groupName, _, f.number, _, f.methods, _, f.path, _,
      f.language, _, f.bindingsVersion, _, f.compiledWasm, _, f.createdAt, _, f.ownerId, _,
      f.hitsTotal, _, f.lastHitAt, ?_⟩
    simp only [utf8Opt, f.source]

theorem decode_group_iff {h : Fields Val} {g : Group} :
    decodeGroup h = .ok g ↔ GroupFields h g := by
  simp only [decodeGroup, ok_bind_iff, utf8_ok_iff, required_number_ok_iff, required_ts_ok_iff,
    optional_ts_ok_iff, pure, Except.pure, Except.ok.injEq]
  constructor
  · rintro ⟨_, id, _, name, _, implicit, _, created, _, owner, _, ttl, _, sliding, _, last, rfl⟩
    exact ⟨id, name, ⟨_, implicit, rfl⟩, created, owner, ttl, ⟨_, sliding, rfl⟩, rfl, last⟩
  · intro f
    obtain ⟨_, implicit, sameImplicit⟩ := f.implicit
    obtain ⟨_, sliding, sameSliding⟩ := f.slidingTtl
    refine ⟨_, f.id, _, f.name, _, implicit, _, f.createdAt, _, f.ownerId, _, f.ttlSeconds, _,
      sliding, _, f.lastActivityAt, ?_⟩
    unfold utf8Opt
    rw [← sameImplicit, ← sameSliding, ← f.calloutEnabled]

/-- A hash yields at most one route record. -/
theorem route_fields_unique {h : Fields Val} {r r' : Route} (one : RouteFields h r)
    (two : RouteFields h r') : r = r' := by
  have := (decode_route_iff.mpr one).symm.trans (decode_route_iff.mpr two)
  exact Except.ok.inj this

theorem group_fields_unique {h : Fields Val} {g g' : Group} (one : GroupFields h g)
    (two : GroupFields h g') : g = g' := by
  have := (decode_group_iff.mpr one).symm.trans (decode_group_iff.mpr two)
  exact Except.ok.inj this

end WireMirage
