import WireMirage.Registry.ReadBack
import WireMirage.Table.NormalForm

/-!
The paths that the registry stores: whatever calls are under way, the path under a route's key
is the text of a pattern, so it parses again.
-/
namespace WireMirage
open Prog StepMachine

/-- The path of a route is a pattern's own text. -/
def NormalPath (k : Key) (f : String) (v : Val) : Prop :=
  ∀ rid, k = .route rid → f = "path" →
    ∃ p : Pattern, Pattern.parse p.raw = .ok p ∧ v = .text p.raw

/-- A law that the record of a route keeps by its path and by the names of its fields. -/
structure PathLaw (law : Key → String → Val → Prop) : Prop where
  group : ∀ gid f v, law (.group gid) f v
  path : ∀ rid (p : Pattern), Pattern.parse p.raw = .ok p → law (.route rid) "path" (.text p.raw)
  field : ∀ rid f v, f ∈ deletedRouteFields → f ≠ "path" → law (.route rid) f v

theorem pathLaw_normal : PathLaw NormalPath where
  group _ _ _ _ same := by cases same
  path _ p parsed _ _ _ := ⟨p, parsed, rfl⟩
  field _ _ _ _ other _ _ same := absurd same other

/-! What the operations store -/

/-- Deleting a route puts no field. -/
theorem obeys_deletesRoute {law : Key → String → Val → Prop} (c : Command Key Val)
    (deletes : DeletesRoute c) : Obeys law c := by
  cases c with
  | setField k f v => exact deletes.elim
  | _ => trivial

theorem obeys_cascadesGroup {law : Key → String → Val → Prop} {gid : String}
    (c : Command Key Val) (cascades : CascadesGroup gid c) : Obeys law c := by
  cases c with
  | setField k f v => exact cascades.elim
  | _ => trivial

section Operations
variable {law : Key → String → Val → Prop} (fits : PathLaw law)
include fits

theorem obeys_group {gid f : String} {v : Val} : Obeys law (.setField (.group gid) f v) :=
  fun _ _ => fits.group gid f v

theorem obeys_field {rid f : String} {v : Val} (own : f ∈ deletedRouteFields) (other : f ≠ "path") :
    Obeys law (.setField (.route rid) f v) :=
  fun _ _ => fits.field rid f v own other

theorem obeys_path {rid raw : String} {p : Pattern} (parsed : Pattern.parse raw = .ok p) :
    Obeys law (.setField (.route rid) "path" (.text p.raw)) :=
  fun _ _ => fits.path rid p (parse_raw parsed)

theorem obeys_writesGroup {gid : String} (c : Command Key Val) (writes : WritesGroup gid c) :
    Obeys law c := by
  cases c with
  | setField k f v =>
    cases writes
    exact obeys_group fits
  | _ => trivial

omit fits in
theorem parsePath_ok {path : String} {p : Pattern} (parsed : parsePath path = .ok p) :
    Pattern.parse path = .ok p := by
  unfold parsePath at parsed
  cases read : Pattern.parse path with
  | error e => simp [read, Except.mapError] at parsed
  | ok q =>
    rw [read] at parsed
    cases parsed
    rfl

theorem obeys_storeRoute {r : Route} {raw : String} {p : Pattern}
    (parsed : Pattern.parse raw = .ok p) (path : r.path = p.raw) :
    Acts (Obeys law) (storeRoute r) := by
  have field : ∀ f v, f ∈ deletedRouteFields → f ≠ "path" →
      Acts (Obeys law) (Bucket.hashSet (.route r.id) f v : Reg Unit) :=
    fun f v own other => acts_hashSet rfl (obeys_field fits own other)
  have named : Acts (Obeys law)
      (Bucket.hashSet (.route r.id) "path" (.text r.path) : Reg Unit) := by
    rw [path]
    exact acts_hashSet rfl (obeys_path fits parsed)
  have writes : Acts (Obeys law) (writeRoute r) := by
    unfold writeRoute
    refine acts_bind _ _ (field _ _ (by decide) (by decide)) fun _ => acts_bind _ _
      (field _ _ (by decide) (by decide)) fun _ => acts_bind _ _
      (field _ _ (by decide) (by decide)) fun _ =>
      acts_bind _ _ (field _ _ (by decide) (by decide)) fun _ => acts_bind _ _
      (field _ _ (by decide) (by decide)) fun _ => acts_bind _ _ named fun _ => acts_bind _ _
      (field _ _ (by decide) (by decide)) fun _ => acts_bind _ _
      (field _ _ (by decide) (by decide)) fun _ =>
      acts_bind _ _ (field _ _ (by decide) (by decide)) fun _ => ?_
    have last := acts_bind _ _ (field "created_at" (.time r.createdAt) (by decide) (by decide))
      (fun _ => field "owner_id" (.text r.ownerId) (by decide) (by decide))
    cases r.source with
    | none => exact acts_bind _ _ (acts_hashDelete rfl trivial) (fun _ => last)
    | some src => exact acts_bind _ _ (field _ _ (by decide) (by decide)) (fun _ => last)
  exact acts_bind _ _ writes fun _ => acts_bind _ _ (acts_set rfl trivial) fun _ =>
    acts_bind _ _ (acts_setAdd rfl trivial) fun _ => acts_bind _ _ (acts_setAdd rfl trivial)
    fun _ => acts_setAdd rfl trivial

theorem obeys_createRoute [UlidText] (params : NewRoute) (ids : NewIds) (now : Time)
    (draw : Nat → Draw) : Acts (Obeys law) (createRoute params ids now draw) := by
  apply acts_afterOk
  intro pattern parsed
  refine acts_bind _ _ (acts_ofExcept _) fun _ => acts_bind _ _ ?_ fun g =>
    acts_bind _ _ (acts_scanPatternConflict _ _ _ _) fun _ =>
    acts_bind _ _ (acts_hashIncr rfl (fun _ x record => nomatch record)) fun _ =>
    acts_bind _ _ (obeys_storeRoute fits (parsePath_ok parsed) rfl) fun _ => trivial
  unfold targetGroup
  split
  · exact acts_bind _ _ (acts_resolved _) (fun gid => acts_readGroup gid)
  · exact acts_mono (obeys_writesGroup fits) _ (acts_createImplicitGroup _ _ _ _)

theorem obeys_patchField {A : Type} {rid f : String} (encode : A → Val)
    (own : f ∈ deletedRouteFields) (other : f ≠ "path") (o : Option A) :
    Acts (Obeys law) (patchField (.route rid) f encode o) := by
  cases o with
  | none => trivial
  | some a => exact acts_hashSet rfl (obeys_field fits own other)

theorem obeys_updateRoute [UlidText] (groupRef : String) (number : Nat) (patch : PatchRoute) :
    Acts (Obeys law) (updateRoute groupRef number patch) := by
  refine acts_bind _ _ (acts_routeIdBySlug groupRef number) fun rid =>
    acts_bind _ _ (acts_readRoute rid) fun r => acts_bind _ _ (acts_ofExcept _) fun methods => ?_
  apply acts_afterOk
  intro newPath patched
  have check : Acts (Obeys law) (checkPatchConflict patch r methods newPath) := by
    unfold checkPatchConflict
    split
    · exact acts_bind _ _ (acts_ofExcept _) (fun _ => acts_scanPatternConflict _ _ _ _)
    · trivial
  have path : Acts (Obeys law)
      (patchField (.route rid) "path" .text (patch.path.map (fun _ => newPath))) := by
    unfold patchedPath at patched
    cases given : patch.path with
    | none => trivial
    | some text =>
      rw [given] at patched
      cases parsed : parsePath text with
      | error e => simp [parsed, Except.map] at patched
      | ok p =>
        simp only [parsed, Except.map, Except.ok.injEq] at patched
        rw [← patched]
        exact acts_hashSet rfl (obeys_path fits (parsePath_ok parsed))
  have source : Acts (Obeys law) (patchSource (.route rid) patch.source) := by
    rcases patch.source with _ | _ | src
    · trivial
    · exact acts_hashDelete rfl trivial
    · exact acts_hashSet rfl (obeys_field fits (by decide) (by decide))
  exact acts_bind _ _ check fun _ =>
    acts_bind _ _ (obeys_patchField fits _ (by decide) (by decide) _) fun _ =>
    acts_bind _ _ path fun _ =>
    acts_bind _ _ (obeys_patchField fits _ (by decide) (by decide) _) fun _ =>
    acts_bind _ _ (obeys_patchField fits _ (by decide) (by decide) _) fun _ =>
    acts_bind _ _ (obeys_patchField fits _ (by decide) (by decide) _) fun _ =>
    acts_bind _ _ source fun _ => trivial

theorem obeys_renameGroup [UlidText] (groupRef newName : String) :
    Acts (Obeys law) (renameGroup groupRef newName) := by
  have routes (gid : String) : Acts (Obeys law) (renameRoutes gid newName) :=
    acts_bind _ _ (acts_listRoutesFrom rfl) fun rs => acts_forEach _ _
      (fun r _ => acts_hashSet rfl (obeys_field fits (by decide) (by decide)))
  refine acts_bind _ _ (acts_resolved groupRef) fun gid =>
    acts_bind _ _ (acts_readGroup gid) fun g => ?_
  split
  · trivial
  · split
    · trivial
    · refine acts_bind _ _ (acts_get rfl) fun taken => ?_
      cases taken with
      | some v => trivial
      | none =>
        refine acts_bind _ _ ?_ fun _ => acts_bind _ _ (routes gid) fun _ => trivial
        exact acts_bind _ _ (acts_hashSet rfl (obeys_group fits)) fun _ =>
          acts_bind _ _ (acts_delete trivial) fun _ => acts_bind _ _ (acts_set rfl trivial)
          fun _ => acts_armGroupTtl trivial

theorem obeys_commit [UlidText] (m : Mutation) : Acts (Obeys law) m.commit := by
  cases m with
  | createGroup params id now draw =>
    exact acts_bind _ _ (acts_mono (obeys_writesGroup fits) _ (acts_createGroup params id now draw))
      fun _ => trivial
  | createRoute params ids now draw =>
    exact acts_bind _ _ (obeys_createRoute fits params ids now draw) fun _ => trivial
  | updateRoute groupRef number patch =>
    exact acts_bind _ _ (obeys_updateRoute fits groupRef number patch) fun _ => trivial
  | deleteRoute groupRef number =>
    exact acts_bind _ _ (acts_getRouteBySlug groupRef number) fun _ =>
      acts_bind _ _ (acts_mono obeys_deletesRoute _ (acts_deleteRoute groupRef number))
        fun _ => trivial
  | renameGroup groupRef newName =>
    exact acts_bind _ _ (acts_readGroupByRef groupRef) fun g =>
      acts_bind _ _ (obeys_renameGroup fits g.id newName) fun _ => trivial
  | deleteGroup groupRef =>
    exact acts_bind _ _ (acts_readGroupByRef groupRef) fun g =>
      acts_bind _ _ (acts_mono obeys_cascadesGroup _ (acts_cascadeDeleteGroup g.id))
        fun _ => trivial

theorem obeys_recordRouteHit (gid rid : String) (now : Time) :
    Acts (Obeys law) (recordRouteHit gid rid now) :=
  acts_bind _ _ (acts_hashSet rfl (obeys_field fits (by decide) (by decide))) fun _ =>
    acts_bind _ _ (acts_hashIncr rfl (fun _ => obeys_field fits (by decide) (by decide))) fun _ =>
    acts_hashSet rfl (obeys_group fits)

theorem obeys_code [UlidText] (call : Call) : Keeps (Lawful law) call.code := by
  cases call with
  | mutation m => exact keeps_settle (keeps_obeying (obeys_commit fits m))
  | cascadeDeleteGroup gid =>
    exact keeps_settle (keeps_obeying (acts_mono obeys_cascadesGroup _
      (acts_cascadeDeleteGroup gid)))
  | activity a =>
    apply keeps_activity_of
    · rintro gid ttl sliding callout _
      exact keeps_obeying
        (acts_mono (obeys_writesGroup fits) _ (acts_patchGroup gid ttl sliding callout))
    · rintro gid rid now _
      exact keeps_obeying (obeys_recordRouteHit fits gid rid now)

end Operations

/-! Every moment of every run -/

/-- A law that every call keeps holds at every moment. -/
theorem overlapping_lawful [UlidText] {law : Key → String → Val → Prop}
    (codes : ∀ call : Call, Keeps (Lawful law) call.code)
    {c : Pool Store (Prog Store RegistryError Unit) (List String)}
    (reached : Reached overlapping (fun _ _ => True) c) : Lawful law c.shared := by
  have base : ∀ c, overlapping.start c →
      Lawful law c.shared ∧ ∀ t ∈ c.tasks, Keeps (Lawful law) t := by
    rintro c ⟨⟨b, shared, _⟩, idle⟩
    rw [shared, idle]
    exact ⟨lawful_empty b, by simp⟩
  have preserved : ∀ c a d,
      (Lawful law c.shared ∧ ∀ t ∈ c.tasks, Keeps (Lawful law) t) → True →
      overlapping.step c a = some d →
      Lawful law d.shared ∧ ∀ t ∈ d.tasks, Keeps (Lawful law) t := by
    intro c a d hold _ next
    refine programs_keep ?_ (fun seconds s kept => lawful_advance seconds kept) hold next
    intro call minted t log begun
    simp only [Option.ite_none_right_eq_some, Option.some.injEq, Prod.mk.injEq] at begun
    obtain ⟨_, rfl, _⟩ := begun
    exact codes call
  exact (reached_invariant base preserved reached).1

/-- And after any calls, one after another. -/
theorem calls_lawful [UlidText] {law : Key → String → Val → Prop}
    (codes : ∀ call : Call, Keeps (Lawful law) call.code) {s : CallState}
    (reached : Reached calls (fun _ _ => True) s) : Lawful law s.store := by
  have base : ∀ s, calls.start s → Lawful law s.store := by
    rintro _ ⟨b, rfl⟩
    exact lawful_empty b
  refine reached_invariant base ?_ reached
  intro s call t hold _ next
  simp only [calls, Option.ite_none_right_eq_some, Option.some.injEq] at next
  obtain ⟨_, rfl⟩ := next
  show Lawful law (call.perform s.store)
  rw [← run_code]
  exact keeps_run _ (codes call) s.store hold

/-- The record of a route has no fields but those that the deletion of the route clears. -/
def OwnField : Key → String → Val → Prop
  | .route _, f, _ => f ∈ deletedRouteFields
  | _, _, _ => True

theorem pathLaw_ownField : PathLaw OwnField where
  group _ _ _ := trivial
  path rid p _ := by
    show "path" ∈ deletedRouteFields
    decide
  field _ _ _ own _ := own

theorem calls_ownField [UlidText] {s : CallState} (reached : Reached calls (fun _ _ => True) s) :
    Lawful OwnField s.store :=
  calls_lawful (obeys_code pathLaw_ownField) reached

theorem overlapping_normal [UlidText]
    {c : Pool Store (Prog Store RegistryError Unit) (List String)}
    (reached : Reached overlapping (fun _ _ => True) c) : Lawful NormalPath c.shared :=
  overlapping_lawful (obeys_code pathLaw_normal) reached

theorem pattern_normal_form [UlidText] :
    (∀ (s : String) (p : Pattern), Pattern.parse s = .ok p →
      Pattern.parse p.raw = .ok p ∧ p.render = p.raw ∧
        (p.segments.filterMap Segment.paramName).Nodup ∧
        (∀ seg ∈ p.segments.dropLast, seg.isTail = false) ∧
        ∀ path, p.matchPathChecked path = some (p.matchPath path)) ∧
    ∀ c : Pool Store (Prog Store RegistryError Unit) (List String),
      Reached overlapping (fun _ _ => True) c →
      ∀ rid v, (c.shared.hashAt (.route rid)).lookup "path" = some v →
        ∃ p : Pattern, Pattern.parse p.raw = .ok p ∧ v = .text p.raw := by
  constructor
  · intro s p parsed
    exact ⟨parse_raw parsed, parse_render parsed, parse_names parsed, parse_tail_last parsed,
      matchPathChecked_eq parsed⟩
  · intro c reached rid v stored
    exact (overlapping_normal reached).fields (.route rid) rid "path" v rfl stored rid rfl rfl

namespace Sample

/-- A route of which the path is stored and the rest is not. -/
def pathStored : List (PoolAction Call Nat) :=
  .launch (.mutation (.createGroup (group "shop" "ann") idA 0 draw)) ::
    List.replicate 14 (.resume 0) ++
    .launch (.mutation (.createRoute (route "shop" "/a/{id}/" "one" "ann") ⟨idB, idC⟩ 1 draw)) ::
    List.replicate 12 (.resume 1) ++ [.outside 5]

def itemPattern : Pattern := ⟨"/a/{id}", [.literal "a", .param "id"]⟩

end Sample

theorem pattern_normal_form_item :
    (Pattern.parse "/a/{id}/" = .ok Sample.itemPattern ∧
      Sample.itemPattern.render = Sample.itemPattern.raw ∧
      Sample.itemPattern.matchPathChecked "/a/7" = some (some [("id", "7")])) ∧
    ∃ c : Pool Store (Prog Store RegistryError Unit) (List String),
      Reached overlapping (fun _ _ => True) c ∧
      (c.shared.hashAt (.route Sample.idC)).lookup "path" = some (.text "/a/{id}") ∧
      ∃ p : Pattern, Pattern.parse p.raw = .ok p ∧ Val.text "/a/{id}" = .text p.raw := by
  have parsed : Pattern.parse "/a/{id}/" = .ok Sample.itemPattern := by decide +kernel
  obtain ⟨_, rendered, _, _, reaches⟩ := pattern_normal_form.1 _ _ parsed
  have ran : ((exec overlapping ⟨Storage.empty .valkey, [], []⟩ Sample.pathStored).map (fun c =>
      (c.shared.hashAt (.route Sample.idC)).lookup "path")) = some (some (.text "/a/{id}")) := by
    decide +kernel
  obtain ⟨c, done, stored⟩ := Option.map_eq_some_iff.mp ran
  have reached := reached_of_exec (m := overlapping) Sample.pathStored
    ⟨⟨.valkey, rfl, rfl⟩, rfl⟩ done
  exact ⟨⟨parsed, rendered, (reaches "/a/7").trans (by decide +kernel)⟩,
    c, reached, stored, pattern_normal_form.2 c reached _ _ stored⟩

end WireMirage
