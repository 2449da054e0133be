import WireMirage.Api.Operations
import WireMirage.Registry.Cascading
import WireMirage.Registry.Commands

/-!
What a failed import leaves in the storage. Rolling back goes through the deletion
of the group, which does not clear every field that its creation has written.
-/
namespace WireMirage
open Prog StepMachine

/-- The record of a group still has its callout setting. -/
def Remains (gid : String) (s : Store) : Prop :=
  s.WellKinded ∧ ((s.hashAt (.group gid)).lookup "callout_enabled").isSome

def Spares (gid : String) (c : Command Key Val) : Prop :=
  c ≠ .erase (.group gid) ∧ c ≠ .dropField (.group gid) "callout_enabled"

theorem remains_apply {gid : String} (c : Command Key Val) (s : Store) (spares : Spares gid c)
    (typed : c.Typed) (remains : Remains gid s) : Remains gid (c.apply s) := by
  obtain ⟨wk, stays⟩ := remains
  refine ⟨c.wellKinded_apply typed wk, ?_⟩
  obtain ⟨notErased, notDropped⟩ := spares
  rcases Command.field_apply typed (k := .group gid) rfl s "callout_enabled" with
    ⟨v, _, set⟩ | ⟨dropped | erased, _⟩ | same
  · simp [set]
  · exact absurd dropped notDropped
  · exact absurd erased notErased
  · rw [same]
    exact stays

/-! No operation of an import takes the setting away -/

section Sparing
variable {gid : String}

theorem spares_writesGroup {id : String} (c : Command Key Val) (writes : WritesGroup id c) :
    Spares gid c := by
  cases c <;> simp_all [WritesGroup, Spares]

theorem spares_createsRoute {ids : NewIds} (c : Command Key Val) (creates : CreatesRoute ids c) :
    Spares gid c := by
  rcases creates with writes | writes
  · refine ⟨?_, ?_⟩
    · rintro rfl
      exact writes
    · rintro rfl
      exact writes
  · exact spares_writesGroup c writes

theorem spares_cascadesGroup {id : String} (c : Command Key Val) (cascades : CascadesGroup id c) :
    Spares gid c := by
  refine ⟨?_, ?_⟩
  · rintro rfl
    exact cascades
  · rintro rfl
    exact absurd cascades.2 (by decide)

theorem acts_tenancyGate [UlidText] {ok : Command Key Val → Prop} (auth : AuthContext)
    (group : Option String) : Acts ok (tenancyGate auth group) := by
  cases group with
  | none => trivial
  | some reference =>
    have reads : Acts ok (viaRegistry (readGroupByRef reference)) :=
      acts_mapError _ _ (acts_bind _ _ (acts_resolved reference) acts_readGroup)
    apply acts_bind _ _ (acts_attempt _ reads)
    rintro (e | g)
    · trivial
    · show Acts ok (if _ then pure () else Prog.fail _)
      split <;> trivial

theorem acts_precheck [UlidText] {ok : Command Key Val → Prop} (group : Option String)
    (methods : List String) (path : String) :
    Acts ok (precheckCreateConflict group methods path) := by
  refine acts_bind _ _ (acts_ofExcept _) fun pattern => acts_bind _ _ (acts_ofExcept _) fun ms => ?_
  cases group with
  | none => trivial
  | some reference =>
    apply acts_bind _ _ (acts_resolveGroup reference)
    rintro (_ | id)
    · trivial
    · exact acts_scanPatternConflict _ _ _ _

theorem acts_createRouteCore [UlidText] (transpile : String → Except String String)
    (auth : AuthContext) (body : CreateRouteBody) (drawn : RouteDraws) :
    Acts (CreatesRoute drawn.ids) (createRouteCore transpile auth body drawn) :=
  acts_bind _ _ (acts_tenancyGate auth body.group) fun _ =>
    acts_bind _ _ (acts_mapError _ _ (acts_precheck _ _ _)) fun _ =>
    acts_bind _ _ (acts_ofExcept _) fun _ =>
    acts_mapError _ _ (acts_createRoute _ drawn.ids drawn.now drawn.draw)

theorem acts_importRoutes [UlidText] (transpile : String → Except String String)
    (auth : AuthContext) (group : Group) (draws : Nat → RouteDraws) (routes : List NormalizedRoute)
    (idx : Nat) : Acts (Spares gid) (importRoutes transpile auth group draws idx routes) := by
  induction routes generalizing idx with
  | nil => trivial
  | cons r rest ih =>
    have creates : Acts (Spares gid)
        (createRouteCore transpile auth (importBody group r) (draws idx)) :=
      acts_mono spares_createsRoute _ (acts_createRouteCore transpile auth _ (draws idx))
    apply acts_bind _ _ (acts_attempt _ creates)
    rintro (e | route)
    · have cascades : Acts (Spares gid) (cascadeDeleteGroup group.id) :=
        acts_mono spares_cascadesGroup _ (acts_cascadeDeleteGroup group.id)
      exact acts_bind _ _ (acts_attempt _ (acts_mapError _ _ cascades)) (fun _ => trivial)
    · exact ih (idx + 1)

theorem acts_patchImported (group : Group) (callout : Option Bool) :
    Acts (Spares gid) (patchImported group callout) := by
  cases callout with
  | none => trivial
  | some flag =>
    have patches : Acts (Spares gid) (patchGroup group.id none none (some flag)) :=
      acts_mono spares_writesGroup _ (acts_patchGroup group.id none none (some flag))
    exact acts_bind _ _ (acts_mapError _ _ patches) (fun _ => trivial)

end Sparing

/-! When a group is created -/

/-- The import is refused before its group exists. -/
def RefusedAtOnce (s : Store) (spec : GroupSpec) : Prop :=
  ∀ n, normalize spec = .ok n → ¬ isValidLabel n.name ∨
    (s.bytesAt (.groupByName n.name)).isSome ∨
    maxGroupTtlSeconds < n.ttlSeconds.getD defaultGroupTtlSeconds

theorem createGroup_refused {s : Store} (wk : s.WellKinded) (params : NewGroup) (id : String)
    (now : Time) (draw : Nat → Draw) (named : isBlank params.name = false) :
    (∃ e, run (createGroup params id now draw) s = (.error e, s)) ↔
      ¬ isValidLabel params.name ∨ (s.bytesAt (.groupByName params.name)).isSome ∨
        maxGroupTtlSeconds < params.ttlSeconds.getD defaultGroupTtlSeconds := by
  unfold createGroup newGroupName
  rw [if_neg (by simp [named])]
  by_cases valid : isValidLabel params.name
  · rw [if_neg (by simp [valid])]
    simp only [run_bind, run_get wk (k := .groupByName params.name) rfl, andThen_ok]
    cases taken : s.bytesAt (.groupByName params.name) with
    | some v => simp
    | none =>
      simp only [run_pure, andThen_ok, normalizeTtl, valid, not_true_eq_false,
        Option.isSome_none, Bool.false_eq_true, false_or]
      by_cases long : maxGroupTtlSeconds < params.ttlSeconds.getD defaultGroupTtlSeconds
      · simp [long]
      · simp [long, (leads_storeGroup _).run_eq wk]
  · rw [if_pos valid]
    simp [valid]

theorem normalize_named {spec : GroupSpec} {n : NormalizedSpec} (ok : normalize spec = .ok n) :
    isBlank n.name = false := by
  unfold normalize at ok
  split at ok
  · cases ok
  · rename_i named
    obtain ⟨ttl, _, ok⟩ := ok_bind_iff.mp ok
    obtain ⟨routes, _, ok⟩ := ok_bind_iff.mp ok
    cases ok
    simpa using named

/-- The import after its group has been created. -/
theorem remains_after_create [UlidText] (transpile : String → Except String String)
    (auth : AuthContext) {n : NormalizedSpec} {drawn : ImportDraws} {s : Store} {g : Group}
    (wk : s.WellKinded) (owner : String) (fresh : FreshGroup s drawn.groupId owner g) :
    Remains drawn.groupId (run (patchImported g n.callout >>= fun _ =>
      importRoutes transpile auth g drawn.routes 0 n.routes >>= fun _ =>
      (pure ⟨g.name, n.routes.length⟩ : Api ImportSummary)) (groupCreated s g)).2 := by
  apply keeps_run
  · apply keeps_of_acts (fun t remains => remains.1)
      (fun c t spares typed remains => remains_apply c t spares typed remains)
    exact acts_bind _ _ (acts_patchImported g n.callout) fun _ =>
      acts_bind _ _ (acts_importRoutes transpile auth g drawn.routes n.routes 0) fun _ => trivial
  · refine ⟨((leads_storeGroup g) wk).2, ?_⟩
    rw [← fresh.id]
    simp [groupCreated, groupArmed, ttlArmed, groupWritten, encodeGroup]

/-- An import that fails leaves the storage as it was exactly when it is refused at once. -/
theorem failed_import_unchanged [UlidText] (transpile : String → Except String String)
    (s : CallState) (reached : Reached calls (fun _ _ => True) s) (auth : AuthContext)
    (spec : GroupSpec) (drawn : ImportDraws) (new : drawn.groupId ∉ s.minted) (e : ApiError)
    (t : Store)
    (failed : run (importGroupCore transpile auth spec drawn) s.store = (.error e, t)) :
    (∀ k, content t k = content s.store k) ↔ RefusedAtOnce s.store spec := by
  obtain ⟨c, stored⟩ := calls_stored reached
  have wk := stored.consistent.represents.kinded
  unfold importGroupCore at failed
  rw [run_bind, run_ofExcept] at failed
  unfold RefusedAtOnce
  cases normal : normalize spec with
  | error bad =>
    rw [normal] at failed
    cases failed
    simp
  | ok n =>
    rw [normal] at failed
    simp only [Except.mapError, andThen_ok, run_bind, viaRegistry, run_mapError] at failed
    have refused := createGroup_refused wk
      ⟨n.name, auth.userId, n.ttlSeconds, n.sliding⟩ drawn.groupId drawn.now drawn.draw
      (normalize_named normal)
    constructor
    · intro unchanged m same
      cases same
      rw [← refused]
      rcases createGroup_cases wk ⟨n.name, auth.userId, n.ttlSeconds, n.sliding⟩ drawn.groupId
        drawn.now drawn.draw with stopped | ⟨g, ran, fresh⟩
      · exact stopped
      · exfalso
        have after := remains_after_create transpile auth (n := n) wk _ fresh
        rw [ran] at failed
        simp only [andThen_ok] at failed
        rw [failed] at after
        have before : content s.store (.group drawn.groupId) = none := by
          rw [content_hash wk rfl]
          exact (stored.consistent.represents.groups.fresh _
            (fun old => new ((stored.minted _).mp old))).1
        have gone := (unchanged (.group drawn.groupId)).trans before
        rw [content_hash after.1 rfl] at gone
        simp [Remains, gone] at after
    · intro stopped k
      obtain ⟨bad, ran⟩ := refused.mpr (stopped n rfl)
      rw [ran] at failed
      cases failed
      rfl

namespace Sample

def accepts : String → Except String String := .ok

def member : AuthContext := ⟨"ann", "ann@shop.test", false, .token, idF⟩

/-- A bundle whose second route conflicts with its first. -/
def bundle : GroupSpec :=
  let route : RouteSpec := ⟨some "GET", [], "/cart", none, some "handle", none⟩
  ⟨"shop", some "1h30m", none, none, [route, route]⟩

def imported : ImportDraws := ⟨idA, 0, draw, fun n => ⟨⟨idB, if n = 0 then idC else idD⟩, 0, draw⟩⟩

def importOutcome (s : Store) : Except ApiError ImportSummary × Store :=
  run (importGroupCore accepts member bundle imported) s

end Sample

example : normalize Sample.bundle = .ok ⟨"shop", some 5400, none, none,
    List.replicate 2 ⟨["GET"], "/cart", "typescript", "handle"⟩⟩ := by
  decide +kernel

theorem failed_import_unchanged_shop : ∃ s : CallState, Reached calls (fun _ _ => True) s ∧
    ∃ e t, Sample.importOutcome s.store = (.error e, t) ∧
      ((∀ k, content t k = content s.store k) ↔ RefusedAtOnce s.store Sample.bundle) := by
  have reached : Reached calls (fun _ _ => True) ⟨Storage.empty .inMemory, []⟩ :=
    reached_start ⟨.inMemory, rfl⟩
  have ran : (Sample.importOutcome (Storage.empty .inMemory)).1.toOption.isNone = true := by
    decide +kernel
  refine ⟨_, reached, ?_⟩
  cases outcome : Sample.importOutcome (Storage.empty .inMemory) with
  | mk answer t =>
    rw [outcome] at ran
    cases answer with
    | ok summary => cases ran
    | error e =>
      exact ⟨e, t, rfl, failed_import_unchanged Sample.accepts _ reached Sample.member
        Sample.bundle Sample.imported (by simp) e t outcome⟩

/-- A conflict between two routes of a bundle: the rolled back group keeps a field. -/
theorem failed_import_leaves_field : ∃ s : CallState, Reached calls (fun _ _ => True) s ∧
    ∃ e t, Sample.importOutcome s.store = (.error e, t) ∧
      ¬ ∀ k, content t k = content s.store k := by
  have reached : Reached calls (fun _ _ => True) ⟨Storage.empty .inMemory, []⟩ :=
    reached_start ⟨.inMemory, rfl⟩
  have ran : ((Sample.importOutcome (Storage.empty .inMemory)).1.toOption.isNone,
      (content (Sample.importOutcome (Storage.empty .inMemory)).2 (.group Sample.idA)).isSome) =
      (true, true) := by
    decide +kernel
  refine ⟨_, reached, ?_⟩
  cases outcome : Sample.importOutcome (Storage.empty .inMemory) with
  | mk answer t =>
    rw [outcome] at ran
    cases answer with
    | ok summary => cases ran
    | error e =>
      refine ⟨e, t, rfl, ?_⟩
      intro unchanged
      simp only [Prod.mk.injEq] at ran
      have left := ran.2
      rw [unchanged, content_none (by simp)] at left
      cases left

end WireMirage
