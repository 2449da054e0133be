import WireMirage.Api.Tenancy
import WireMirage.Registry.Accepted

/-!
What requests let into the storage: beyond what the registry checks itself, the language of a
route is one that is transpiled, and its source goes through the transpiler.
-/
namespace WireMirage
open Prog StepMachine

def Scripted (language : String) : Prop := language = "javascript" ∨ language = "typescript"

def Transpiles (transpile : String → Except String String) (source : String) : Prop :=
  ∃ js, transpile source = .ok js

/-- The law of the fields that requests store. -/
def Vetted (transpile : String → Except String String) : Key → String → Val → Prop :=
  Accepted Scripted (Transpiles transpile)

section Requests
variable [UlidText] (transpile : String → Except String String) (auth : AuthContext)

theorem acts_ensureGroup {ok : Command Key Val → Prop} (groupRef : String) :
    Acts ok (Requests.ensureGroupOwnerOrAdmin auth groupRef) := by
  have reads : Acts ok (Requests.viaRegistry (readGroupByRef groupRef)) :=
    acts_mapError _ _ (acts_mapError _ _ (acts_readGroupByRef groupRef))
  apply acts_bind _ _ (acts_attempt _ reads)
  rintro (e | g)
  · trivial
  · show Acts ok (if _ then Prog.fail _ else pure _)
    split <;> trivial

theorem acts_ensureRoute {ok : Command Key Val → Prop} (group : String) (number : Nat)
    (doing : String) : Acts ok (Requests.ensureRouteOwnerOrAdmin auth group number doing) := by
  apply acts_bind _ _ (acts_mapError _ _ (acts_mapError _ _ (acts_getRouteBySlug group number)))
  intro r
  split <;> trivial

omit [UlidText] in
theorem checked_source {body : CreateRouteBody} {source : String}
    (checked : checkedSource transpile body = .ok source) :
    Scripted body.language ∧ Transpiles transpile source := by
  unfold checkedSource at checked
  split at checked
  · cases checked
  · split at checked
    · rename_i scripted
      cases given : body.source with
      | none => simp [given] at checked
      | some src =>
        rw [given] at checked
        cases compiled : transpile src with
        | error msg => simp [compiled] at checked
        | ok js =>
          simp only [compiled, Except.ok.injEq] at checked
          exact ⟨scripted, js, checked ▸ compiled⟩
    · cases checked

omit [UlidText] in
theorem patched_artifact {body : PatchRouteBody} {patch : PatchRoute}
    (made : Requests.patchArtifact transpile body = .ok patch) :
    (∀ lang, patch.language = some lang → Scripted lang) ∧
      ∀ src, patch.source = some (some src) → Transpiles transpile src := by
  unfold Requests.patchArtifact at made
  cases given : body.source with
  | none =>
    simp only [given, Except.ok.injEq] at made
    subst made
    exact ⟨by simp, by simp⟩
  | some src =>
    rw [given] at made
    cases spoken : body.language with
    | none => simp [spoken] at made
    | some lang =>
      simp only [spoken] at made
      split at made
      · cases made
      · split at made
        · rename_i scripted
          cases compiled : transpile src with
          | error msg => simp [compiled] at made
          | ok js =>
            simp only [compiled, Except.ok.injEq] at made
            subst made
            refine ⟨?_, ?_⟩
            · intro lang' same
              cases same
              exact scripted
            · intro src' same
              cases same
              exact ⟨js, compiled⟩
        · cases made

theorem vetted_createRouteCore (body : CreateRouteBody) (drawn : RouteDraws) :
    Acts (Obeys (Vetted transpile)) (createRouteCore transpile auth body drawn) := by
  refine acts_bind _ _ (acts_tenancyGate auth body.group) fun _ =>
    acts_bind _ _ (acts_mapError _ _ (acts_precheck _ _ _)) fun _ => ?_
  apply acts_afterOk
  intro source checked
  obtain ⟨scripted, transpiles⟩ := checked_source transpile checked
  apply acts_mapError
  refine accepted_createRoute ?_ ?_ _ _ _
  · exact scripted
  · intro src same
    cases same
    exact transpiles

theorem vetted_importRoutes (group : Group) (draws : Nat → RouteDraws)
    (routes : List NormalizedRoute) (idx : Nat) :
    Acts (Obeys (Vetted transpile)) (importRoutes transpile auth group draws idx routes) := by
  induction routes generalizing idx with
  | nil => trivial
  | cons r rest ih =>
    apply acts_bind _ _ (acts_attempt _ (vetted_createRouteCore transpile auth _ (draws idx)))
    rintro (e | route)
    · have cascades : Acts (Obeys (Vetted transpile)) (cascadeDeleteGroup group.id) :=
        acts_mono obeys_cascadesGroup _ (acts_cascadeDeleteGroup group.id)
      exact acts_bind _ _ (acts_attempt _ (acts_mapError _ _ cascades)) (fun _ => trivial)
    · exact ih (idx + 1)

theorem vetted_importGroupCore (spec : GroupSpec) (drawn : ImportDraws) :
    Acts (Obeys (Vetted transpile)) (importGroupCore transpile auth spec drawn) := by
  have patches : ∀ (g : Group) callout,
      Acts (Obeys (Vetted transpile)) (patchImported g callout) := by
    intro g callout
    cases callout with
    | none => trivial
    | some flag =>
      exact acts_bind _ _ (acts_mapError _ _ (accepted_patchGroup g.id none none (some flag)))
        (fun _ => trivial)
  exact acts_bind _ _ (acts_ofExcept _) fun n =>
    acts_bind _ _ (acts_mapError _ _ (accepted_createGroup _ _ _ _)) fun g =>
    acts_bind _ _ (patches g n.callout) fun _ =>
    acts_bind _ _ (vetted_importRoutes transpile auth g drawn.routes n.routes 0) fun _ => trivial

omit [UlidText] in
theorem acts_viaRegistry {ok : Command Key Val → Prop} {A : Type} {p : Reg A} (acts : Acts ok p) :
    Acts ok (Requests.viaRegistry p) :=
  acts_mapError _ _ (acts_mapError _ _ acts)

/-- Whoever makes a request, what it stores is vetted. -/
theorem vetted_serve [Messages] (a : TenantRequest) :
    Keeps (Lawful (Vetted transpile)) (a.serve transpile auth) := by
  cases a with
  | createGroup body id now draw =>
    exact keeps_obeying (acts_bind _ _ (acts_viaRegistry (accepted_createGroup _ _ _ _))
      fun _ => trivial)
  | createRoute body drawn =>
    exact keeps_obeying (acts_bind _ _
      (acts_mapError _ _ (vetted_createRouteCore transpile auth body drawn)) fun _ => trivial)
  | patchRoute group number body =>
    apply keeps_obeying
    refine acts_bind _ _ (acts_bind _ _ (acts_ensureRoute auth group number _) fun _ => ?_)
      fun _ => trivial
    split
    · trivial
    · apply acts_afterOk
      intro patch made
      obtain ⟨scripted, transpiles⟩ := patched_artifact transpile made
      exact acts_viaRegistry (accepted_updateRoute group number scripted transpiles)
  | deleteRoute group number =>
    exact keeps_obeying (acts_bind _ _ (acts_ensureRoute auth group number _) fun _ =>
      acts_viaRegistry (acts_mono obeys_deletesRoute _ (acts_deleteRoute group number)))
  | setRouteState group number entries =>
    refine keeps_bind _ _ (keeps_obeying (acts_ensureRoute auth group number _)) fun _ =>
      keeps_bind _ _ (keeps_obeying (acts_ofExcept _)) fun decoded =>
      keeps_mapError _ (keeps_mapError _ ?_)
    exact keeps_bind _ _ (keeps_obeying (acts_getRouteBySlug group number))
      fun r => keeps_puts (.kv r.groupId r.id) (fun _ => rfl) decoded.pairs
  | deleteRouteState group number =>
    exact keeps_obeying (acts_bind _ _ (acts_ensureRoute auth group number _) fun _ =>
      acts_bind _ _ (acts_viaRegistry (acts_bind _ _ (acts_getRouteBySlug group number)
        fun r => obeys_deleteWithPrefix _)) fun _ => trivial)
  | patchGroup groupRef body =>
    apply keeps_obeying
    refine acts_bind _ _ (acts_bind _ _ (acts_ensureGroup auth groupRef) fun g => ?_)
      fun _ => trivial
    split
    · trivial
    · have renamed : Acts (Obeys (Vetted transpile)) (Requests.renamePatched g body.name) := by
        cases body.name with
        | none => trivial
        | some newName =>
          exact acts_bind _ _ (acts_viaRegistry (accepted_renameGroup g.id newName))
            fun _ => trivial
      refine acts_bind _ _ renamed fun _ => ?_
      split
      · exact acts_viaRegistry (accepted_patchGroup _ _ _ _)
      · exact acts_viaRegistry (acts_readGroupByRef g.id)
  | deleteGroup groupRef =>
    exact keeps_obeying (acts_bind _ _ (acts_ensureGroup auth groupRef) fun g =>
      acts_bind _ _ (acts_viaRegistry
        (acts_mono obeys_cascadesGroup _ (acts_cascadeDeleteGroup g.id))) fun _ => trivial)
  | refreshGroup groupRef =>
    exact keeps_obeying (acts_bind _ _ (acts_bind _ _ (acts_ensureGroup auth groupRef) fun g =>
      acts_viaRegistry (obeys_refreshGroup g.id)) fun _ => trivial)
  | setGroupState groupRef entries =>
    exact keeps_bind _ _ (keeps_obeying (acts_ensureGroup auth groupRef)) fun g =>
      keeps_bind _ _ (keeps_obeying (acts_ofExcept _)) fun decoded =>
      keeps_mapError _ (keeps_mapError _ (keeps_puts (.gkv g.id) (fun _ => rfl) decoded.pairs))
  | deleteGroupState groupRef =>
    exact keeps_obeying (acts_bind _ _ (acts_ensureGroup auth groupRef) fun g =>
      acts_viaRegistry (acts_bind _ _ (obeys_deleteWithPrefix _) fun _ =>
        acts_bind _ _ (obeys_deleteWithPrefix _) fun _ => trivial))
  | deleteGroupJournal groupRef =>
    exact keeps_obeying (acts_bind _ _ (acts_ensureGroup auth groupRef) fun g =>
      acts_viaRegistry (acts_bind _ _ (obeys_deleteWithPrefix _) fun _ =>
        acts_bind _ _ (obeys_deleteWithPrefix _) fun _ => acts_delete trivial))
  | importGroup spec drawn =>
    exact keeps_obeying (acts_bind _ _
      (acts_mapError _ _ (vetted_importGroupCore transpile auth spec drawn)) fun _ => trivial)

end Requests

/-- Every record of a host that serves requests is vetted. -/
theorem tenants_vetted [UlidText] [Messages] {transpile : String → Except String String}
    {allow : CallState → AuthContext × TenantRequest → Prop} {s : CallState}
    (reached : Reached (tenants transpile) allow s) : Lawful (Vetted transpile) s.store := by
  have base : ∀ s, (tenants transpile).start s → Lawful (Vetted transpile) s.store := by
    rintro s ⟨b, rfl⟩
    exact lawful_empty b
  refine reached_invariant base ?_ reached
  intro s a t hold _ next
  simp only [tenants, Option.ite_none_right_eq_some, Option.some.injEq] at next
  obtain ⟨_, rfl⟩ := next
  exact keeps_run _ (vetted_serve transpile a.1 a.2) s.store hold

/-- However a host is used, the language of a stored route is one that runs, and a stored source
    is one that the transpiler takes. -/
theorem stored_sources_transpile [UlidText] [Messages] {transpile : String → Except String String}
    {allow : CallState → AuthContext × TenantRequest → Prop} {s : CallState}
    (reached : Reached (tenants transpile) allow s) (rid : String) (v : Val) :
    ((s.store.hashAt (.route rid)).lookup "language" = some v →
      v = .text "javascript" ∨ v = .text "typescript") ∧
    ((s.store.hashAt (.route rid)).lookup "source" = some v →
      ∃ src js, v = .text src ∧ transpile src = .ok js) := by
  have vetted := tenants_vetted reached
  refine ⟨?_, ?_⟩
  · intro stored
    obtain ⟨lang, rfl, rfl | rfl⟩ :=
      (vetted.fields (.route rid) rid "language" v rfl stored).language rfl
    · exact .inl rfl
    · exact .inr rfl
  · intro stored
    obtain ⟨src, rfl, js, compiled⟩ :=
      (vetted.fields (.route rid) rid "source" v rfl stored).source rfl
    exact ⟨src, js, rfl, compiled⟩

namespace Sample

/-- A transpiler that does not take every source. -/
def picky (source : String) : Except String String :=
  if source = "broken" then .error "unexpected end of input" else .ok source

/-- A route is created; sources that do not transpile are refused, as a new one and as a patch. -/
def sourced : List (AuthContext × TenantRequest) :=
  [(member, .importGroup shopImport imported),
    (member, .createRoute ⟨some "shop", ["GET"], "/list", "javascript", some "broken"⟩
      ⟨⟨idD, idE⟩, 1, draw⟩),
    (member, .patchRoute "shop" 1 ⟨none, none, some "javascript", some "broken"⟩),
    (member, .patchRoute "shop" 1 ⟨none, none, some "javascript", some "mended"⟩)]

end Sample

theorem stored_sources_transpile_shop : ∃ s : CallState,
    Reached (tenants Sample.picky) (fun _ _ => True) s ∧
      s.store.setAt (.routeInGroup Sample.idA) = [Sample.idC] ∧
      (s.store.hashAt (.route Sample.idC)).lookup "source" = some (.text "mended") ∧
      ∃ src js, Val.text "mended" = .text src ∧ Sample.picky src = .ok js := by
  have ran : ((exec (tenants Sample.picky) ⟨Storage.empty .valkey, []⟩ Sample.sourced).map (fun s =>
      (s.store.setAt (.routeInGroup Sample.idA),
        (s.store.hashAt (.route Sample.idC)).lookup "source"))) =
      some ([Sample.idC], some (.text "mended")) := by
    decide +kernel
  obtain ⟨s, done, facts⟩ := Option.map_eq_some_iff.mp ran
  obtain ⟨listed, stored⟩ := Prod.mk.inj facts
  have reached := reached_of_exec (m := tenants Sample.picky) Sample.sourced ⟨.valkey, rfl⟩ done
  exact ⟨s, reached, listed, stored, (stored_sources_transpile reached _ _).2 stored⟩

end WireMirage
