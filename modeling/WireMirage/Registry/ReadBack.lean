import WireMirage.Library.Pool
import WireMirage.Registry.RecordFields

/-!
What an edit answers is what is stored. A record is written field by field over what its
key holds, so it matters what is left there: the key of an id not yet drawn holds nothing,
and no key holds the id of another. Both last while calls interleave and keys expire.
-/
namespace WireMirage
open Prog StepMachine

/-! Calls of which the commands interleave -/

def StateOp.code (k : Key) (op : StateOp) : Prog Store RegistryError Unit :=
  atomic (fun s => (.ok (), op.apply k s))

def Activity.code [UlidText] : Activity → Prog Store RegistryError Unit
  | .patchGroup gid ttl sliding callout => settle (WireMirage.patchGroup gid ttl sliding callout)
  | .refreshGroup gid => settle (WireMirage.refreshGroup gid)
  | .refreshGroupIfSliding gid => settle (WireMirage.refreshGroupIfSliding gid)
  | .recordRouteHit gid rid now => settle (WireMirage.recordRouteHit gid rid now)
  | .clearGroupState gid => settle (WireMirage.clearGroupState gid)
  | .setGroupState gid state => settle (WireMirage.setGroupState gid state)
  | .clearRouteState groupRef number => settle (WireMirage.clearRouteState groupRef number)
  | .setRouteState groupRef number state => settle (WireMirage.setRouteState groupRef number state)
  | .clearGroupJournal gid => settle (WireMirage.clearGroupJournal gid)
  | .recordHandled entry id now => settle (outcome (WireMirage.recordHandled entry id now))
  | .recordCallback entry id now => settle (outcome (WireMirage.recordCallback entry id now))
  | .recordUnmatched entry id now => settle (outcome (WireMirage.recordUnmatched entry id now))
  | .handlerState gid rid key op => op.code (.kv gid rid key)
  | .handlerGroupState gid key op => op.code (.gkv gid key)

def Call.code [UlidText] : Call → Prog Store RegistryError Unit
  | .mutation m => settle m.commit
  | .cascadeDeleteGroup gid => settle (WireMirage.cascadeDeleteGroup gid)
  | .activity a => a.code

/-- Run on its own, the program of a call does what the call does. -/
theorem run_code [UlidText] (call : Call) (s : Store) : (run call.code s).2 = call.perform s := by
  cases call with
  | mutation m => exact run_settle _ s
  | cascadeDeleteGroup gid => exact run_settle _ s
  | activity a =>
    cases a with
    | recordHandled entry id now => exact (run_settle _ s).trans (by rw [run_outcome]; rfl)
    | recordCallback entry id now => exact (run_settle _ s).trans (by rw [run_outcome]; rfl)
    | recordUnmatched entry id now => exact (run_settle _ s).trans (by rw [run_outcome]; rfl)
    | handlerState gid rid key op => rfl
    | handlerGroupState gid key op => rfl
    | _ => exact run_settle _ s

/-- Any number of calls at once, one command of one of them at a time, while time passes. -/
def overlapping [UlidText] :
    Machine (Pool Store (Prog Store RegistryError Unit) (List String)) (PoolAction Call Nat) :=
  pool (programs (fun call minted =>
      if call.Possible minted then some (call.code, call.draws ++ minted) else none)
      Storage.advance)
    (fun s minted => ∃ b, s = Storage.empty b ∧ minted = [])

/-! What the activities keep -/

theorem acts_readGroupByRef [UlidText] {ok : Command Key Val → Prop} (reference : String) :
    Acts ok (readGroupByRef reference) :=
  acts_bind _ _ (acts_resolved reference) (fun gid => acts_readGroup gid)

theorem acts_getRouteBySlug [UlidText] {ok : Command Key Val → Prop} (groupRef : String)
    (number : Nat) : Acts ok (getRouteBySlug groupRef number) :=
  acts_bind _ _ (acts_routeIdBySlug groupRef number) (fun rid => acts_readRoute rid)

section Activities
variable {law : Key → String → Val → Prop}

theorem keeps_stateOp {k : Key} (free : k.family = none)
    (op : StateOp) : Keeps (Lawful law) (op.code k) :=
  keeps_atomic _ (fun _ hold => lawful_stateOp free op hold)

theorem obeys_deleteWithPrefix (p : KeyPrefix) :
    Acts (Obeys law) (Bucket.deleteWithPrefix p : Reg Nat) :=
  acts_deleteWithPrefix (fun _ _ => trivial)

theorem obeys_armGroupTtls (gid name : String) (ttl : Nat) :
    Acts (Obeys law) (armGroupTtls gid name ttl) :=
  acts_bind _ _ (acts_armGroupTtl trivial) (fun _ => acts_armGroupTtl trivial)

theorem obeys_refreshGroup (gid : String) : Acts (Obeys law) (refreshGroup gid) := by
  refine acts_bind _ _ (acts_readGroup gid) (fun g => ?_)
  split
  · trivial
  · exact acts_bind _ _ (obeys_armGroupTtls _ _ _) (fun _ => trivial)

/-- Of the activities two write to records. -/
theorem keeps_activity_of [UlidText] (a : Activity)
    (patches : ∀ gid ttl sliding callout, a = .patchGroup gid ttl sliding callout →
      Keeps (Lawful law) (patchGroup gid ttl sliding callout))
    (hits : ∀ gid rid now, a = .recordRouteHit gid rid now →
      Keeps (Lawful law) (recordRouteHit gid rid now)) : Keeps (Lawful law) a.code := by
  have counts : ∀ gid f n, Obeys law (.setField (.groupCounters gid) f n) :=
    fun gid f n x record => nomatch record
  cases a with
  | patchGroup gid ttl sliding callout =>
    exact keeps_settle (patches gid ttl sliding callout rfl)
  | refreshGroup gid => exact keeps_settle (keeps_obeying (obeys_refreshGroup gid))
  | refreshGroupIfSliding gid =>
    apply keeps_settle
    apply keeps_obeying
    refine acts_bind _ _ (acts_attempt _ (acts_readGroup gid)) ?_
    rintro (e | g)
    · cases e <;> trivial
    · show Acts _ (if _ then _ else _)
      split
      · trivial
      · split
        · trivial
        · exact acts_bind _ _ (obeys_armGroupTtls _ _ _) (fun _ => trivial)
  | recordRouteHit gid rid now => exact keeps_settle (hits gid rid now rfl)
  | clearGroupState gid =>
    exact keeps_settle (keeps_obeying (acts_bind _ _ (obeys_deleteWithPrefix _) fun _ =>
      acts_bind _ _ (obeys_deleteWithPrefix _) fun _ => trivial))
  | setGroupState gid state => exact keeps_settle (keeps_puts (.gkv gid) (fun _ => rfl) state)
  | clearRouteState groupRef number =>
    exact keeps_settle (keeps_obeying (acts_bind _ _ (acts_getRouteBySlug groupRef number) fun r =>
      obeys_deleteWithPrefix _))
  | setRouteState groupRef number state =>
    exact keeps_settle (keeps_bind _ _ (keeps_obeying (acts_getRouteBySlug groupRef number))
      fun r => keeps_puts (.kv r.groupId r.id) (fun _ => rfl) state)
  | clearGroupJournal gid =>
    exact keeps_settle (keeps_obeying (acts_bind _ _ (obeys_deleteWithPrefix _) fun _ =>
      acts_bind _ _ (obeys_deleteWithPrefix _) fun _ => acts_delete trivial))
  | recordHandled entry id now =>
    exact keeps_settle (keeps_outcome (keeps_obeying (acts_bind _ _
      (acts_hashIncr rfl (fun _ => counts _ _ _)) fun _ =>
      acts_bind _ _ (acts_setWithTtl rfl trivial) fun _ =>
      acts_bind _ _ (acts_setWithTtl rfl trivial) fun _ => trivial)))
  | recordCallback entry id now =>
    exact keeps_settle (keeps_outcome (keeps_obeying (acts_bind _ _
      (acts_hashIncr rfl (fun _ => counts _ _ _)) fun _ =>
      acts_bind _ _ (acts_setWithTtl rfl trivial) fun _ =>
      acts_bind _ _ (acts_set rfl trivial) fun _ => trivial)))
  | recordUnmatched entry id now =>
    exact keeps_settle (keeps_outcome (keeps_recordUnmatched entry id now))
  | handlerState gid rid key op => exact keeps_stateOp rfl op
  | handlerGroupState gid key op => exact keeps_stateOp rfl op

end Activities

/-! The ids that the keys of records hold -/

/-- The record under a key carries the id of the key; under an unused id there is none. -/
structure Labelled (unused : Option String) (s : Store) : Prop where
  kinded : s.WellKinded
  label : ∀ (k : Key) (x : String) (v : Val), k.recordId = some x →
    (s.hashAt k).lookup "id" = some v → v = .text x
  vacant : ∀ (k : Key) (x : String), k.recordId = some x → unused = some x →
    ∀ f, (s.hashAt k).lookup f = none

/-- The law of which a labelled state is the lawful one. -/
def OwnId (unused : Option String) (k : Key) (f : String) (v : Val) : Prop :=
  unused ≠ k.recordId ∧ (f = "id" → ∀ x, k.recordId = some x → v = .text x)

theorem labelled_iff {unused : Option String} {s : Store} :
    Labelled unused s ↔ Lawful (OwnId unused) s := by
  constructor
  · intro hold
    refine ⟨hold.kinded, ?_⟩
    intro k x f v record found
    constructor
    · intro free
      rw [hold.vacant k x record (free.trans record) f] at found
      cases found
    · rintro rfl y same
      exact hold.label k y v same found
  · intro hold
    refine ⟨hold.kinded, ?_, ?_⟩
    · intro k x v record found
      exact (hold.fields k x "id" v record found).2 rfl x record
    · intro k x record free f
      cases found : (s.hashAt k).lookup f with
      | none => rfl
      | some v => exact absurd (free.trans record.symm) (hold.fields k x f v record found).1

theorem labelled_eq (unused : Option String) : Labelled unused = Lawful (OwnId unused) :=
  funext (fun _ => propext labelled_iff)

/-- The commands that put no field under an unused id, nor the id of another. -/
def SparesId (unused : Option String) : Command Key Val → Prop
  | .setField k f v => ∀ x, k.recordId = some x → unused ≠ some x ∧ (f = "id" → v = .text x)
  | _ => True

theorem obeys_of_spares {unused : Option String} (c : Command Key Val)
    (spares : SparesId unused c) : Obeys (OwnId unused) c := by
  cases c with
  | setField k f v =>
    intro x record
    refine ⟨?_, ?_⟩
    · rw [record]
      exact (spares x record).1
    · intro own y same
      exact (spares y same).2 own
  | _ => trivial

theorem keeps_labels {unused : Option String} {A : Type} {Err : Type} {p : Prog Store Err A}
    (acts : Acts (SparesId unused) p) : Keeps (Labelled unused) p := by
  rw [labelled_eq]
  exact keeps_obeying (acts_mono obeys_of_spares p acts)

/-! What the operations read and write -/

section Operations
variable {unused : Option String}

theorem assures_readGroup (gid : String) :
    Assures (Labelled unused) (fun g => g.id = gid ∧ unused ≠ some gid) (readGroup gid) := by
  apply assures_single (single_readGroup gid)
  intro s hold
  rw [run_readGroup hold.kinded]
  refine ⟨hold, ?_⟩
  intro g answer
  have fields : GroupFields (s.hashAt (.group gid)) g := groupAnswer_ok_iff.mp answer
  refine ⟨Val.text.inj (hold.label (.group gid) gid _ rfl fields.id), ?_⟩
  intro free
  have vacant := hold.vacant (.group gid) gid rfl free "id"
  rw [fields.id] at vacant
  cases vacant

theorem assures_readRoute (rid : String) :
    Assures (Labelled unused) (fun r => r.id = rid ∧ unused ≠ some rid) (readRoute rid) := by
  apply assures_single (single_readRoute rid)
  intro s hold
  rw [run_readRoute hold.kinded]
  refine ⟨hold, ?_⟩
  intro r answer
  have fields : RouteFields (s.hashAt (.route rid)) r := routeAnswer_ok_iff.mp answer
  refine ⟨Val.text.inj (hold.label (.route rid) rid _ rfl fields.id), ?_⟩
  intro free
  have vacant := hold.vacant (.route rid) rid rfl free "id"
  rw [fields.id] at vacant
  cases vacant

theorem spares_field {k : Key} {x f : String} {v : Val} (record : k.recordId = some x)
    (other : unused ≠ some x) (own : f = "id" → v = .text x) :
    Acts (SparesId unused) (Bucket.hashSet k f v : Reg Unit) := by
  apply acts_hashSet (by simpa using recordId_family record)
  intro y same
  rw [record, Option.some.injEq] at same
  exact same ▸ ⟨other, own⟩

theorem spares_patchField {A : Type} {k : Key} {x f : String} (encode : A → Val)
    (record : k.recordId = some x) (other : unused ≠ some x) (own : f ≠ "id") (o : Option A) :
    Acts (SparesId unused) (patchField k f encode o) := by
  cases o with
  | none => trivial
  | some a => exact spares_field record other (fun same => absurd same own)

theorem spares_armGroupTtls (gid name : String) (ttl : Nat) :
    Acts (SparesId unused) (armGroupTtls gid name ttl) :=
  acts_bind _ _ (acts_armGroupTtl trivial) (fun _ => acts_armGroupTtl trivial)

theorem spares_storeGroup {g : Group} (other : unused ≠ some g.id) :
    Acts (SparesId unused) (storeGroup g) := by
  have field : ∀ f v, f ≠ "id" → Acts (SparesId unused)
      (Bucket.hashSet (.group g.id) f v : Reg Unit) :=
    fun f v own => spares_field rfl other (fun same => absurd same own)
  have writes : Acts (SparesId unused) (writeGroup g) :=
    acts_bind _ _ (spares_field rfl other (fun _ => rfl)) fun _ =>
      acts_bind _ _ (field _ _ (by decide)) fun _ => acts_bind _ _ (field _ _ (by decide)) fun _ =>
      acts_bind _ _ (field _ _ (by decide)) fun _ => acts_bind _ _ (field _ _ (by decide)) fun _ =>
      acts_bind _ _ (field _ _ (by decide)) fun _ => acts_bind _ _ (field _ _ (by decide)) fun _ =>
      acts_bind _ _ (field _ _ (by decide)) fun _ => acts_bind _ _ (acts_set rfl trivial) fun _ =>
      acts_bind _ _ (acts_setAdd rfl trivial) fun _ => acts_setAdd rfl trivial
  exact acts_bind _ _ writes fun _ => acts_bind _ _ (spares_armGroupTtls _ _ _) fun _ => trivial

theorem spares_storeRoute {r : Route} (other : unused ≠ some r.id) :
    Acts (SparesId unused) (storeRoute r) := by
  apply acts_mono _ _ (acts_storeRoute r)
  intro c writes
  cases c with
  | setField k f v =>
    intro x record
    cases k with
    | route rid =>
      cases record
      obtain ⟨rfl, own⟩ := writes
      exact ⟨other, own⟩
    | group gid => exact writes.elim
    | _ => cases record
  | _ => trivial

theorem spares_createGroup {params : NewGroup} {id : String} {now : Time} {draw : Nat → Draw}
    (other : unused ≠ some id) : Acts (SparesId unused) (createGroup params id now draw) :=
  acts_bind _ _ (acts_newGroupName _ _) fun _ => acts_bind _ _ (acts_ofExcept _) fun _ =>
    spares_storeGroup other

theorem spares_createRoute [UlidText] {params : NewRoute} {ids : NewIds} {now : Time}
    {draw : Nat → Draw} (group : unused ≠ some ids.group) (route : unused ≠ some ids.route) :
    Acts (SparesId unused) (createRoute params ids now draw) := by
  refine acts_bind _ _ (acts_ofExcept _) fun _ => acts_bind _ _ (acts_ofExcept _) fun _ =>
    acts_bind _ _ ?_ fun g => acts_bind _ _ (acts_scanPatternConflict _ _ _ _) fun _ =>
    acts_bind _ _ (acts_hashIncr rfl (fun _ => nofun)) fun _ =>
    acts_bind _ _ (spares_storeRoute route) fun _ => trivial
  unfold targetGroup
  split
  · exact acts_bind _ _ (acts_resolved _) (fun gid => acts_readGroup gid)
  · exact acts_bind _ _ (acts_generateGroupName draw) (fun _ => spares_storeGroup group)

theorem keeps_updateRoute [UlidText] (groupRef : String) (number : Nat) (patch : PatchRoute) :
    Keeps (Labelled unused) (updateRoute groupRef number patch) := by
  refine keeps_bind _ _ (keeps_labels (acts_routeIdBySlug groupRef number)) (fun rid => ?_)
  refine keeps_after (assures_readRoute rid) (fun r known => ?_)
  obtain ⟨_, other⟩ := known
  have source : Acts (SparesId unused) (patchSource (.route rid) patch.source) := by
    rcases patch.source with _ | _ | src
    · trivial
    · exact acts_hashDelete rfl trivial
    · exact spares_field rfl other (fun same => absurd same (by decide))
  have check : ∀ methods path, Acts (SparesId unused)
      (checkPatchConflict patch r methods path) := by
    intro methods path
    unfold checkPatchConflict
    split
    · exact acts_bind _ _ (acts_ofExcept _) (fun _ => acts_scanPatternConflict _ _ _ _)
    · trivial
  apply keeps_labels
  exact acts_bind _ _ (acts_ofExcept _) fun methods => acts_bind _ _ (acts_ofExcept _) fun path =>
    acts_bind _ _ (check methods path) fun _ =>
    acts_bind _ _ (spares_patchField _ rfl other (by decide) _) fun _ =>
    acts_bind _ _ (spares_patchField _ rfl other (by decide) _) fun _ =>
    acts_bind _ _ (spares_patchField _ rfl other (by decide) _) fun _ =>
    acts_bind _ _ (spares_patchField _ rfl other (by decide) _) fun _ =>
    acts_bind _ _ (spares_patchField _ rfl other (by decide) _) fun _ =>
    acts_bind _ _ source fun _ => trivial

theorem keeps_renameRoutes (gid newName : String) :
    Keeps (Labelled unused) (renameRoutes gid newName) := by
  have routes : Assures (Labelled unused) (fun rs => ∀ r ∈ rs, unused ≠ some r.id)
      (routesInGroup gid) := by
    refine assures_bind (assures_of_keeps (keeps_labels (acts_setMembers rfl))) (fun ids _ => ?_)
    apply assures_collect
    intro rid
    refine assures_weaken (assures_readRoute rid) ?_
    rintro r ⟨rfl, other⟩
    exact other
  refine keeps_after routes (fun rs others => ?_)
  apply keeps_labels
  apply acts_forEach
  intro r member
  exact spares_field rfl (others r member) (fun same => absurd same (by decide))

theorem keeps_renameGroup [UlidText] (groupRef newName : String) :
    Keeps (Labelled unused) (renameGroup groupRef newName) := by
  refine keeps_bind _ _ (keeps_labels (acts_resolved groupRef)) (fun gid => ?_)
  refine keeps_after (assures_readGroup gid) (fun g known => ?_)
  obtain ⟨_, other⟩ := known
  split
  · trivial
  · split
    · trivial
    · refine keeps_bind _ _ (keeps_labels (acts_get rfl)) (fun taken => ?_)
      cases taken with
      | some v => trivial
      | none =>
        refine keeps_bind _ _ ?_ (fun _ => keeps_bind _ _ (keeps_renameRoutes gid newName)
          (fun _ => trivial))
        apply keeps_labels
        exact acts_bind _ _ (spares_field rfl other (fun same => absurd same (by decide))) fun _ =>
          acts_bind _ _ (acts_delete trivial) fun _ => acts_bind _ _ (acts_set rfl trivial) fun _ =>
          acts_armGroupTtl trivial

theorem keeps_patchGroup (gid : String) (ttl : Option Nat) (sliding callout : Option Bool) :
    Keeps (Labelled unused) (patchGroup gid ttl sliding callout) := by
  refine keeps_after (assures_readGroup gid) (fun g known => ?_)
  obtain ⟨_, other⟩ := known
  have field : ∀ f v, f ≠ "id" → Acts (SparesId unused)
      (Bucket.hashSet (.group gid) f v : Reg Unit) :=
    fun f v own => spares_field rfl other (fun same => absurd same own)
  apply keeps_labels
  refine acts_bind _ _ ?_ (fun g => acts_bind _ _ ?_ (fun g => ?_))
  · cases ttl with
    | none => trivial
    | some n =>
      exact acts_bind _ _ (acts_ofExcept _) fun n => acts_bind _ _ (field _ _ (by decide)) fun _ =>
        acts_bind _ _ (spares_armGroupTtls _ _ _) fun _ => trivial
  · cases sliding with
    | none => trivial
    | some flag => exact acts_bind _ _ (field _ _ (by decide)) (fun _ => trivial)
  · cases callout with
    | none => trivial
    | some flag => exact acts_bind _ _ (field _ _ (by decide)) (fun _ => trivial)

theorem spares_recordRouteHit {gid rid : String} (group : unused ≠ some gid)
    (route : unused ≠ some rid) (now : Time) :
    Acts (SparesId unused) (recordRouteHit gid rid now) := by
  have counts : ∀ n, SparesId unused (.setField (.route rid) "hits_total" n) := by
    rintro n x ⟨⟩
    exact ⟨route, fun same => absurd same (by decide)⟩
  exact acts_bind _ _ (spares_field rfl route (fun same => absurd same (by decide))) fun _ =>
    acts_bind _ _ (acts_hashIncr rfl (fun _ => counts _)) fun _ =>
    spares_field rfl group (fun same => absurd same (by decide))

theorem spares_cascade (gid : String) : Acts (SparesId unused) (cascadeDeleteGroup gid) := by
  apply acts_mono _ _ (acts_cascadeDeleteGroup gid)
  intro c allowed
  cases c with
  | setField k f v => exact allowed.elim
  | _ => trivial

theorem keeps_commit [UlidText] (m : Mutation) (other : ∀ id ∈ m.draws, unused ≠ some id) :
    Keeps (Labelled unused) m.commit := by
  cases m with
  | createGroup params id now draw =>
    exact keeps_labels (acts_bind _ _ (spares_createGroup (other id (by simp [Mutation.draws])))
      (fun _ => trivial))
  | createRoute params ids now draw =>
    exact keeps_labels (acts_bind _ _ (spares_createRoute (other _ (by simp [Mutation.draws]))
      (other _ (by simp [Mutation.draws]))) (fun _ => trivial))
  | updateRoute groupRef number patch =>
    exact keeps_bind _ _ (keeps_updateRoute groupRef number patch) (fun _ => trivial)
  | deleteRoute groupRef number =>
    have deletes : Acts (SparesId unused) (deleteRoute groupRef number) := by
      apply acts_mono _ _ (acts_deleteRoute groupRef number)
      intro c allowed
      cases c with
      | setField k f v => exact allowed.elim
      | _ => trivial
    exact keeps_labels (acts_bind _ _ (acts_getRouteBySlug groupRef number) fun _ =>
      acts_bind _ _ deletes fun _ => trivial)
  | renameGroup groupRef newName =>
    exact keeps_bind _ _ (keeps_labels (acts_readGroupByRef groupRef)) fun g =>
      keeps_bind _ _ (keeps_renameGroup g.id newName) fun _ => trivial
  | deleteGroup groupRef =>
    exact keeps_labels (acts_bind _ _ (acts_readGroupByRef groupRef) fun g =>
      acts_bind _ _ (spares_cascade g.id) fun _ => trivial)

theorem keeps_activity [UlidText] (a : Activity) (other : ∀ id ∈ a.mentions, unused ≠ some id) :
    Keeps (Labelled unused) a.code := by
  rw [labelled_eq]
  apply keeps_activity_of
  · rintro gid ttl sliding callout _
    exact labelled_eq unused ▸ keeps_patchGroup gid ttl sliding callout
  · rintro gid rid now rfl
    exact labelled_eq unused ▸ keeps_labels (spares_recordRouteHit
      (other gid (by simp [Activity.mentions])) (other rid (by simp [Activity.mentions])) now)

theorem keeps_code [UlidText] {minted : List String} (call : Call) (possible : call.Possible minted)
    (free : ∀ x ∈ unused, x ∉ call.draws ++ minted) : Keeps (Labelled unused) call.code := by
  obtain ⟨_, _, known⟩ := possible
  have other : ∀ id ∈ call.draws ++ minted, unused ≠ some id := by
    rintro id member rfl
    exact free id rfl member
  cases call with
  | mutation m =>
    exact keeps_settle (keeps_commit m (fun id drawn => other id (List.mem_append_left _ drawn)))
  | cascadeDeleteGroup gid => exact keeps_settle (keeps_labels (spares_cascade gid))
  | activity a =>
    exact keeps_activity a (fun id mentioned => other id
      (List.mem_append_right _ (known id mentioned)))

end Operations

/-- Whatever calls are under way, the keys of records are as they should be. -/
theorem overlapping_labelled [UlidText]
    {p : Pool Store (Prog Store RegistryError Unit) (List String)}
    (reached : Reached overlapping (fun _ _ => True) p) (unused : Option String)
    (free : ∀ x ∈ unused, x ∉ p.log) : Labelled unused p.shared := by
  have base : ∀ p, overlapping.start p → ∀ unused : Option String, (∀ x ∈ unused, x ∉ p.log) →
      Labelled unused p.shared ∧ ∀ t ∈ p.tasks, Keeps (Labelled unused) t := by
    rintro p ⟨⟨b, shared, _⟩, idle⟩ unused _
    rw [shared, idle]
    exact ⟨labelled_iff.mpr (lawful_empty b), by simp⟩
  have preserved : ∀ p a q, (∀ unused : Option String, (∀ x ∈ unused, x ∉ p.log) →
      Labelled unused p.shared ∧ ∀ t ∈ p.tasks, Keeps (Labelled unused) t) → True →
      overlapping.step p a = some q → ∀ unused : Option String, (∀ x ∈ unused, x ∉ q.log) →
      Labelled unused q.shared ∧ ∀ t ∈ q.tasks, Keeps (Labelled unused) t := by
    intro p a q hold _ next
    refine programs_keep_while (fun unused log => ∀ x ∈ unused, x ∉ log) Labelled ?_
      (fun unused seconds s kept =>
        labelled_iff.mpr (lawful_advance seconds (labelled_iff.mp kept))) hold next
    intro unused call minted t log begun free
    simp only [Option.ite_none_right_eq_some, Option.some.injEq, Prod.mk.injEq] at begun
    obtain ⟨possible, rfl, rfl⟩ := begun
    refine ⟨?_, keeps_code call possible free⟩
    intro x named inside
    exact free x named (List.mem_append_right _ inside)
  exact (reached_invariant base preserved reached unused free).1

/-! Reading back -/

/-- The record read from where it is stored. -/
def Record.read : Record → Reg Record
  | .group g => Record.group <$> readGroup g.id
  | .route r => Record.route <$> readRoute r.id

section ReadBack
variable {s t : Store}

theorem group_read {g : Group} (wk : t.WellKinded) (record : GroupAt t g.id g) :
    run (Record.group g).read t = (.ok (.group g), t) := by
  unfold Record.read
  rw [run_map, run_readGroup wk, groupAnswer_ok_iff.mpr record]
  rfl

theorem route_read {r : Route} (wk : t.WellKinded) (record : RouteAt t r.id r) :
    run (Record.route r).read t = (.ok (.route r), t) := by
  unfold Record.read
  rw [run_map, run_readRoute wk, routeAnswer_ok_iff.mpr record]
  rfl

theorem group_own (labels : Labelled none s) {gid : String} {g : Group} (record : GroupAt s gid g) :
    g.id = gid :=
  Val.text.inj (labels.label (.group gid) gid _ rfl (GroupFields.id record))

theorem route_own (labels : Labelled none s) {rid : String} {r : Route} (record : RouteAt s rid r) :
    r.id = rid :=
  Val.text.inj (labels.label (.route rid) rid _ rfl (RouteFields.id record))

theorem group_at_created {g : Group} {id owner : String} (fresh : FreshGroup s id owner g)
    (vacant : ∀ f, (s.hashAt (.group g.id)).lookup f = none) :
      GroupAt (groupCreated s g) g.id g := by
  have hash : (groupCreated s g).hashAt (.group g.id) = encodeGroup g (s.hashAt (.group g.id)) := by
    simp [groupCreated, groupArmed, ttlArmed, groupWritten]
  unfold GroupAt
  rw [hash]
  exact encode_group_fields g _ fresh.ttl (by rw [vacant, fresh.idle]; rfl)

theorem route_at_stored {r : Route} {gid : String} {n : Int} (bound : r.number < u32Size)
    (unhit : r.hitsTotal = 0 ∧ r.lastHitAt = none)
    (vacant : ∀ f, (s.hashAt (.route r.id)).lookup f = none) :
    RouteAt (routeStored (routeCounted s gid n) r) r.id r := by
  have hash : (routeStored (routeCounted s gid n) r).hashAt (.route r.id) =
      encodeRoute r (s.hashAt (.route r.id)) := by
    simp [routeStored, routeCounted]
  unfold RouteAt
  rw [hash]
  exact encode_route_fields r _ bound (.inl ⟨vacant _, unhit.1⟩) (by rw [vacant, unhit.2]; rfl)

theorem group_at_patched {gid : String} {g : Group} (record : GroupAt s gid g) {ttl : Option Nat}
    (bound : ∀ n ∈ ttl, n < u64Size) (sliding callout : Option Bool) :
    GroupAt (groupPatched s gid g ttl sliding callout) gid { g with
      ttlSeconds := ttl.getD g.ttlSeconds
      slidingTtl := sliding.getD g.slidingTtl
      calloutEnabled := callout.getD g.calloutEnabled } := by
  have one : GroupAt (ttlPatched s gid g ttl) gid
      { g with ttlSeconds := ttl.getD g.ttlSeconds } := by
    cases ttl with
    | none => exact record
    | some n =>
      have hash : (ttlPatched s gid g (some n)).hashAt (.group gid) =
          (s.hashAt (.group gid)).insert "ttl_seconds" (.int n) := by
        simp [ttlPatched, groupArmed, ttlArmed]
      unfold GroupAt
      rw [hash]
      exact group_fields_ttl record n (bound n rfl)
  unfold GroupAt groupPatched
  simp only [hashAt_fieldPatched]
  have two := show GroupFields (sliding.elim _ (fun a => AList.insert "sliding_ttl" (.flag a) _))
      { g with
        ttlSeconds := ttl.getD g.ttlSeconds
        slidingTtl := sliding.getD g.slidingTtl } by
    cases sliding with
    | none => exact one
    | some flag => exact group_fields_sliding one flag
  cases callout with
  | none => exact two
  | some flag => exact group_fields_callout two flag

theorem hashAt_groupRenamed (gid : String) (g : Group) (newName : String) (routes : List Route) :
    (groupRenamed s gid g newName routes).hashAt (.group gid) =
      (s.hashAt (.group gid)).insert "name" (.text newName) := by
  have moved : (nameMoved s gid g newName).hashAt (.group gid) =
      (s.hashAt (.group gid)).insert "name" (.text newName) := by
    simp [nameMoved, ttlArmed]
  unfold groupRenamed
  rw [← moved]
  generalize nameMoved s gid g newName = u
  induction routes generalizing u with
  | nil => rfl
  | cons r rest ih =>
    rw [List.foldl_cons, ih]
    simp [routeRenamed]

theorem keeps_edit [UlidText] (unused : Option String) (edit : Edit)
    (other : ∀ id ∈ edit.draws, unused ≠ some id) : Keeps (Labelled unused) edit.perform := by
  cases edit with
  | createGroup params id now draw =>
    exact keeps_bind _ _ (keeps_labels (spares_createGroup (other id (by simp [Edit.draws]))))
      fun _ => trivial
  | createRoute params ids now draw =>
    exact keeps_bind _ _ (keeps_labels (spares_createRoute (other _ (by simp [Edit.draws]))
      (other _ (by simp [Edit.draws])))) fun _ => trivial
  | updateRoute groupRef number patch =>
    exact keeps_bind _ _ (keeps_updateRoute groupRef number patch) fun _ => trivial
  | renameGroup groupRef newName =>
    exact keeps_bind _ _ (keeps_renameGroup groupRef newName) fun _ => trivial
  | patchGroup groupId ttlSeconds slidingTtl calloutEnabled =>
    exact keeps_bind _ _ (keeps_patchGroup groupId ttlSeconds slidingTtl calloutEnabled)
      fun _ => trivial
  | refreshGroup groupId =>
    exact keeps_bind _ _ (labelled_eq unused ▸ keeps_obeying (obeys_refreshGroup groupId))
      fun _ => trivial

/-- A new route is stored in its group, or in one stored just before. -/
theorem route_at_created [UlidText] {params : NewRoute} {ids : NewIds} {now : Time} {r : Route}
    (vacant : ∀ f, (s.hashAt (.route ids.route)).lookup f = none)
    (created : RouteCreated s params ids now r t) : RouteAt t r.id r := by
  obtain ⟨pattern, g, u, n, _, _, target, _, _, rfl, rfl⟩ := created.made
  apply route_at_stored (asU32_lt n) ⟨rfl, rfl⟩
  intro f
  have same : u.hashAt (.route ids.route) = s.hashAt (.route ids.route) := by
    cases target with
    | existing => rfl
    | implicit => simp [groupCreated, groupArmed, ttlArmed, groupWritten]
  exact (congrArg (fun h => AList.lookup f h) same).trans (vacant f)

/-- In a store whose records are labelled, an edit leaves the record that it answers. -/
theorem edit_read_back [UlidText] {edit : Edit} {record : Record} (labels : Labelled none s)
    (vacant : ∀ id ∈ edit.draws, Labelled (some id) s)
    (ran : run edit.perform s = (.ok record, t)) : run record.read t = (.ok record, t) := by
  have wk := labels.kinded
  have wkt : t.WellKinded := by
    have kept := keeps_run _ (keeps_edit none edit nofun) s labels
    rw [ran] at kept
    exact kept.kinded
  cases edit with
  | createGroup params id now draw =>
    obtain ⟨g, made, rfl⟩ := map_answered ran
    rcases createGroup_cases wk params id now draw with ⟨e, failed⟩ | ⟨h, ran, fresh⟩
    · rw [failed] at made
      cases made
    · rw [ran] at made
      cases made
      refine group_read wkt (group_at_created fresh ?_)
      exact (vacant id (by simp [Edit.draws])).vacant (.group g.id) id (by rw [← fresh.id]; rfl) rfl
  | createRoute params ids now draw =>
    obtain ⟨r, made, rfl⟩ := map_answered ran
    rcases createRoute_cases wk params ids now draw with
      ⟨e, failed⟩ | ⟨e, _, _, failed, _⟩ | ⟨q, u, ran, created⟩
    · rw [failed] at made
      cases made
    · rw [failed] at made
      cases made
    · rw [ran] at made
      cases made
      refine route_read wkt (route_at_created ?_ created)
      exact (vacant ids.route (by simp [Edit.draws])).vacant (.route ids.route) ids.route rfl rfl
  | updateRoute groupRef number patch =>
    obtain ⟨r, made, rfl⟩ := map_answered ran
    rcases updateRoute_cases wk groupRef number patch with ⟨e, failed⟩ | ⟨q, u, ran, updated⟩
    · rw [failed] at made
      cases made
    · rw [ran] at made
      cases made
      obtain ⟨rid, old, methods, path, _, record, _, newPath, _, rfl, rfl⟩ := updated.made
      have own := route_own labels record
      subst own
      exact route_read wkt (route_at_patched record newPath)
  | renameGroup groupRef newName =>
    obtain ⟨g, made, rfl⟩ := map_answered ran
    rcases renameGroup_cases wk groupRef newName with
      ⟨e, failed⟩ | ⟨_, _, e, failed, _⟩ | ⟨gid, h, ran, _, record, _⟩ | ⟨h, u, ran, renamed⟩
    · rw [failed] at made
      cases made
    · rw [failed] at made
      cases made
    · rw [ran] at made
      cases made
      have own := group_own labels record
      subst own
      exact group_read wkt record
    · rw [ran] at made
      cases made
      obtain ⟨gid, old, routes, _, record, _, _, _, _, rfl, rfl⟩ := renamed.made
      have own := group_own labels record
      subst own
      apply group_read wkt
      unfold GroupAt
      rw [hashAt_groupRenamed]
      exact group_fields_name record newName
  | patchGroup groupId ttlSeconds slidingTtl calloutEnabled =>
    obtain ⟨g, made, rfl⟩ := map_answered ran
    rcases patchGroup_cases wk groupId ttlSeconds slidingTtl calloutEnabled with
      ⟨e, failed⟩ | ⟨old, h, ran, record, bound, patched⟩
    · rw [failed] at made
      cases made
    · rw [ran] at made
      cases made
      subst patched
      have own := group_own labels record
      subst own
      exact group_read wkt (group_at_patched record bound slidingTtl calloutEnabled)
  | refreshGroup groupId =>
    obtain ⟨g, made, rfl⟩ := map_answered ran
    rcases refreshGroup_cases wk groupId with ⟨e, failed⟩ | ⟨h, ran, record⟩
    · rw [failed] at made
      cases made
    · rw [ran] at made
      cases made
      have own := group_own labels record
      subst own
      apply group_read wkt
      simpa [GroupAt, groupArmed, ttlArmed] using record

end ReadBack

/-- Whatever went on before, and whatever still is under way, the record that an edit
    answers is the one read back from storage. -/
theorem returned_record_is_stored [UlidText]
    {p : Pool Store (Prog Store RegistryError Unit) (List String)}
    (reached : Reached overlapping (fun _ _ => True) p) {edit : Edit}
    (possible : edit.Possible p.log) {record : Record} {t : Store}
    (ran : run edit.perform p.shared = (.ok record, t)) : run record.read t = (.ok record, t) := by
  apply edit_read_back (overlapping_labelled reached none nofun) _ ran
  intro id drawn
  apply overlapping_labelled reached (some id)
  rintro x ⟨⟩
  exact (possible.2 id drawn).1

namespace Sample

/-- A group is created, and a route half stored, when the group is patched. -/
def underWay : List (PoolAction Call Nat) :=
  .launch (.mutation (.createGroup (group "shop" "ann") idA 0 draw)) ::
    List.replicate 14 (.resume 0) ++
    .launch (.mutation (.createRoute (route "shop" "/a" "one" "ann") ⟨idB, idC⟩ 1 draw)) ::
    List.replicate 9 (.resume 1) ++ [.outside 5]

def patchedShop : Group where
  id := idA
  name := "shop"
  implicit := false
  createdAt := 0
  ownerId := "ann"
  ttlSeconds := 60
  slidingTtl := false
  calloutEnabled := false
  lastActivityAt := none

end Sample

theorem returned_record_is_stored_shop : ∃ (p : Pool Store (Prog Store RegistryError Unit)
    (List String)) (t : Store), Reached overlapping (fun _ _ => True) p ∧
      run (Edit.patchGroup Sample.idA (some 60) (some false) none).perform p.shared =
        (.ok (.group Sample.patchedShop), t) ∧
      run (Record.group Sample.patchedShop).read t = (.ok (.group Sample.patchedShop), t) := by
  have ran : ((exec overlapping ⟨Storage.empty .valkey, [], []⟩ Sample.underWay).map (fun p =>
      (run (Edit.patchGroup Sample.idA (some 60) (some false) none).perform p.shared).1.toOption)) =
      some (some (.group Sample.patchedShop)) := by
    decide +kernel
  obtain ⟨p, done, patched⟩ := Option.map_eq_some_iff.mp ran
  have reached := reached_of_exec (m := overlapping) Sample.underWay
    ⟨⟨.valkey, rfl, rfl⟩, rfl⟩ done
  rcases answer : run (Edit.patchGroup Sample.idA (some 60) (some false) none).perform p.shared with
    ⟨e | record, t⟩
  · rw [answer] at patched
    cases patched
  · rw [answer] at patched
    cases patched
    exact ⟨p, t, reached, answer, returned_record_is_stored reached ⟨by simp [Edit.draws],
      by simp [Edit.draws]⟩ answer⟩

end WireMirage
