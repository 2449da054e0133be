import WireMirage.Journal.Addressing
import WireMirage.Table.Mutations

/-!
All that changes the storage of a host: the mutations of the catalog, the cascade of
a group by its id, and the activity around them that leaves the catalog as it is.
-/
namespace WireMirage
open Prog StepMachine

/-- What a handler does to one key of its state. -/
inductive StateOp where
  | set (v : Bytes)
  | delete
  | incr (delta : Int)
  | listPush (v : Bytes)
  | listPop
  | hashSet (field : String) (v : Bytes)
  | hashDelete (field : String)
  | setAdd (member : String)
  | setRemove (member : String)

def StateOp.apply (k : Key) (s : Store) : StateOp → Store
  | .set v => (s.set k (.blob v)).2
  | .delete => (s.delete k).2
  | .incr delta => (s.incr k delta).2
  | .listPush v => (s.listPush k (.blob v)).2
  | .listPop => (s.listPop k).2
  | .hashSet field v => (s.hashSet k field (.blob v)).2
  | .hashDelete field => (s.hashDelete k field).2
  | .setAdd member => (s.setAdd k member).2
  | .setRemove member => (s.setRemove k member).2

/-- An operation on one key leaves every other key as it was. -/
theorem lookup_stateOp (k : Key) (s : Store) (op : StateOp) {k' : Key} (other : k' ≠ k) :
    (op.apply k s).lookup k' = s.lookup k' := by
  cases op with
  | set v => exact (Storage.lookup_replace s k k' _ _).trans (if_neg other)
  | delete => exact (Storage.lookup_erase s k k').trans (if_neg other)
  | incr delta =>
    simp only [StateOp.apply, Storage.incr]
    split
    · exact (Storage.lookup_write s k k' _).trans (if_neg other)
    · unfold Storage.storeSum
      split
      · rfl
      · exact (Storage.lookup_write s k k' _).trans (if_neg other)
    · rfl
  | listPush v =>
    simp only [StateOp.apply, Storage.listPush]
    split <;> first | rfl | exact (Storage.lookup_write s k k' _).trans (if_neg other)
  | listPop =>
    simp only [StateOp.apply, Storage.listPop]
    split <;> first | rfl | exact Storage.lookup_writeBack_ne s _ other
  | hashSet field v =>
    simp only [StateOp.apply, Storage.hashSet]
    split <;> first | rfl | exact (Storage.lookup_write s k k' _).trans (if_neg other)
  | hashDelete field =>
    simp only [StateOp.apply, Storage.hashDelete]
    split <;> first | rfl | exact Storage.lookup_writeBack_ne s _ other
  | setAdd member =>
    simp only [StateOp.apply, Storage.setAdd]
    split <;> first | rfl | exact (Storage.lookup_write s k k' _).trans (if_neg other)
  | setRemove member =>
    simp only [StateOp.apply, Storage.setRemove]
    split <;> first | rfl | exact Storage.lookup_writeBack_ne s _ other

/-- What goes on around the catalog: settings, expiry, state, hits and the journal. -/
inductive Activity where
  | patchGroup (groupId : String) (ttlSeconds : Option Nat)
    (slidingTtl calloutEnabled : Option Bool)
  | refreshGroup (groupId : String)
  | refreshGroupIfSliding (groupId : String)
  | recordRouteHit (groupId routeId : String) (when_ : Time)
  | clearGroupState (groupId : String)
  | setGroupState (groupId : String) (state : List (String × Bytes))
  | clearRouteState (groupRef : String) (number : Nat)
  | setRouteState (groupRef : String) (number : Nat) (state : List (String × Bytes))
  | clearGroupJournal (groupId : String)
  | recordHandled (entry : NewJournalEntry) (id : String) (now : Time)
  | recordCallback (entry : NewCallbackEntry) (id : String) (now : Time)
  | recordUnmatched (entry : NewUnmatchedEntry) (id : String) (now : Time)
  | handlerState (groupId routeId key : String) (op : StateOp)
  | handlerGroupState (groupId key : String) (op : StateOp)

namespace Activity

/-- The ids that the activity of a dispatch takes from the route it matched. -/
def mentions : Activity → List String
  | .recordRouteHit groupId routeId _ => [groupId, routeId]
  | .recordHandled entry _ _ => [entry.groupId]
  | .recordCallback entry _ _ => [entry.groupId]
  | .handlerState groupId routeId _ _ => [groupId, routeId]
  | .handlerGroupState groupId _ _ => [groupId]
  | _ => []

def perform [UlidText] (s : Store) : Activity → Store
  | .patchGroup gid ttl sliding callout => (run (WireMirage.patchGroup gid ttl sliding callout) s).2
  | .refreshGroup gid => (run (WireMirage.refreshGroup gid) s).2
  | .refreshGroupIfSliding gid => (run (WireMirage.refreshGroupIfSliding gid) s).2
  | .recordRouteHit gid rid now => (run (WireMirage.recordRouteHit gid rid now) s).2
  | .clearGroupState gid => (run (WireMirage.clearGroupState gid) s).2
  | .setGroupState gid state => (run (WireMirage.setGroupState gid state) s).2
  | .clearRouteState groupRef number => (run (WireMirage.clearRouteState groupRef number) s).2
  | .setRouteState groupRef number state =>
    (run (WireMirage.setRouteState groupRef number state) s).2
  | .clearGroupJournal gid => (run (WireMirage.clearGroupJournal gid) s).2
  | .recordHandled entry id now => (run (WireMirage.recordHandled entry id now) s).2
  | .recordCallback entry id now => (run (WireMirage.recordCallback entry id now) s).2
  | .recordUnmatched entry id now => (run (WireMirage.recordUnmatched entry id now) s).2
  | .handlerState gid rid key op => op.apply (.kv gid rid key) s
  | .handlerGroupState gid key op => op.apply (.gkv gid key) s

end Activity

section Steps
variable {s : Store} {c : Catalog} (hold : Consistent s c)
include hold

theorem consistent_stateOp {k : Key} (free : k.family = none) (op : StateOp) :
    Consistent (op.apply k s) c := by
  have stays : ∀ k' : Key, k' ≠ k → SameAt s (op.apply k s) k' := by
    intro k' other
    simp only [SameAt, Storage.bytesAt, Storage.hashAt, Storage.setAt, Storage.membersAt,
      lookup_stateOp k s op other, and_self]
  have away : ∀ k' : Key, k'.family ≠ none → k' ≠ k := by
    rintro k' typed rfl
    exact typed free
  apply consistent_elsewhere hold
  · intro k' v kind found typed
    rcases eq_or_ne k' k with rfl | other
    · rw [kind_of_key, free] at typed
      cases typed
    · rw [lookup_stateOp k s op other] at found
      exact hold.represents.kinded k' v kind found typed
  · intro k' mine _
    apply stays
    apply away
    cases k' <;> simp [Key.ofRoute, Key.ofGroup] at mine ⊢
  · intro gid new
    rw [(stays (.groupCounters gid) (away _ (by simp))).2.1]
    exact (hold.represents.groups.fresh gid new).2

/-- A record goes to its log, and its number into the counters of its group. -/
theorem consistent_stored {A : Type} {log : Log A}
    (records : ∀ id, (log.recordKey id).ofRoute = false ∧ (log.recordKey id).ofGroup = false)
    (index : ∀ n, (log.indexKey n).ofRoute = false ∧ (log.indexKey n).ofGroup = false)
    (id : String) (record : A) (recordEnds indexEnds : Option Nat) :
    Consistent (log.stored s id record recordEnds indexEnds) c := by
  have stays : ∀ k : Key, k.ofRoute = true ∨ k.ofGroup = true →
      SameAt s (log.stored s id record recordEnds indexEnds) k := by
    intro k mine
    have one : k ≠ log.recordKey id := by
      rintro rfl
      simp [records id] at mine
    have two : k ≠ log.indexKey (log.number record) := by
      rintro rfl
      simp [index (log.number record)] at mine
    simp [SameAt, Log.stored, one, two]
  apply consistent_elsewhere hold
    (log.wellKinded_stored s id record recordEnds indexEnds hold.represents.kinded)
  · exact fun k mine _ => stays k mine
  · intro gid new
    rw [(stays (.groupCounters gid) (.inr rfl)).2.1]
    exact (hold.represents.groups.fresh gid new).2

theorem consistent_numberIssued {gid : String} (minted : gid ∈ c.minted) (field : String)
    (n : Int) : Consistent (numberIssued s gid field n) c := by
  apply consistent_elsewhere hold (wellKinded_numberIssued hold.represents.kinded gid field n)
  · intro k _ other
    simp [SameAt, numberIssued, other gid]
  · intro id new
    have here : id ≠ gid := by
      rintro rfl
      exact new minted
    simpa [numberIssued, here] using (hold.represents.groups.fresh id new).2

theorem recordHandled_step (entry : NewJournalEntry) (id : String) (now : Time)
    (minted : entry.groupId ∈ c.minted) :
    Consistent (run (recordHandled entry id now) s).2 c := by
  rcases run_recordHandled hold.represents.kinded entry id now with
    ⟨e, _, _, ran⟩ | ⟨n, record, ends, _, _, _, ran⟩
  · rw [ran]
    exact hold
  · rw [ran]
    exact consistent_stored (consistent_numberIssued hold minted _ n) (fun _ => ⟨rfl, rfl⟩)
      (fun _ => ⟨rfl, rfl⟩) id record ends ends

theorem recordCallback_step (entry : NewCallbackEntry) (id : String) (now : Time)
    (minted : entry.groupId ∈ c.minted) :
    Consistent (run (recordCallback entry id now) s).2 c := by
  rcases run_recordCallback hold.represents.kinded entry id now with
    ⟨e, _, _, ran⟩ | ⟨n, record, ends, _, _, ran⟩
  · rw [ran]
    exact hold
  · rw [ran]
    exact consistent_stored (consistent_numberIssued hold minted _ n) (fun _ => ⟨rfl, rfl⟩)
      (fun _ => ⟨rfl, rfl⟩) id record ends none

theorem recordUnmatched_step (entry : NewUnmatchedEntry) (id : String) (now : Time) :
    Consistent (run (recordUnmatched entry id now) s).2 c := by
  rcases run_recordUnmatched hold.represents.kinded entry id now with
    ⟨e, ran⟩ | ⟨n, record, ends, _, _, ran⟩
  · rw [ran]
    exact hold
  · rw [ran]
    have counted : Consistent (s.write .unmatchedCounter (.bytes (.int n))) c := by
      have stays : ∀ k : Key, k ≠ .unmatchedCounter →
          SameAt s (s.write .unmatchedCounter (.bytes (.int n))) k := by
        intro k other
        simp [SameAt, Storage.bytesAt, Storage.hashAt, Storage.setAt, Storage.membersAt,
          Storage.lookup_write, other]
      apply consistent_elsewhere hold (Storage.wellKinded_write
        (k := .unmatchedCounter) hold.represents.kinded _ (by simp [MemValue.kind]))
      · intro k mine _
        apply stays
        rintro rfl
        simp [Key.ofRoute, Key.ofGroup] at mine
      · intro gid new
        rw [(stays (.groupCounters gid) (by simp)).2.1]
        exact (hold.represents.groups.fresh gid new).2
    exact consistent_stored counted (fun _ => ⟨rfl, rfl⟩) (fun _ => ⟨rfl, rfl⟩) id record ends none

/-- No activity changes what identifies and serves the groups and routes. -/
theorem activity_step [UlidText] (a : Activity) (known : ∀ id ∈ a.mentions, id ∈ c.minted) :
    ∃ d, Consistent (a.perform s) d ∧ Alike c d := by
  have same : ∀ {t : Store}, Consistent t c → ∃ d, Consistent t d ∧ Alike c d :=
    fun kept => ⟨c, kept, Alike.refl c⟩
  cases a with
  | patchGroup gid ttl sliding callout => exact patchGroup_step hold gid ttl sliding callout
  | refreshGroup gid => exact same (refreshGroup_step hold gid)
  | refreshGroupIfSliding gid => exact same (refreshGroupIfSliding_step hold gid)
  | recordRouteHit gid rid now =>
    exact recordRouteHit_step hold (known gid (by simp [Activity.mentions]))
      (known rid (by simp [Activity.mentions])) now
  | clearGroupState gid => exact same (clearGroupState_step hold gid)
  | setGroupState gid state => exact same (setGroupState_step hold gid state)
  | clearRouteState groupRef number => exact same (clearRouteState_step hold groupRef number)
  | setRouteState groupRef number state =>
    exact same (setRouteState_step hold groupRef number state)
  | clearGroupJournal gid => exact same (clearGroupJournal_step hold gid)
  | recordHandled entry id now =>
    exact same (recordHandled_step hold entry id now (known _ (by simp [Activity.mentions])))
  | recordCallback entry id now =>
    exact same (recordCallback_step hold entry id now (known _ (by simp [Activity.mentions])))
  | recordUnmatched entry id now => exact same (recordUnmatched_step hold entry id now)
  | handlerState gid rid key op => exact same (consistent_stateOp hold rfl op)
  | handlerGroupState gid key op => exact same (consistent_stateOp hold rfl op)

end Steps

/-! Sequences of calls -/

inductive Call where
  | mutation (m : Mutation)
  | cascadeDeleteGroup (groupId : String)
  | activity (a : Activity)

namespace Call

def draws : Call → List String
  | .mutation m => m.draws
  | _ => []

def mentions : Call → List String
  | .activity a => a.mentions
  | _ => []

def perform [UlidText] (s : Store) : Call → Store
  | .mutation m => (run m.commit s).2
  | .cascadeDeleteGroup gid => (run (WireMirage.cascadeDeleteGroup gid) s).2
  | .activity a => a.perform s

/-- New ids are drawn, and a dispatch mentions ids that were. -/
def Possible [UlidText] (minted : List String) (call : Call) : Prop :=
  call.draws.Nodup ∧ (∀ id ∈ call.draws, Drawable minted id) ∧ ∀ id ∈ call.mentions, id ∈ minted

instance [UlidText] (minted : List String) (call : Call) : Decidable (call.Possible minted) :=
  inferInstanceAs (Decidable (_ ∧ _ ∧ _))

end Call

structure CallState where
  store : Store
  minted : List String

/-- Calls run one after another, against a storage that starts out empty. -/
def calls [UlidText] : Machine CallState Call where
  start s := ∃ b, s = ⟨Storage.empty b, []⟩
  step s call := if call.Possible s.minted then
    some ⟨call.perform s.store, call.draws ++ s.minted⟩ else none

/-- The storage holds a catalog, of the ids drawn so far. -/
structure Stored [UlidText] (s : CallState) (c : Catalog) : Prop where
  consistent : Consistent s.store c
  minted : ∀ id, id ∈ c.minted ↔ id ∈ s.minted
  ulids : ∀ id ∈ s.minted, UlidText.fromString id = true ∧ id ≠ ""

/-- A catalog with further ids taken note of. -/
def Catalog.mintAll (c : Catalog) (ids : List String) : Catalog := ids.foldl Catalog.mint c

theorem mintAll_minted (ids : List String) (c : Catalog) (id : String) :
    id ∈ (c.mintAll ids).minted ↔ id ∈ ids ∨ id ∈ c.minted := by
  induction ids generalizing c with
  | nil => simp [Catalog.mintAll]
  | cons x ids ih =>
    show id ∈ ((c.mint x).mintAll ids).minted ↔ _
    rw [ih]
    simp only [Catalog.mint, List.mem_cons]
    tauto

theorem mintAll_same (ids : List String) (c : Catalog) :
    (c.mintAll ids).routes = c.routes ∧ (c.mintAll ids).groups = c.groups := by
  induction ids generalizing c with
  | nil => exact ⟨rfl, rfl⟩
  | cons x ids ih => exact ih (c.mint x)

theorem consistent_mintAll {s : Store} (ids : List String) {c : Catalog} (hold : Consistent s c) :
    Consistent s (c.mintAll ids) := by
  induction ids generalizing c with
  | nil => exact hold
  | cons x ids ih => exact ih (consistent_mint hold x)

section
variable [UlidText] {s : CallState} {c : Catalog} (held : Stored s c)
include held

/-- A step that draws ids leaves a catalog of all the ids drawn so far. -/
theorem stored_after {t : Store} {d : Catalog} {draws : List String}
    (drawable : ∀ id ∈ draws, Drawable s.minted id) (kept : Consistent t d)
    (within : ∀ id ∈ d.minted, id ∈ draws ++ c.minted) :
    ∃ e, Stored ⟨t, draws ++ s.minted⟩ e ∧ e.routes = d.routes ∧ e.groups = d.groups := by
  refine ⟨d.mintAll (draws ++ c.minted), ⟨consistent_mintAll _ kept, ?_, ?_⟩, mintAll_same _ d⟩
  · intro id
    rw [mintAll_minted]
    simp only [List.mem_append, held.minted]
    constructor
    · rintro (known | inside)
      · exact known
      · simpa [held.minted] using within id inside
    · exact .inl
  · intro id member
    rcases List.mem_append.mp member with drawn | old
    · exact (drawable id drawn).2
    · exact held.ulids id old

theorem stored_commit (m : Mutation) (possible : (Call.mutation m).Possible s.minted) :
    (∃ e, run m.commit s.store = (.error e, s.store) ∧
      ∃ d, Stored ⟨s.store, m.draws ++ s.minted⟩ d ∧ d.routes = c.routes ∧ d.groups = c.groups) ∨
      ∃ refresh t d e, run m.commit s.store = (.ok refresh, t) ∧ Committed c refresh d ∧
        Stored ⟨t, m.draws ++ s.minted⟩ e ∧ e.routes = d.routes ∧ e.groups = d.groups := by
  obtain ⟨distinct, drawable, _⟩ := possible
  have ulids : ∀ id ∈ c.minted, UlidText.fromString id = true ∧ id ≠ "" :=
    fun id member => held.ulids id ((held.minted id).mp member)
  have fresh : m.Fresh c.minted :=
    ⟨distinct, fun id member inside => (drawable id member).1 ((held.minted id).mp inside)⟩
  rcases commit_step held.consistent ulids m fresh with
    ⟨e, ran⟩ | ⟨refresh, t, d, ran, committed, kept, within⟩
  · exact .inl ⟨e, ran, stored_after held drawable held.consistent
      (fun id member => List.mem_append_right _ member)⟩
  · obtain ⟨e, after, same⟩ := stored_after held drawable kept within
    exact .inr ⟨refresh, t, d, e, ran, committed, after, same⟩

theorem stored_activity (a : Activity) (known : ∀ id ∈ a.mentions, id ∈ s.minted) :
    ∃ d, Stored ⟨a.perform s.store, s.minted⟩ d ∧ Alike c d := by
  obtain ⟨d, kept, alike⟩ := activity_step held.consistent a
    (fun id mentioned => (held.minted id).mpr (known id mentioned))
  exact ⟨d, ⟨kept, fun id => alike.minted ▸ held.minted id, held.ulids⟩, alike⟩

theorem stored_cascade (gid : String) :
    (∃ e, run (cascadeDeleteGroup gid) s.store = (.error e, s.store)) ∨
      Stored ⟨(run (cascadeDeleteGroup gid) s.store).2, s.minted⟩ (c.dropGroup gid) := by
  rcases cascadeDeleteGroup_step held.consistent gid with failed | ⟨ran, kept⟩
  · exact .inl failed
  · rw [ran]
    exact .inr ⟨kept, held.minted, held.ulids⟩

theorem stored_step (call : Call) (possible : call.Possible s.minted) :
    ∃ d, Stored ⟨call.perform s.store, call.draws ++ s.minted⟩ d := by
  cases call with
  | mutation m =>
    show ∃ d, Stored ⟨(run m.commit s.store).2, _⟩ d
    rcases stored_commit held m possible with ⟨e, ran, d, after, _⟩ | ⟨_, t, _, e, ran, _, after, _⟩
    · rw [ran]
      exact ⟨d, after⟩
    · rw [ran]
      exact ⟨e, after⟩
  | cascadeDeleteGroup gid =>
    show ∃ d, Stored ⟨(run (cascadeDeleteGroup gid) s.store).2, _⟩ d
    rcases stored_cascade held gid with ⟨e, ran⟩ | after
    · rw [ran]
      exact ⟨c, held⟩
    · exact ⟨_, after⟩
  | activity a =>
    obtain ⟨d, after, _⟩ := stored_activity held a possible.2.2
    exact ⟨d, after⟩

end

theorem calls_stored [UlidText] {s : CallState} {allow : CallState → Call → Prop}
    (reached : Reached calls allow s) : ∃ c, Stored s c := by
  have base : ∀ s, calls.start s → ∃ c, Stored s c := by
    rintro s ⟨b, rfl⟩
    exact ⟨Catalog.empty, consistent_empty b, by simp [Catalog.empty], by simp⟩
  have preserved : ∀ s call t, (∃ c, Stored s c) → allow s call → calls.step s call = some t →
      ∃ c, Stored t c := by
    rintro s call t ⟨c, held⟩ _ next
    simp only [calls] at next
    split at next
    · rename_i possible
      cases next
      exact stored_step held call possible
    · cases next
  exact reached_invariant base preserved reached

end WireMirage
