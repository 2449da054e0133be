import WireMirage.Table.Replicas

/-!
What holds of every replica in every run whose operations on one table do not mix: a group whose
rows are not the stored routes, or a route whose record or artifact is an old one, has an
invalidation out that says so.
-/
namespace WireMirage
open Prog StepMachine RouteTable Notices

section
variable {Component : Type} {tools : Toolchain Component} {c d : Catalog}

/-- The routes that an invalidation names are of the group it names. -/
def Named (c : Catalog) (event : RouteInvalidation) : Prop :=
  ∀ rid ∈ event.routeIds, rid ∈ c.minted ∧ ∀ r, c.routes rid = some r → r.groupId = event.groupId

namespace Underway

/-- What an operation has still to publish. -/
def owes (t : RouteTable Component) : Underway Component → Option RouteInvalidation
  | .refreshing refresh => refresh.published t
  | .announcing event => some event
  | _ => none

def isResync : Underway Component → Bool
  | .resyncing _ => true
  | _ => false

end Underway

namespace Replica

/-- The table once the operations under way have written what they have. -/
def settled (r : Replica Component) : RouteTable Component :=
  r.underway.foldl Underway.write r.table

/-- The replica has read its whole table since it subscribed, written or not. -/
def resyncs (r : Replica Component) : Bool :=
  r.subscription.any (fun sub => sub.resynced || r.underway.any Underway.isResync)

/-- A notice is on its way to the replica or lost, or taken up and its group not read yet. -/
def Awaits (r : Replica Component) (n : Notice) : Prop :=
  (∃ sub, r.subscription = some sub ∧ sub.inbox.Outstanding n) ∨ .evicted n ∈ r.underway

def Owes (r : Replica Component) (event : RouteInvalidation) : Prop :=
  ∃ u ∈ r.underway, u.owes r.table = some event

/-- Subscribed and resynced, with nothing under way. -/
def Listening (r : Replica Component) : Prop :=
  r.underway = [] ∧ ∃ inbox, r.subscription = some ⟨true, inbox⟩

end Replica

namespace Cluster

/-- A change that is committed and not published yet. -/
def Owes (s : Cluster Component) (n : Notice) : Prop :=
  ∃ r, s.replicas n.origin = some r ∧ r.Owes n.event

/-- An invalidation that a replica has not acted on: still to be published, on its way, or lost. -/
def Unheard (s : Cluster Component) (r : Replica Component) (n : Notice) : Prop :=
  r.Awaits n ∨ s.Owes n

end Cluster

structure UpToDate (tools : Toolchain Component) (s : Cluster Component) (c : Catalog) (i : Nat)
    (r : Replica Component) : Prop where
  single : r.underway.length ≤ 1
  cleared : ∀ n, .evicted n ∈ r.underway → ∀ rid ∈ n.event.routeIds,
    r.table.components.lookup rid = none ∧ r.table.engineJs.lookup rid = none
  named : ∀ n, r.Awaits n → Named c n.event
  placed : Placed c r.settled
  upheld : r.resyncs = true → Upheld (Notice.Concerns i) (s.Unheard r) (Good tools c r.settled)

structure Coherent [UlidText] (tools : Toolchain Component) (s : Cluster Component)
    (c : Catalog) : Prop where
  consistent : Consistent s.store c
  minted : ∀ id ∈ c.minted, id ∈ s.minted
  ulids : ∀ id ∈ s.minted, UlidText.fromString id = true ∧ id ≠ ""
  owed : ∀ n, s.Owes n → Named c n.event
  replica : ∀ i r, s.replicas i = some r → UpToDate tools s c i r

/-! Tables -/

section Tables
variable {t t' : RouteTable Component}

/-- A table with other notes of when its groups were read. -/
def marked (marks : AList (fun _ : String => Nat)) (t : RouteTable Component) :
    RouteTable Component :=
  { t with revalidatedAt := marks }

theorem good_marked (marks : AList (fun _ : String => Nat)) (item : Item)
    (good : Good tools c t item) : Good tools c (marked marks t) item := by
  cases item with
  | group gid => exact good
  | route rid =>
    intro r live
    obtain ⟨rows, built⟩ := good r live
    exact ⟨rows, built.component, built.engineJs⟩

theorem placed_marked (marks : AList (fun _ : String => Nat)) (placed : Placed c t) :
    Placed c (marked marks t) :=
  ⟨placed.distinct, placed.known, placed.home, placed.components, placed.engineJs⟩

theorem placed_evictAll (ids : List String) (placed : Placed c t) : Placed c (t.evictAll ids) where
  distinct := by
    rw [routes_evictAll]
    exact placed.distinct
  known := by
    rw [routes_evictAll]
    exact placed.known
  home := by
    rw [routes_evictAll]
    exact placed.home
  components := by
    intro rid x held
    rw [components_evictAll] at held
    split at held
    · cases held
    · exact placed.components rid x held
  engineJs := by
    intro rid js held
    rw [engineJs_evictAll] at held
    split at held
    · cases held
    · exact placed.engineJs rid js held

theorem good_evictAll (ids : List String) (item : Item) (good : Good tools c t item) :
    Good tools c (t.evictAll ids) item := by
  cases item with
  | group gid =>
    intro r home
    rw [routes_evictAll]
    exact good r home
  | route rid =>
    intro r live
    obtain ⟨rows, built⟩ := good r live
    refine ⟨?_, builtFrom_fewer built ?_ ?_⟩
    · rw [routes_evictAll]
      exact rows
    · intro x held
      rw [components_evictAll] at held
      split at held
      · cases held
      · exact held
    · intro js held
      rw [engineJs_evictAll] at held
      split at held
      · cases held
      · exact held

/-- The group was read again within the interval. -/
def SlotTaken (t : RouteTable Component) (gid : String) (now : Nat) : Prop :=
  (t.revalidatedAt.lookup gid).any (fun last => now - last < t.revalidateInterval) = true

instance (t : RouteTable Component) (gid : String) (now : Nat) : Decidable (SlotTaken t gid now) :=
  inferInstanceAs (Decidable (_ = true))

theorem claim_cases (gid : String) (now : Nat) : t.claimRevalidation gid now =
    if SlotTaken t gid now then none else some (marked (t.revalidatedAt.insert gid now) t) := rfl

section Reading
variable {store : Store} (hold : Consistent store c)
include hold

/-- Reading a group again spoils nothing, and makes the group good. -/
theorem reread (placed : Placed c t) (gid : String) :
    Placed c (t.reloadGroup gid (run (routesInGroup gid) store).1).2 ∧
      ∀ item, (Good tools c t item →
          Good tools c (t.reloadGroup gid (run (routesInGroup gid) store).1).2 item) ∧
        (item = .group gid →
          Good tools c (t.reloadGroup gid (run (routesInGroup gid) store).1).2 item) := by
  obtain ⟨rows, read, distinct, members⟩ := read_group hold gid
  rw [read]
  exact ⟨placed_replaceGroup hold distinct members placed, good_replaceGroup members⟩

/-- A route that an invalidation names is good once its group is read and nothing is cached. -/
theorem heeded (placed : Placed c t) {event : RouteInvalidation} (named : Named c event)
    {rid : String} (inside : rid ∈ event.routeIds)
    (bare : t.components.lookup rid = none ∧ t.engineJs.lookup rid = none) :
    Good tools c (t.reloadGroup event.groupId (run (routesInGroup event.groupId) store).1).2
      (.route rid) := by
  obtain ⟨rows, read, _, members⟩ := read_group hold event.groupId
  rw [read]
  show Good tools c (t.replaceGroup event.groupId rows) (.route rid)
  intro r live
  have home := (named rid inside).2 r live
  have id := hold.sound.routeId live
  refine ⟨?_, ?_, ?_⟩
  · rintro q row rfl
    rw [mem_replaceGroup members] at row
    split at row
    · rw [live, Option.some.injEq] at row
      exact row ▸ sameContent_refl r
    · rename_i away
      exact absurd ((placed.home q row r live).trans home) away
  · intro x held
    change t.components.lookup r.id = some x at held
    rw [id, bare.1] at held
    cases held
  · intro js held
    change t.engineJs.lookup r.id = some js at held
    rw [id, bare.2] at held
    cases held

end Reading

section Building
variable {route : Route} {u : Underway Component}

theorem compile_some (built : Underway.compile tools route t = some u) :
    ∃ x, tools.fromBinary route.compiledWasm = some x ∧ u = .compiled route x := by
  unfold Underway.compile at built
  split at built
  · cases built
  · obtain ⟨x, made, rfl⟩ := Option.map_eq_some_iff.mp built
    exact ⟨x, made, rfl⟩

theorem transpile_some (built : Underway.transpile tools route t = some u) :
    ∃ source js, route.source = some source ∧ tools.transpile source = .ok js ∧
      u = .transpiled route js := by
  unfold Underway.transpile at built
  split at built
  · rename_i source authored _
    obtain ⟨js, made, rfl⟩ := Option.map_eq_some_iff.mp built
    refine ⟨source, js, authored, ?_, rfl⟩
    cases answer : tools.transpile source with
    | error e => simp [answer, Except.toOption] at made
    | ok text =>
      simp only [answer, Except.toOption, Option.some.injEq] at made
      rw [made]
  · cases built

/-- What a row of the table is compiled to is kept under its id. -/
theorem good_compiled (sound : c.Sound) (placed : Placed c t) (row : route ∈ t.routes)
    (built : Underway.compile tools route t = some u) :
    Placed c (u.write t) ∧ ∀ item, Good tools c t item → Good tools c (u.write t) item := by
  obtain ⟨x, made, rfl⟩ := compile_some built
  refine ⟨⟨placed.distinct, placed.known, placed.home, ?_, placed.engineJs⟩, ?_⟩
  · intro rid y held
    by_cases here : rid = route.id
    · exact here ▸ placed.known route row
    · rw [Underway.write, insertComponent, AList.lookup_insert_ne here] at held
      exact placed.components rid y held
  · intro item good
    cases item with
    | group gid => exact good
    | route rid =>
      intro r live
      obtain ⟨rows, before⟩ := good r live
      refine ⟨rows, ?_, before.engineJs⟩
      intro y held
      by_cases here : r.id = route.id
      · rw [Underway.write, insertComponent, here, AList.lookup_insert, Option.some.injEq] at held
        have content := rows route row (here.symm.trans (sound.routeId live))
        rw [← content.2.2, ← held]
        exact made
      · rw [Underway.write, insertComponent, AList.lookup_insert_ne here] at held
        exact before.component y held

theorem good_transpiled (sound : c.Sound) (placed : Placed c t) (row : route ∈ t.routes)
    (built : Underway.transpile tools route t = some u) :
    Placed c (u.write t) ∧ ∀ item, Good tools c t item → Good tools c (u.write t) item := by
  obtain ⟨source, js, authored, made, rfl⟩ := transpile_some built
  refine ⟨⟨placed.distinct, placed.known, placed.home, placed.components, ?_⟩, ?_⟩
  · intro rid y held
    by_cases here : rid = route.id
    · exact here ▸ placed.known route row
    · rw [Underway.write, insertEngineJs, AList.lookup_insert_ne here] at held
      exact placed.engineJs rid y held
  · intro item good
    cases item with
    | group gid => exact good
    | route rid =>
      intro r live
      obtain ⟨rows, before⟩ := good r live
      refine ⟨rows, before.component, ?_⟩
      intro y held
      by_cases here : r.id = route.id
      · rw [Underway.write, insertEngineJs, here, AList.lookup_insert, Option.some.injEq] at held
        have content := rows route row (here.symm.trans (sound.routeId live))
        rw [← content.2.1, ← held]
        exact ⟨source, authored, made⟩
      · rw [Underway.write, insertEngineJs, AList.lookup_insert_ne here] at held
        exact before.engineJs y held

end Building
end Tables

/-! Steps -/

section Steps
variable {s s' : Cluster Component} {i : Nat} {r r' : Replica Component} {u : Underway Component}

theorem settled_idle (idle : r.underway = []) : r.settled = r.table := by
  rw [Replica.settled, idle, List.foldl_nil]

theorem settled_begin (idle : r.underway = []) : (r.begin u).settled = u.write r.table := by
  simp [Replica.settled, Replica.begin, idle]

theorem owes_idle (idle : r.underway = []) (event : RouteInvalidation) : ¬ r.Owes event := by
  rintro ⟨u, member, _⟩
  rw [idle] at member
  cases member

theorem owes_begin (idle : r.underway = []) (event : RouteInvalidation) :
    (r.begin u).Owes event ↔ u.owes r.table = some event := by
  simp [Replica.Owes, Replica.begin, idle]

theorem awaits_begin (idle : r.underway = []) (calm : ∀ n, u ≠ .evicted n) (n : Notice) :
    (r.begin u).Awaits n ↔ r.Awaits n := by
  simp [Replica.Awaits, Replica.begin, idle, Ne.symm (calm n)]

theorem resyncs_begin (idle : r.underway = []) (calm : u.isResync = false) :
    (r.begin u).resyncs = r.resyncs := by
  simp [Replica.resyncs, Replica.begin, idle, calm]

theorem underway_single {k : Nat} (single : r.underway.length ≤ 1)
    (found : r.underway[k]? = some u) : k = 0 ∧ r.underway = [u] := by
  obtain ⟨within, same⟩ := List.getElem?_eq_some_iff.mp found
  have first : k = 0 := by omega
  subst first
  match ops : r.underway with
  | [] => simp [ops] at within
  | [v] => simp [ops] at same; exact ⟨rfl, by rw [same]⟩
  | v :: w :: rest => simp [ops] at single

/-- A replica whose table is no worse than before, and that waits for the same notices. -/
theorem upToDate_of (current : UpToDate tools s c i r) (single : r'.underway.length ≤ 1)
    (cleared : ∀ n, .evicted n ∈ r'.underway → ∀ rid ∈ n.event.routeIds,
      r'.table.components.lookup rid = none ∧ r'.table.engineJs.lookup rid = none)
    (awaits : ∀ n, r'.Awaits n ↔ r.Awaits n) (synced : r'.resyncs = true → r.resyncs = true)
    (better : Placed c r'.settled ∧
      ∀ item, Good tools c r.settled item → Good tools c r'.settled item) :
    UpToDate tools s c i r' where
  single := single
  cleared := cleared
  named n waits := current.named n ((awaits n).mp waits)
  placed := better.1
  upheld resynced := upheld_spoiled (current.upheld (synced resynced))
    (fun n => Or.imp_left (awaits n).mpr) (fun item good => .inl (better.2 item good))

theorem upToDate_owed (current : UpToDate tools s c i r) (owed : ∀ n, s.Owes n → s'.Owes n) :
    UpToDate tools s' c i r where
  single := current.single
  cleared := current.cleared
  named := current.named
  placed := current.placed
  upheld resynced := upheld_spoiled (current.upheld resynced) (fun n => Or.imp_right (owed n))
    (fun _ good => .inl good)

theorem owes_set {changed : Option (Replica Component)}
    (same : ∀ event, (∃ r, changed = some r ∧ r.Owes event) ↔
      ∃ r, s.replicas i = some r ∧ r.Owes event) (n : Notice) :
    (s.set i changed).Owes n ↔ s.Owes n := by
  unfold Cluster.Owes Cluster.set
  by_cases here : n.origin = i
  · subst here
    simpa using same n.event
  · simp [here]

variable [UlidText]

/-- A step that changes one replica, and publishes nothing. -/
theorem coherent_set (coherent : Coherent tools s c) {changed : Option (Replica Component)}
    (same : ∀ event, (∃ r, changed = some r ∧ r.Owes event) ↔
      ∃ r, s.replicas i = some r ∧ r.Owes event)
    (kept : ∀ r, changed = some r → UpToDate tools s c i r) :
    Coherent tools (s.set i changed) c where
  consistent := coherent.consistent
  minted := coherent.minted
  ulids := coherent.ulids
  owed n owes := coherent.owed n ((owes_set same n).mp owes)
  replica j r running := by
    have owed := fun n => (owes_set same n).mpr
    by_cases here : j = i
    · subst here
      exact upToDate_owed (kept r (by simpa [Cluster.set] using running)) owed
    · exact upToDate_owed
        (coherent.replica j r (by simpa [Cluster.set, here] using running)) owed

theorem coherent_moved (coherent : Coherent tools s c) (running : s.replicas i = some r)
    (owes : ∀ event, r'.Owes event ↔ r.Owes event) (kept : UpToDate tools s c i r') :
    Coherent tools (s.set i (some r')) c := by
  apply coherent_set coherent
  · intro event
    simp [running, owes]
  · rintro _ ⟨⟩
    exact kept

/-- A replica begins an operation that writes nothing worse than what is there. -/
theorem coherent_begin (coherent : Coherent tools s c) (running : s.replicas i = some r)
    (idle : r.underway = []) (silent : u.owes r.table = none) (calm : ∀ n, u ≠ .evicted n)
    (whole : u.isResync = false)
    (better : Placed c r.table → Placed c (u.write r.table) ∧
      ∀ item, Good tools c r.table item → Good tools c (u.write r.table) item) :
    Coherent tools (s.set i (some (r.begin u))) c := by
  have current := coherent.replica i r running
  apply coherent_moved coherent running
  · intro event
    rw [owes_begin idle, silent]
    exact iff_of_false (by simp) (owes_idle idle event)
  · have placed := current.placed
    rw [settled_idle idle] at placed
    refine upToDate_of current ?_ ?_ (awaits_begin idle calm) ?_ ?_
    · simp [Replica.begin, idle]
    · intro n member
      simp only [Replica.begin, idle, List.nil_append, List.mem_singleton] at member
      exact absurd member.symm (calm n)
    · rw [resyncs_begin idle whole]
      exact id
    · rw [settled_begin idle, settled_idle idle]
      exact better placed

omit [UlidText] in
theorem idle_of_orderly {a : ClusterAction} (orderly : s.orderly a = true)
    (touches : a.touches = some i) (running : s.replicas i = some r) : r.underway = [] := by
  simpa [Cluster.orderly, touches, running] using orderly

theorem coherent_start (coherent : Coherent tools s c) (interval : Nat)
    (stepped : s.step tools (.start i interval) = some s') : Coherent tools s' c := by
  obtain ⟨rows, read, distinct, members⟩ := read_all coherent.consistent
  simp only [Cluster.step, read] at stepped
  split at stepped
  · rename_i routes absent answer
    cases stepped
    cases answer
    apply coherent_set coherent
    · intro event
      refine iff_of_false ?_ ?_
      · rintro ⟨_, ⟨⟩, owes⟩
        exact owes_idle rfl event owes
      · rintro ⟨r, running, _⟩
        rw [absent] at running
        cases running
    · rintro _ ⟨⟩
      refine ⟨Nat.zero_le _, by simp, ?_, ?_, fun resynced => by cases resynced⟩
      · rintro n (⟨sub, none, _⟩ | member)
        · cases none
        · cases member
      · exact placed_fresh coherent.consistent distinct members rfl rfl rfl
  · cases stepped

theorem coherent_stop (coherent : Coherent tools s c) (orderly : s.orderly (.stop i) = true) :
    Coherent tools (s.set i none) c := by
  apply coherent_set coherent
  · intro event
    refine iff_of_false (by simp) ?_
    rintro ⟨r, running, owes⟩
    exact owes_idle (idle_of_orderly orderly rfl running) event owes
  · rintro _ ⟨⟩

theorem coherent_subscribe (coherent : Coherent tools s c)
    (orderly : s.orderly (.subscribe i) = true)
    (stepped : s.step tools (.subscribe i) = some s') : Coherent tools s' c := by
  simp only [Cluster.step] at stepped
  split at stepped
  · rename_i t underway running
    cases stepped
    obtain rfl : underway = [] := idle_of_orderly orderly rfl running
    have current := coherent.replica i _ running
    refine coherent_moved coherent running (fun _ => Iff.rfl) ?_
    refine upToDate_of current current.single current.cleared ?_ (fun synced => by cases synced)
      ⟨current.placed, fun _ good => good⟩
    intro n
    simp [Replica.Awaits, Inbox.Outstanding, Inbox.empty]
  · cases stepped

theorem coherent_resync (coherent : Coherent tools s c) (orderly : s.orderly (.resync i) = true)
    (stepped : s.step tools (.resync i) = some s') : Coherent tools s' c := by
  obtain ⟨rows, read, distinct, members⟩ := read_all coherent.consistent
  simp only [Cluster.step, read] at stepped
  split at stepped
  · rename_i t inbox underway running
    cases stepped
    obtain rfl : underway = [] := idle_of_orderly orderly rfl running
    have current := coherent.replica i _ running
    apply coherent_moved coherent running
    · intro event
      refine iff_of_false ?_ (owes_idle rfl event)
      simp [Replica.Owes, Underway.owes]
    · refine ⟨Nat.le_refl 1, by simp, ?_, ?_, ?_⟩
      · rintro n (⟨_, ⟨⟩, out⟩ | member)
        · exact current.named n (.inl ⟨_, rfl, outstanding_settle out⟩)
        · simp at member
      · exact placed_fresh coherent.consistent distinct members rfl rfl rfl
      · exact fun _ => upheld_good (good_fresh members rfl rfl rfl)
  · cases stepped

theorem coherent_receive (coherent : Coherent tools s c) (k : Nat)
    (orderly : s.orderly (.receive i k) = true)
    (stepped : s.step tools (.receive i k) = some s') : Coherent tools s' c := by
  simp only [Cluster.step] at stepped
  split at stepped
  · rename_i t inbox underway running
    obtain ⟨⟨n, left⟩, taken, same⟩ := Option.map_eq_some_iff.mp stepped
    cases same
    obtain rfl : underway = [] := idle_of_orderly orderly rfl running
    have current := coherent.replica i _ running
    apply coherent_moved coherent running
    · intro event
      refine iff_of_false ?_ (owes_idle rfl event)
      simp [Replica.Owes, Underway.owes]
    · refine upToDate_of current (Nat.le_refl 1) ?_ ?_ (fun _ => rfl)
        ⟨placed_evictAll _ current.placed, fun item good => good_evictAll _ item good⟩
      · intro m member rid inside
        simp only [List.nil_append, List.mem_singleton, Underway.evicted.injEq] at member
        subst member
        rw [components_evictAll, engineJs_evictAll, if_pos inside, if_pos inside]
        exact ⟨rfl, rfl⟩
      · intro m
        simp only [Replica.Awaits, Option.some.injEq, exists_eq_left', List.nil_append,
          List.mem_singleton, Underway.evicted.injEq, List.not_mem_nil, or_false]
        rw [outstanding_take taken, or_comm]
  · cases stepped

theorem coherent_lose (coherent : Coherent tools s c) (k : Nat)
    (stepped : s.step tools (.lose i k) = some s') : Coherent tools s' c := by
  simp only [Cluster.step] at stepped
  split at stepped
  · rename_i t resynced inbox underway running
    obtain ⟨left, missed, same⟩ := Option.map_eq_some_iff.mp stepped
    cases same
    have current := coherent.replica i _ running
    refine coherent_moved coherent running (fun _ => Iff.rfl) ?_
    refine upToDate_of current current.single current.cleared ?_ id
      ⟨current.placed, fun _ good => good⟩
    intro n
    simp only [Replica.Awaits, Option.some.injEq, exists_eq_left']
    rw [outstanding_miss missed]
  · cases stepped

theorem coherent_disconnect (coherent : Coherent tools s c) :
    Coherent tools (s.set i ((s.replicas i).map (fun r => { r with subscription := none }))) c := by
  cases running : s.replicas i with
  | none =>
    apply coherent_set coherent
    · intro event
      simp [running]
    · rintro _ ⟨⟩
  | some r =>
    have current := coherent.replica i r running
    refine coherent_moved coherent running (fun _ => Iff.rfl) ⟨current.single, current.cleared, ?_,
      current.placed, fun synced => by cases synced⟩
    rintro n (⟨_, ⟨⟩, _⟩ | member)
    exact current.named n (.inr member)

/-! The steps of an operation -/

/-- The step after an eviction reads the group: what the notice concerns is good then. -/
theorem coherent_evicted (coherent : Coherent tools s c) {t : RouteTable Component}
    {subscription : Option Subscription} {n : Notice}
    (running : s.replicas i = some ⟨t, subscription, [.evicted n]⟩) :
    Coherent tools (s.set i (some ⟨t, subscription,
      [.applying n.event (run (routesInGroup n.event.groupId) s.store).1]⟩)) c := by
  have current := coherent.replica i _ running
  have named := current.named n (.inr List.mem_cons_self)
  have placed : Placed c t := current.placed
  obtain ⟨placed', items⟩ : _ ∧ ∀ item, (Good tools c t item → _) ∧ _ :=
    reread coherent.consistent placed n.event.groupId
  apply coherent_moved coherent running
  · intro event
    simp [Replica.Owes, Underway.owes]
  · refine ⟨Nat.le_refl 1, by simp, ?_, placed', ?_⟩
    · rintro m (out | member)
      · exact current.named m (.inl out)
      · simp at member
    · intro synced
      have before := current.upheld (by simpa [Replica.resyncs, Underway.isResync] using synced)
      refine upheld_heeded (m := n) before ?_ ?_ (fun item => (items item).1)
      · rintro m ((out | member) | owes)
        · exact .inr (.inl (.inl out))
        · simp only [List.mem_singleton, Underway.evicted.injEq] at member
          exact .inl member
        · exact .inr (.inr owes)
      · intro item about
        cases item with
        | group gid => exact (items _).2 (congrArg Item.group about.2.symm)
        | route rid =>
          exact heeded coherent.consistent placed named about.2
            (current.cleared n List.mem_cons_self rid about.2)

/-- A replica that a notice was posted to, as it was before. -/
structure Announced (i : Nat) (event : RouteInvalidation) (j : Nat) (y x : Replica Component) :
    Prop where
  table : x.table = y.table
  subscription : x.subscription = y.subscription.map (Subscription.post ⟨i, event⟩)
  settled : x.settled = y.settled
  underway : j = i ∧ x.underway = [] ∨ j ≠ i ∧ x.underway = y.underway
  evicted : ∀ n, .evicted n ∈ x.underway ↔ .evicted n ∈ y.underway

section Announcing
variable {t : RouteTable Component} {subscription : Option Subscription}
  {event : RouteInvalidation} {j : Nat} {x y : Replica Component}

omit [UlidText] in
theorem resyncs_announced (after : Announced i event j y x) (synced : x.resyncs = true) :
    y.resyncs = true := by
  have subscribed := after.subscription
  cases earlier : y.subscription with
  | none => simp [Replica.resyncs, subscribed, earlier] at synced
  | some old =>
    rw [earlier] at subscribed
    simp only [Replica.resyncs, subscribed, earlier, Option.map_some, Option.any_some,
      Subscription.post, Bool.or_eq_true] at synced ⊢
    refine synced.imp_right (fun resyncing => ?_)
    rcases after.underway with ⟨_, ended⟩ | ⟨_, same⟩
    · simp [ended] at resyncing
    · rw [← same]
      exact resyncing

variable (running : s.replicas i = some ⟨t, subscription, [.announcing event]⟩)
include running

omit [UlidText] in
theorem announced (there : ((s.set i (some ⟨t, subscription, []⟩)).post
    ⟨i, event⟩).replicas j = some x) : ∃ y, s.replicas j = some y ∧ Announced i event j y x := by
  obtain ⟨y, moved, rfl⟩ := Option.map_eq_some_iff.mp there
  by_cases here : j = i
  · subst here
    obtain rfl : ⟨t, subscription, []⟩ = y := by simpa [Cluster.set] using moved
    exact ⟨_, running, rfl, rfl, rfl, .inl ⟨rfl, rfl⟩, by simp [Replica.told]⟩
  · exact ⟨y, by simpa [Cluster.set, here] using moved, rfl, rfl, rfl, .inr ⟨here, rfl⟩,
      fun _ => Iff.rfl⟩

omit [UlidText] in
/-- What was owed is in the inbox of every subscriber, and nothing else has changed. -/
theorem unheard_announced (after : Announced i event j y x) (synced : x.resyncs = true)
    {n : Notice} (unheard : s.Unheard y n) :
    ((s.set i (some ⟨t, subscription, []⟩)).post ⟨i, event⟩).Unheard x n := by
  obtain ⟨sub, heard⟩ : ∃ sub, x.subscription = some sub := by
    cases none : x.subscription with
    | none => simp [Replica.resyncs, none] at synced
    | some sub => exact ⟨sub, rfl⟩
  obtain ⟨old, earlier, rfl⟩ := Option.map_eq_some_iff.mp (after.subscription ▸ heard)
  rcases unheard with (⟨sub, same, out⟩ | member) | ⟨z, debtor, u, member, owes⟩
  · rw [earlier, Option.some.injEq] at same
    subst same
    exact .inl (.inl ⟨_, heard, (outstanding_post n).mpr (.inl out)⟩)
  · exact .inl (.inr ((after.evicted n).mpr member))
  · by_cases here : n.origin = i
    · obtain ⟨origin, content⟩ := n
      dsimp only at here debtor owes
      subst here
      rw [running, Option.some.injEq] at debtor
      subst debtor
      rw [List.mem_singleton] at member
      subst member
      simp only [Underway.owes, Option.some.injEq] at owes
      subst owes
      exact .inl (.inl ⟨_, heard, (outstanding_post _).mpr (.inr rfl)⟩)
    · refine .inr ⟨z.told ⟨i, event⟩, ?_, u, member, owes⟩
      simp [Cluster.post, Cluster.set, here, debtor]

/-- What is published goes from the debts of one replica to the inboxes of all. -/
theorem coherent_announcing (coherent : Coherent tools s c) :
    Coherent tools ((s.set i (some ⟨t, subscription, []⟩)).post ⟨i, event⟩) c := by
  have told : s.Owes ⟨i, event⟩ := ⟨_, running, _, List.mem_cons_self, rfl⟩
  refine ⟨coherent.consistent, coherent.minted, coherent.ulids, ?_, ?_⟩
  · rintro n ⟨x, there, u, member, owes⟩
    obtain ⟨y, was, after⟩ := announced running there
    rcases after.underway with ⟨_, ended⟩ | ⟨_, same⟩
    · rw [ended] at member
      cases member
    · exact coherent.owed n ⟨y, was, u, same ▸ member, after.table ▸ owes⟩
  · intro j x there
    obtain ⟨y, was, after⟩ := announced running there
    have current := coherent.replica j y was
    refine ⟨?_, ?_, ?_, after.settled ▸ current.placed, ?_⟩
    · rcases after.underway with ⟨_, ended⟩ | ⟨_, same⟩
      · rw [ended]
        exact Nat.zero_le 1
      · rw [same]
        exact current.single
    · intro n member
      rw [after.table]
      exact current.cleared n ((after.evicted n).mp member)
    · rintro n (⟨sub, same, out⟩ | member)
      · rw [after.subscription] at same
        obtain ⟨old, earlier, rfl⟩ := Option.map_eq_some_iff.mp same
        rcases (outstanding_post n).mp out with out | rfl
        · exact current.named n (.inl ⟨old, earlier, out⟩)
        · exact coherent.owed _ told
      · exact current.named n (.inr ((after.evicted n).mp member))
    · intro synced
      rw [after.settled]
      exact upheld_spoiled (current.upheld (resyncs_announced after synced))
        (fun n => unheard_announced running after synced) (fun _ good => .inl good)

end Announcing

theorem coherent_proceed (coherent : Coherent tools s c) (k now : Nat)
    (stepped : s.step tools (.proceed i k now) = some s') : Coherent tools s' c := by
  obtain ⟨r, running, moved⟩ := Option.bind_eq_some_iff.mp stepped
  obtain ⟨u, found, rfl⟩ := Option.map_eq_some_iff.mp moved
  have current := coherent.replica i r running
  obtain ⟨rfl, only⟩ := underway_single current.single found
  obtain ⟨t, subscription, underway⟩ := r
  obtain rfl : underway = [u] := only
  -- The operation is over, or in a step that has nothing to publish and no notice in hand.
  have goes : ∀ (t' : RouteTable Component) (left : List (Underway Component)),
      left.length ≤ 1 → (∀ n, .evicted n ∉ left) → (∀ n, u ≠ .evicted n) →
      (∀ event, (⟨t', u.heard subscription, left⟩ : Replica Component).Owes event ↔
        (⟨t, subscription, [u]⟩ : Replica Component).Owes event) →
      (∀ v ∈ left, v.isResync = false) →
      (Placed c ((⟨t', u.heard subscription, left⟩ : Replica Component).settled) ∧
        ∀ item, Good tools c (u.write t) item →
          Good tools c ((⟨t', u.heard subscription, left⟩ : Replica Component).settled) item) →
      Coherent tools (s.set i (some ⟨t', u.heard subscription, left⟩)) c := by
    intro t' left single calm before owes resyncs better
    refine coherent_moved coherent running owes
      (upToDate_of current single (fun n member => absurd member (calm n)) ?_ ?_ better)
    · intro n
      have inbox : (∃ sub, u.heard subscription = some sub ∧ sub.inbox.Outstanding n) ↔
          ∃ sub, subscription = some sub ∧ sub.inbox.Outstanding n := by
        cases u <;> cases subscription <;> simp [Underway.heard]
      simp only [Replica.Awaits, inbox, calm n, List.mem_singleton, Ne.symm (before n)]
    · intro synced
      cases subscription with
      | none => cases u <;> simp [Replica.resyncs, Underway.heard] at synced
      | some sub =>
        have quiet : left.any Underway.isResync = false := by
          rw [List.any_eq_false]
          intro v member
          simp [resyncs v member]
        have read : (u.heard (some sub)).any (fun sub => sub.resynced) = true := by
          simpa [Replica.resyncs, quiet] using synced
        cases u with
        | resyncing => simp [Replica.resyncs, Underway.isResync]
        | _ => simp [Replica.resyncs, show sub.resynced = true from read]
  have placed : Placed c (u.write t) := current.placed
  have stays : Placed c (u.write t) ∧ ∀ item, Good tools c (u.write t) item →
      Good tools c (u.write t) item := ⟨placed, fun _ good => good⟩
  cases u with
  | refreshing refresh =>
    cases posted : refresh.published t with
    | none =>
      have ended := goes (refresh.apply t) [] (Nat.zero_le 1) (by simp) (by simp)
        (by simp [Replica.Owes, Underway.owes, posted]) (by simp) stays
      simpa [Cluster.proceed, Underway.advance, Underway.posts, posted] using ended
    | some event =>
      have onward := goes (refresh.apply t) [.announcing event] (Nat.le_refl 1) (by simp) (by simp)
        (by simp [Replica.Owes, Underway.owes, posted]) (by simp [Underway.isResync]) stays
      simpa [Cluster.proceed, Underway.advance, Underway.posts, posted] using onward
  | announcing event => exact coherent_announcing running coherent
  | resyncing read =>
    exact goes _ [] (Nat.zero_le 1) (by simp) (by simp) (by simp [Replica.Owes, Underway.owes])
      (by simp) stays
  | evicted n => exact coherent_evicted coherent running
  | applying event read =>
    refine goes _ [] (Nat.zero_le 1) (by simp) (by simp) (by simp [Replica.Owes, Underway.owes])
      (by simp) ?_
    show Placed c (noteReload _ _ _ _) ∧ ∀ item, _ → Good tools c (noteReload _ _ _ _) item
    unfold noteReload
    split
    · exact ⟨placed_marked _ placed, fun item good => good_marked _ item good⟩
    · exact stays
  | resolving label method path =>
    have ended := goes t [] (Nat.zero_le 1) (by simp) (by simp)
      (by simp [Replica.Owes, Underway.owes]) (by simp) stays
    cases answer : (run (readGroupByRef label) s.store).1 with
    | error e =>
      simpa [Cluster.proceed, Underway.advance, Underway.posts, answer] using ended
    | ok group =>
      rcases claimed : t.claimRevalidation group.id now with _ | t'
      · simpa [Cluster.proceed, Underway.advance, Underway.posts, answer, claimed] using ended
      · rw [claim_cases] at claimed
        split at claimed
        · cases claimed
        · rename_i free
          cases claimed
          have onward := goes (marked (t.revalidatedAt.insert group.id now) t)
            [.reading group method path] (Nat.le_refl 1) (by simp) (by simp)
            (by simp [Replica.Owes, Underway.owes]) (by simp [Underway.isResync])
            ⟨placed_marked _ placed, fun item good => good_marked _ item good⟩
          simpa [Cluster.proceed, Underway.advance, Underway.posts, answer, claim_cases, free]
            using onward
  | reading group method path =>
    obtain ⟨placed', items⟩ : _ ∧ ∀ item, (Good tools c t item → _) ∧ _ :=
      reread coherent.consistent placed group.id
    exact goes t [.revalidating group method path (run (routesInGroup group.id) s.store).1]
      (Nat.le_refl 1) (by simp) (by simp) (by simp [Replica.Owes, Underway.owes])
      (by simp [Underway.isResync]) ⟨placed', fun item => (items item).1⟩
  | revalidating group method path read =>
    cases read with
    | error e =>
      exact goes _ [] (Nat.zero_le 1) (by simp) (by simp) (by simp [Replica.Owes, Underway.owes])
        (by simp) stays
    | ok rows =>
      exact goes _ [.rematching group method path] (Nat.le_refl 1) (by simp) (by simp)
        (by simp [Replica.Owes, Underway.owes]) (by simp [Underway.isResync]) stays
  | rematching group method path =>
    exact goes _ [] (Nat.zero_le 1) (by simp) (by simp) (by simp [Replica.Owes, Underway.owes])
      (by simp) stays
  | compiled route component =>
    exact goes _ [] (Nat.zero_le 1) (by simp) (by simp) (by simp [Replica.Owes, Underway.owes])
      (by simp) stays
  | transpiled route js =>
    exact goes _ [] (Nat.zero_le 1) (by simp) (by simp) (by simp [Replica.Owes, Underway.owes])
      (by simp) stays

/-! A change and what is told of it -/

section Told
variable {refresh : Refresh} {event : RouteInvalidation} {t : RouteTable Component}

omit [UlidText] in
theorem named_committed (committed : Committed c refresh d) (named : Named c event) :
    Named d event := by
  intro rid inside
  obtain ⟨old, home⟩ := named rid inside
  refine ⟨committed_minted committed rid old, ?_⟩
  intro r live
  obtain ⟨q, before, same, _⟩ := committed_content committed old live
  exact same.symm.trans (home q before)

omit [UlidText] in
theorem named_published (sound : c.Sound) (committed : Committed c refresh d) (placed : Placed c t)
    (posted : refresh.published t = some event) : Named d event := by
  have named : Named c event ∨ ∀ rid ∈ event.routeIds, rid ∈ d.minted ∧
      ∀ r, d.routes rid = some r → r.groupId = event.groupId := by
    cases committed with
    | group new => cases posted
    | route place new =>
      cases posted
      exact .inl (fun rid inside => by cases inside)
    | @update old r before id home =>
      cases posted
      left
      intro rid inside
      obtain rfl := List.mem_singleton.mp inside
      refine ⟨id ▸ sound.mintedRoute before, ?_⟩
      intro q live
      rw [id, before, Option.some.injEq] at live
      rw [← live]
      exact home.symm
    | @delete r live =>
      cases posted
      left
      intro rid inside
      obtain rfl := List.mem_singleton.mp inside
      refine ⟨sound.mintedRoute live, ?_⟩
      intro q found
      rw [live, Option.some.injEq] at found
      rw [found]
    | rename live =>
      cases posted
      exact .inl (fun rid inside => by cases inside)
    | keep live =>
      cases posted
      exact .inl (fun rid inside => by cases inside)
    | @cascade g live =>
      cases posted
      left
      intro rid inside
      obtain ⟨q, row, rfl⟩ := List.mem_map.mp inside
      obtain ⟨old, group⟩ := List.mem_filter.mp row
      refine ⟨placed.known q old, ?_⟩
      intro r found
      rw [← placed.home q old r found]
      simpa using group
  rcases named with before | after
  · exact named_committed committed before
  · exact after

omit [UlidText] in
/-- What a change spoils at another replica is what it tells of. -/
theorem spoiled_elsewhere (sound : c.Sound) (after : d.Sound) (committed : Committed c refresh d)
    {here there : Nat} (other : here ≠ there) {u : RouteTable Component} (placed : Placed c u)
    (posted : refresh.published t = some event) (item : Item) (good : Good tools c u item) :
    Good tools d u item ∨ Notice.Concerns there ⟨here, event⟩ item := by
  rcases good_committed sound after committed placed item good with
    fine | ⟨gid, rfl, touched⟩ | ⟨r, rfl, rfl⟩
  · exact .inl fine
  · rw [published_group posted, Option.some.injEq] at touched
    exact .inr ⟨other, touched⟩
  · cases posted
    exact .inr ⟨other, List.mem_cons_self⟩

omit [UlidText] in
/-- A change that nothing is told of spoils nothing. -/
theorem unspoiled (sound : c.Sound) (after : d.Sound) (committed : Committed c refresh d)
    (silent : refresh.published t = none) {u : RouteTable Component} (placed : Placed c u)
    (item : Item) (good : Good tools c u item) : Good tools d u item := by
  rcases good_committed sound after committed placed item good with
    fine | ⟨gid, _, touched⟩ | ⟨r, _, rfl⟩
  · exact fine
  · obtain ⟨event, posted, _⟩ := published_of_group touched t
    rw [silent] at posted
    cases posted
  · cases silent

end Told

theorem coherent_call (coherent : Coherent tools s c) (m : Mutation)
    (orderly : s.orderly (.call i m) = true) (stepped : s.step tools (.call i m) = some s') :
    ∃ d, Coherent tools s' d := by
  simp only [Cluster.step] at stepped
  split at stepped
  · rename_i fresh
    split at stepped
    · rename_i r refresh store running ran
      cases stepped
      have new : m.Fresh c.minted :=
        ⟨fresh.1, fun id drawn old => (fresh.2 id drawn).1 (coherent.minted id old)⟩
      have ulids := fun id old => coherent.ulids id (coherent.minted id old)
      rcases commit_step coherent.consistent ulids m new with
        ⟨e, failed⟩ | ⟨refresh', t, d, ran', committed, step, grown⟩
      · rw [ran] at failed
        cases failed
      · rw [ran] at ran'
        cases ran'
        have sound := coherent.consistent.sound
        have idle := idle_of_orderly orderly rfl running
        have current := coherent.replica i r running
        have placed : Placed c r.table := settled_idle idle ▸ current.placed
        set after : Cluster Component :=
          { s.set i (some (r.begin (.refreshing refresh))) with
            store := store, minted := m.draws ++ s.minted } with made
        have here : after.replicas i = some (r.begin (.refreshing refresh)) := if_pos rfl
        have there : ∀ j, j ≠ i → after.replicas j = s.replicas j := fun j other => if_neg other
        have posted : ∀ event, refresh.published r.table = some event → after.Owes ⟨i, event⟩ :=
          fun event told => ⟨_, here, (owes_begin idle event).mpr told⟩
        -- What was owed is owed still: the replica that commits owed nothing.
        have owing : ∀ n, s.Owes n → after.Owes n := by
          rintro n ⟨y, debtor, owes⟩
          by_cases origin : n.origin = i
          · rw [origin, running, Option.some.injEq] at debtor
            exact absurd (debtor ▸ owes) (owes_idle idle n.event)
          · exact ⟨y, (there _ origin).trans debtor, owes⟩
        have calm : ∀ n, Underway.refreshing refresh ≠ (.evicted n : Underway Component) := by
          simp
        refine ⟨d, step, ?_, ?_, ?_, ?_⟩
        · intro id member
          rcases List.mem_append.mp (grown id member) with drawn | old
          · exact List.mem_append_left _ drawn
          · exact List.mem_append_right _ (coherent.minted id old)
        · intro id member
          rcases List.mem_append.mp member with drawn | old
          · exact (fresh.2 id drawn).2
          · exact coherent.ulids id old
        · rintro n ⟨y, debtor, owes⟩
          by_cases origin : n.origin = i
          · rw [origin, here, Option.some.injEq] at debtor
            subst debtor
            exact named_published sound committed placed ((owes_begin idle _).mp owes)
          · rw [there _ origin] at debtor
            exact named_committed committed (coherent.owed n ⟨y, debtor, owes⟩)
        · intro j x known
          by_cases same : j = i
          · subst same
            rw [here, Option.some.injEq] at known
            subst known
            have awaits := fun n => awaits_begin (u := .refreshing refresh) idle calm n
            refine ⟨?_, ?_, ?_, ?_, ?_⟩
            · simp [Replica.begin, idle]
            · intro n member
              simp [Replica.begin, idle] at member
            · exact fun n waits => named_committed committed (current.named n ((awaits n).mp waits))
            · rw [settled_begin idle]
              exact placed_apply sound committed placed
            · intro synced
              rw [resyncs_begin idle rfl] at synced
              have upheld := current.upheld synced
              rw [settled_idle idle] at upheld
              rw [settled_begin idle]
              exact upheld_spoiled upheld (fun n => Or.imp (awaits n).mpr (owing n))
                (fun item good => .inl (good_apply sound step.sound committed placed item good))
          · rw [there j same] at known
            have kept := coherent.replica j x known
            refine ⟨kept.single, kept.cleared, ?_, placed_committed committed kept.placed, ?_⟩
            · exact fun n waits => named_committed committed (kept.named n waits)
            · intro synced
              refine upheld_spoiled (kept.upheld synced) (fun n => Or.imp_right (owing n)) ?_
              intro item good
              cases told : refresh.published r.table with
              | none =>
                exact .inl (unspoiled sound step.sound committed told kept.placed item good)
              | some event =>
                exact (spoiled_elsewhere sound step.sound committed (Ne.symm same) kept.placed told
                  item good).imp_right (fun about => ⟨_, .inr (posted event told), about⟩)
    · cases stepped
  · cases stepped

theorem coherent_request (coherent : Coherent tools s c) (label method path : String)
    (orderly : s.orderly (.request i label method path) = true)
    (stepped : s.step tools (.request i label method path) = some s') : Coherent tools s' c := by
  obtain ⟨r, running, rfl⟩ := Option.map_eq_some_iff.mp stepped
  split
  · exact coherent
  · exact coherent_begin coherent running (idle_of_orderly orderly rfl running) rfl (by simp) rfl
      (fun placed => ⟨placed, fun _ good => good⟩)

theorem coherent_step (coherent : Coherent tools s c) (a : ClusterAction)
    (orderly : s.orderly a = true) (stepped : s.step tools a = some s') :
    ∃ d, Coherent tools s' d := by
  cases a with
  | start i interval => exact ⟨c, coherent_start coherent interval stepped⟩
  | stop i =>
    cases stepped
    exact ⟨c, coherent_stop coherent orderly⟩
  | call i m => exact coherent_call coherent m orderly stepped
  | subscribe i => exact ⟨c, coherent_subscribe coherent orderly stepped⟩
  | resync i => exact ⟨c, coherent_resync coherent orderly stepped⟩
  | receive i k => exact ⟨c, coherent_receive coherent k orderly stepped⟩
  | lose i k => exact ⟨c, coherent_lose coherent k stepped⟩
  | disconnect i =>
    cases stepped
    exact ⟨c, coherent_disconnect coherent⟩
  | request i label method path =>
    exact ⟨c, coherent_request coherent label method path orderly stepped⟩
  | compile i route =>
    obtain ⟨r, running, began⟩ := Option.bind_eq_some_iff.mp stepped
    split at began
    · rename_i row
      obtain ⟨u, built, rfl⟩ := Option.map_eq_some_iff.mp began
      obtain ⟨x, _, rfl⟩ := compile_some built
      exact ⟨c, coherent_begin coherent running (idle_of_orderly orderly rfl running) rfl (by simp)
        rfl (fun placed => good_compiled coherent.consistent.sound placed row built)⟩
    · cases began
  | transpile i route =>
    obtain ⟨r, running, began⟩ := Option.bind_eq_some_iff.mp stepped
    split at began
    · rename_i row
      obtain ⟨u, built, rfl⟩ := Option.map_eq_some_iff.mp began
      obtain ⟨source, js, _, _, rfl⟩ := transpile_some built
      exact ⟨c, coherent_begin coherent running (idle_of_orderly orderly rfl running) rfl (by simp)
        rfl (fun placed => good_transpiled coherent.consistent.sound placed row built)⟩
    · cases began
  | proceed i k now => exact ⟨c, coherent_proceed coherent k now stepped⟩

theorem cluster_coherent (reached : Reached (cluster tools) (fun s a => s.orderly a = true) s) :
    ∃ c, Coherent tools s c := by
  have base : ∀ x, (cluster tools).start x → ∃ c, Coherent tools x c := by
    rintro _ rfl
    refine ⟨Catalog.empty, consistent_empty .valkey, ?_, ?_, ?_, ?_⟩
    · intro id old
      cases old
    · intro id old
      cases old
    · rintro n ⟨r, running, _⟩
      cases running
    · intro i r running
      cases running
  refine reached_invariant base ?_ reached
  rintro x a y ⟨c, coherent⟩ orderly stepped
  exact coherent_step coherent a orderly stepped

end Steps

end
end WireMirage
