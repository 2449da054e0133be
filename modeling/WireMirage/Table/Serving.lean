import WireMirage.Table.Convergence

/-!
What the replicas answer, in every run whose operations on one table do not mix: each what is
stored, where no invalidation it has not acted on says otherwise, and nothing to a request only
where nothing stored serves it.
-/
namespace WireMirage
open Prog StepMachine RouteTable Notices

section
variable {Component : Type} {tools : Toolchain Component} {c : Catalog}

/-! What has happened of a lookup that is under way -/

section Lookups
variable [UlidText]

/-- A run from one state to the next in which the operations on one table do not mix. -/
def Since (tools : Toolchain Component) : Cluster Component → Cluster Component → Prop :=
  Run (cluster tools) (fun s a => s.orderly a = true)

variable (tools) (first : Cluster Component) (i : Nat)

/-- A request came in. -/
def Asked (label method path : String) (s : Cluster Component) : Prop :=
  ∃ came asked, Since tools first came ∧ came.orderly (.request i label method path) = true ∧
    came.step tools (.request i label method path) = some asked ∧ Since tools asked s

/-- The label of a request was resolved to the group, after it came in. -/
def Resolved (group : Group) (method path : String) (s : Cluster Component) : Prop :=
  ∃ label named, Asked tools first i label method path named ∧
    (run (readGroupByRef label) named.store).1 = .ok group ∧ Since tools named s

/-- The routes of the group were read, after the label was resolved. -/
def Reread (group : Group) (method path : String) (read : Except RegistryError (List Route))
    (s : Cluster Component) : Prop :=
  ∃ reading, Resolved tools first i group method path reading ∧
    (run (routesInGroup group.id) reading.store).1 = read ∧ Since tools reading s

namespace Underway

/-- What a lookup looks for. -/
def asks : Underway Component → Option (String × String)
  | .resolving _ method path => some (method, path)
  | .reading _ method path => some (method, path)
  | .revalidating _ method path _ => some (method, path)
  | .rematching _ method path => some (method, path)
  | _ => none

/-- How a lookup has come to where it is. -/
def Past (s : Cluster Component) (t : RouteTable Component) : Underway Component → Prop
  | .resolving label method path => Asked tools first i label method path s
  | .reading group method path => Resolved tools first i group method path s
  | .revalidating group method path read => Reread tools first i group method path read s
  | .rematching group method path =>
    ∃ rows, Reread tools first i group method path (.ok rows) s ∧ ∀ r ∈ rows, r ∈ t.routes
  | _ => True

end Underway

variable {tools} {first} {i} {s s' : Cluster Component} {a : ClusterAction}
  {r r' : Replica Component} {u u' : Underway Component} {t : RouteTable Component}

theorem since_next {came : Cluster Component} (since : Since tools came s)
    (orderly : s.orderly a = true) (stepped : s.step tools a = some s') : Since tools came s' :=
  .tail since orderly stepped

theorem since_resolved {group : Group} {method path : String}
    (resolved : Resolved tools first i group method path s) : Since tools first s := by
  obtain ⟨_, _, ⟨_, _, begun, orderly, request, asked⟩, _, named⟩ := resolved
  exact run_trans (run_trans (.tail begun orderly request) asked) named

theorem past_next (past : u.Past tools first i s t) (orderly : s.orderly a = true)
    (stepped : s.step tools a = some s') : u.Past tools first i s' t := by
  cases u with
  | resolving label method path =>
    obtain ⟨came, asked, begun, idle, request, since⟩ := past
    exact ⟨came, asked, begun, idle, request, since_next since orderly stepped⟩
  | reading group method path =>
    obtain ⟨label, named, asked, answer, since⟩ := past
    exact ⟨label, named, asked, answer, since_next since orderly stepped⟩
  | revalidating group method path read =>
    obtain ⟨reading, resolved, answer, since⟩ := past
    exact ⟨reading, resolved, answer, since_next since orderly stepped⟩
  | rematching group method path =>
    obtain ⟨rows, ⟨reading, resolved, answer, since⟩, held⟩ := past
    exact ⟨rows, ⟨reading, resolved, answer, since_next since orderly stepped⟩, held⟩
  | _ => trivial

theorem past_of_silent (silent : u.asks = none) : u.Past tools first i s t := by
  cases u with
  | resolving | reading | revalidating | rematching => cases silent
  | _ => trivial

/-- What a replica has under way it had before, or has just begun, or come to. -/
inductive Follows (tools : Toolchain Component) (s : Cluster Component) (i : Nat)
    (t : RouteTable Component) (u : Underway Component) : ClusterAction → Prop where
  | same {a : ClusterAction} {r : Replica Component} (running : s.replicas i = some r)
    (member : u ∈ r.underway) (table : t = r.table) : Follows tools s i t u a
  | asked {label method path : String} (lookup : u = .resolving label method path) :
    Follows tools s i t u (.request i label method path)
  | begun {a : ClusterAction} (touches : a.touches = some i) (silent : u.asks = none) :
    Follows tools s i t u a
  | proceeded {k now : Nat} {r : Replica Component} {v : Underway Component}
    (running : s.replicas i = some r) (found : r.underway[k]? = some v)
    (stepped : v.advance s.store now r.table = (some u, t)) :
    Follows tools s i t u (.proceed i k now)

theorem follows_set {j : Nat} {changed : Option (Replica Component)}
    (there : (s.set j changed).replicas i = some r) (member : u ∈ r.underway)
    (here : i = j → changed = some r → Follows tools s i r.table u a) :
    Follows tools s i r.table u a := by
  by_cases same : i = j
  · exact here same (by simpa [Cluster.set, same] using there)
  · exact .same (by simpa [Cluster.set, same] using there) member rfl

theorem follows_begin (running : s.replicas i = some r) (table : t = r.table)
    (member : u ∈ r.underway ++ [u']) (began : u = u' → Follows tools s i t u a) :
    Follows tools s i t u a := by
  rcases List.mem_append.mp member with old | new
  · exact .same running old table
  · exact began (List.mem_singleton.mp new)

theorem follows_proceed (single : ∀ r, s.replicas i = some r → r.underway.length ≤ 1)
    {j k now : Nat} (stepped : s.step tools (.proceed j k now) = some s')
    (there : s'.replicas i = some r) (member : u ∈ r.underway) :
    Follows tools s i r.table u (.proceed j k now) := by
  obtain ⟨y, running, moved⟩ := Option.bind_eq_some_iff.mp stepped
  obtain ⟨v, found, rfl⟩ := Option.map_eq_some_iff.mp moved
  -- A notice that is posted leaves the table and what is under way as they are.
  obtain ⟨x, before, table, ops⟩ : ∃ x, (s.set j (some ⟨(v.advance s.store now y.table).2,
      v.heard y.subscription, (v.advance s.store now y.table).1.elim (y.underway.eraseIdx k)
        (fun v => y.underway.set k v)⟩)).replicas i = some x ∧ r.table = x.table ∧
      r.underway = x.underway := by
    cases told : v.posts j with
    | none =>
      simp only [Cluster.proceed, told, Option.elim_none] at there
      exact ⟨r, there, rfl, rfl⟩
    | some n =>
      simp only [Cluster.proceed, told, Option.elim_some] at there
      obtain ⟨x, before, rfl⟩ := Option.map_eq_some_iff.mp there
      exact ⟨x, before, rfl, rfl⟩
  rw [table]
  rw [ops] at member
  apply follows_set before member
  rintro rfl here
  cases here
  obtain ⟨rfl, only⟩ := underway_single (single y running) found
  cases left : (v.advance s.store now y.table).1 with
  | none => simp [left, only] at member
  | some w =>
    simp only [left, only, Option.elim_some, List.set_cons_zero, List.mem_singleton] at member
    exact .proceeded running found (Prod.ext (by rw [left, member]) rfl)

theorem follows (single : ∀ r, s.replicas i = some r → r.underway.length ≤ 1)
    (orderly : s.orderly a = true) (stepped : s.step tools a = some s')
    (there : s'.replicas i = some r) (member : u ∈ r.underway) : Follows tools s i r.table u a := by
  cases a with
  | start j interval =>
    simp only [Cluster.step] at stepped
    split at stepped
    · cases stepped
      apply follows_set there member
      rintro _ ⟨⟩
      cases member
    · cases stepped
  | stop j =>
    cases stepped
    apply follows_set there member
    rintro _ ⟨⟩
  | call j m =>
    simp only [Cluster.step] at stepped
    split at stepped
    · split at stepped
      · rename_i x refresh store running _
        cases stepped
        apply follows_set (s := s) there member
        rintro rfl ⟨⟩
        exact follows_begin running rfl member (fun new => .begun rfl (by rw [new]; rfl))
      · cases stepped
    · cases stepped
  | subscribe j =>
    simp only [Cluster.step] at stepped
    split at stepped
    · rename_i t underway running
      cases stepped
      apply follows_set there member
      rintro rfl ⟨⟩
      exact .same running member rfl
    · cases stepped
  | resync j =>
    simp only [Cluster.step] at stepped
    split at stepped
    · rename_i t inbox underway running
      cases stepped
      apply follows_set there member
      rintro rfl ⟨⟩
      exact follows_begin running rfl member (fun new => .begun rfl (by rw [new]; rfl))
    · cases stepped
  | receive j k =>
    simp only [Cluster.step] at stepped
    split at stepped
    · rename_i t inbox underway running
      obtain ⟨taken, _, rfl⟩ := Option.map_eq_some_iff.mp stepped
      apply follows_set there member
      rintro rfl ⟨⟩
      obtain rfl : underway = [] := idle_of_orderly orderly rfl running
      obtain rfl := List.mem_singleton.mp member
      exact .begun rfl rfl
    · cases stepped
  | lose j k =>
    simp only [Cluster.step] at stepped
    split at stepped
    · rename_i t resynced inbox underway running
      obtain ⟨missed, _, rfl⟩ := Option.map_eq_some_iff.mp stepped
      apply follows_set there member
      rintro rfl ⟨⟩
      exact .same running member rfl
    · cases stepped
  | disconnect j =>
    cases stepped
    apply follows_set there member
    rintro rfl gone
    obtain ⟨x, running, rfl⟩ := Option.map_eq_some_iff.mp gone
    exact .same running member rfl
  | request j label method path =>
    obtain ⟨x, running, rfl⟩ := Option.map_eq_some_iff.mp stepped
    split at there
    · exact .same there member rfl
    · apply follows_set there member
      rintro rfl ⟨⟩
      exact follows_begin running rfl member .asked
  | compile j route =>
    obtain ⟨x, running, began⟩ := Option.bind_eq_some_iff.mp stepped
    split at began
    · obtain ⟨v, built, rfl⟩ := Option.map_eq_some_iff.mp began
      obtain ⟨_, _, rfl⟩ := compile_some built
      apply follows_set there member
      rintro rfl ⟨⟩
      exact follows_begin running rfl member (fun new => .begun rfl (by rw [new]; rfl))
    · cases began
  | transpile j route =>
    obtain ⟨x, running, began⟩ := Option.bind_eq_some_iff.mp stepped
    split at began
    · obtain ⟨v, built, rfl⟩ := Option.map_eq_some_iff.mp began
      obtain ⟨_, _, _, _, rfl⟩ := transpile_some built
      apply follows_set there member
      rintro rfl ⟨⟩
      exact follows_begin running rfl member (fun new => .begun rfl (by rw [new]; rfl))
    · cases began
  | proceed j k now => exact follows_proceed single stepped there member

/-- A lookup that goes on goes on from what has been read of the store by then. -/
theorem past_advance {now : Nat} (past : u.Past tools first i s r.table)
    (advanced : u.advance s.store now r.table = (some u', t)) (orderly : s.orderly a = true)
    (stepped : s.step tools a = some s') : u'.Past tools first i s' t := by
  have one : Since tools s s' := .tail (.refl s) orderly stepped
  cases u with
  | refreshing refresh =>
    obtain ⟨event, _, rfl⟩ := Option.map_eq_some_iff.mp (congrArg Prod.fst advanced)
    exact past_of_silent rfl
  | evicted n =>
    cases advanced
    exact past_of_silent rfl
  | resolving label method path =>
    simp only [Underway.advance] at advanced
    split at advanced
    · cases advanced
    · rename_i group answer
      split at advanced
      · cases advanced
      · cases advanced
        exact ⟨label, s, past, answer, one⟩
  | reading group method path =>
    cases advanced
    exact ⟨s, past, rfl, one⟩
  | revalidating group method path read =>
    cases read with
    | error e => cases advanced
    | ok rows =>
      cases advanced
      obtain ⟨reading, resolved, answer, since⟩ := past
      exact ⟨rows, ⟨reading, resolved, answer, since_next since orderly stepped⟩,
        fun r row => List.mem_append_right _ row⟩
  | _ => cases advanced

theorem lookups_past (start : (cluster tools).start first) (since : Since tools first s) :
    ∀ i r, s.replicas i = some r → ∀ u ∈ r.underway, u.Past tools first i s r.table := by
  induction since with
  | refl =>
    intro i r running
    cases start
    cases running
  | tail path orderly next ih =>
    intro i r there u member
    obtain ⟨c, coherent⟩ := cluster_coherent ⟨first, start, path⟩
    cases follows (fun r running => (coherent.replica i r running).single) orderly next there
      member with
    | same running member table => exact past_next (table ▸ ih i _ running u member) orderly next
    | asked lookup =>
      subst lookup
      exact ⟨_, _, path, orderly, next, .refl _⟩
    | begun _ silent => exact past_of_silent silent
    | proceeded running found stepped =>
      exact past_advance (ih i _ running _ (List.mem_of_getElem? found)) stepped orderly next

end Lookups

/-! What a replica serves -/

section Serving
variable [UlidText] {s : Cluster Component} {t : RouteTable Component}
  {here there : Replica Component} {r : Route}

omit [UlidText] in
theorem source_same {q : Route} (same : SameContent q r) :
    (t.engineSourceFor tools q).1 = (t.engineSourceFor tools r).1 := by
  obtain ⟨id, source, _⟩ := same
  unfold engineSourceFor
  rw [source, id]

omit [UlidText] in
/-- What was built for a record is what a table without artifacts builds. -/
theorem source_cold (built : BuiltFrom tools t r) :
    (t.engineSourceFor tools r).1 =
      ((warm [] 0 : RouteTable Component).engineSourceFor tools r).1 := by
  have cold : (warm [] 0 : RouteTable Component).engineJs.lookup r.id = none := rfl
  unfold engineSourceFor
  cases authored : r.source with
  | none => rfl
  | some text =>
    dsimp only
    rw [cold]
    dsimp only
    cases held : t.engineJs.lookup r.id with
    | none => cases tools.transpile text <;> rfl
    | some js =>
      obtain ⟨text', same, answer⟩ := built.engineJs js held
      rw [authored, Option.some.injEq] at same
      rw [same, answer]

omit [UlidText] in
/-- The artifacts of a row are those that a cold table would build from the record. -/
theorem served_of_good {q : Route} (row : q ∈ t.routes) (live : c.routes q.id = some r)
    (good : Good tools c t (.route q.id)) :
    (t.componentFor tools q).1 = tools.fromBinary r.compiledWasm ∧
      (t.engineSourceFor tools q).1 =
        ((warm [] 0 : RouteTable Component).engineSourceFor tools r).1 := by
  obtain ⟨rows, built⟩ := good r live
  have same := rows q row rfl
  refine ⟨?_, (source_same same).trans (source_cold built)⟩
  unfold componentFor
  split
  · rename_i x held
    exact (built.component x (same.1 ▸ held)).symm
  · rw [same.2.2]
    split <;> rename_i answer <;> exact answer.symm

/-- A replica with nothing under way has in its table what it has read and applied. -/
theorem good_listening {i : Nat} (coherent : Coherent tools s c)
    (running : s.replicas i = some here) (listening : here.Listening) {item : Item}
    (quiet : ∀ n, s.Unheard here n → ¬ Notice.Concerns i n item) :
    Good tools c here.table item := by
  obtain ⟨idle, inbox, subscribed⟩ := listening
  have upheld := (coherent.replica i here running).upheld (by simp [Replica.resyncs, subscribed])
  rw [settled_idle idle] at upheld
  exact upheld_item upheld quiet

theorem rows_in_step (reached : Reached (cluster tools) (fun s a => s.orderly a = true) s)
    {i : Nat} (running : s.replicas i = some here) (listening : here.Listening) {gid : String}
    (quiet : ∀ n, s.Unheard here n → n.origin ≠ i → n.event.groupId ≠ gid)
    (home : r.groupId = gid) : r ∈ here.table.routes ↔ RouteAt s.store r.id r := by
  obtain ⟨c, coherent⟩ := cluster_coherent reached
  have good : Good tools c here.table (.group gid) :=
    good_listening coherent running listening (fun n out about => quiet n out about.1 about.2)
  rw [good r home, coherent.consistent.represents.routes.record]

/-- A row that no invalidation of another replica names serves what its stored record gives a
    cold table. -/
theorem artifacts_in_step (reached : Reached (cluster tools) (fun s a => s.orderly a = true) s)
    {i : Nat} (running : s.replicas i = some here) (listening : here.Listening) {q : Route}
    (row : q ∈ here.table.routes) (stored : RouteAt s.store q.id r)
    (quiet : ∀ n, s.Unheard here n → n.origin ≠ i → q.id ∉ n.event.routeIds) :
    (here.table.componentFor tools q).1 = tools.fromBinary r.compiledWasm ∧
      (here.table.engineSourceFor tools q).1 =
        ((warm [] 0 : RouteTable Component).engineSourceFor tools r).1 := by
  obtain ⟨c, coherent⟩ := cluster_coherent reached
  have good : Good tools c here.table (.route q.id) :=
    good_listening coherent running listening (fun n out about => quiet n out about.1 about.2)
  have live := (coherent.consistent.represents.routes.record q.id r).mp stored
  exact served_of_good row live good

/-- In every run whose operations on one table do not mix, whatever is lost, on its way or not
    published yet: a group that no such invalidation of another replica names has exactly its
    stored routes in the table of a replica that has nothing under way, and a row that none names
    serves what its stored record says. -/
theorem replicas_in_step (reached : Reached (cluster tools) (fun s a => s.orderly a = true) s)
    {i : Nat} (running : s.replicas i = some here) (listening : here.Listening) :
    (∀ gid, (∀ n, s.Unheard here n → n.origin ≠ i → n.event.groupId ≠ gid) →
      ∀ r : Route, r.groupId = gid → (r ∈ here.table.routes ↔ RouteAt s.store r.id r)) ∧
    ∀ q ∈ here.table.routes, ∀ r, RouteAt s.store q.id r →
      (∀ n, s.Unheard here n → n.origin ≠ i → q.id ∉ n.event.routeIds) →
      (here.table.componentFor tools q).1 = tools.fromBinary r.compiledWasm ∧
        (here.table.engineSourceFor tools q).1 =
          ((warm [] 0 : RouteTable Component).engineSourceFor tools r).1 := by
  constructor
  · intro gid quiet r home
    exact rows_in_step reached running listening quiet home
  · intro q row r stored quiet
    exact artifacts_in_step reached running listening row stored quiet

/-- Two replicas that have heard of everything answer every request alike, with the one winner
    of the stored routes and with the same artifacts. -/
theorem replicas_agree (reached : Reached (cluster tools) (fun s a => s.orderly a = true) s)
    {i j : Nat} (running : s.replicas i = some here) (listening : here.Listening)
    (running' : s.replicas j = some there) (listening' : there.Listening)
    (heard : ∀ n, s.Unheard here n → n.origin = i)
    (heard' : ∀ n, s.Unheard there n → n.origin = j) (x method path : String) :
    here.table.findMatchInGroup x method path = there.table.findMatchInGroup x method path ∧
      Winner here.table.routes x method path (here.table.findMatchInGroup x method path) ∧
      ∀ m ∈ here.table.findMatchInGroup x method path, RouteAt s.store m.route.id m.route ∧
        (here.table.componentFor tools m.route).1 = (there.table.componentFor tools m.route).1 ∧
        (here.table.engineSourceFor tools m.route).1 =
          (there.table.engineSourceFor tools m.route).1 := by
  obtain ⟨c, coherent⟩ := cluster_coherent reached
  have record := coherent.consistent.represents.routes.record
  have sound := coherent.consistent.sound
  have tracked : ∀ {k : Nat} {v : Replica Component}, s.replicas k = some v → v.Listening →
      (∀ n, s.Unheard v n → n.origin = k) → Tracks v.table.routes c := by
    intro k v known attends all
    have placed := (coherent.replica k v known).placed
    rw [settled_idle attends.1] at placed
    refine ⟨placed.distinct, ?_⟩
    intro r
    rw [← record]
    exact rows_in_step reached known attends (fun n out away => absurd (all n out) away) rfl
  have tracks := tracked running listening heard
  have tracks' := tracked running' listening' heard'
  have same : here.table.routes.Perm there.table.routes := by
    rw [List.perm_ext_iff_of_nodup tracks.distinct.of_map tracks'.distinct.of_map]
    intro r
    rw [tracks.mem, tracks'.mem]
  have winner : Winner here.table.routes x method path
      (here.table.findMatchInGroup x method path) := find_winner tracks sound
  refine ⟨Offer.choose_perm (same.filterMap _) (offers_agree tracks' sound), winner, ?_⟩
  intro m found
  have row : m.route ∈ here.table.routes := by
    rw [Option.mem_def] at found
    rw [found] at winner
    cases winner with
    | specific row => exact row
    | backstop row => exact row
  have stored := (record _ _).mpr ((tracks.mem m.route).mp row)
  have one := artifacts_in_step reached running listening row stored
    (fun n out away => absurd (heard n out) away)
  have other := artifacts_in_step reached running' listening' (same.mem_iff.mp row) stored
    (fun n out away => absurd (heard' n out) away)
  exact ⟨stored, one.1.trans other.1.symm, one.2.trans other.2.symm⟩

/-- Whatever the table of a replica holds, a lookup ends without a route only if the group was
    read again within the interval, or if at the moment since the request came in at which the
    group was read no stored route of it serves the request. -/
theorem unmatched_unserved {first : Cluster Component} (start : (cluster tools).start first)
    (since : Since tools first s) {i k now : Nat} (running : s.replicas i = some here)
    {u : Underway Component} (found : here.underway[k]? = some u) {method path : String}
    (asks : u.asks = some (method, path)) {group : Group}
    (unmatched : u.answer s.store now here.table = some (.unmatched group)) :
    (SlotTaken here.table group.id now ∧ ∃ label, u = .resolving label method path) ∨
      ∃ reading, Resolved tools first i group method path reading ∧ Since tools reading s ∧
        ∀ r, RouteAt reading.store r.id r → r.groupId = group.id →
          ∀ p captures, ¬ Serves group.name method path r p captures := by
  have past := lookups_past start since i here running u (List.mem_of_getElem? found)
  obtain ⟨c, coherent⟩ := cluster_coherent ⟨first, start, since⟩
  cases u with
  | resolving label method' path' =>
    left
    simp only [Underway.answer] at unmatched
    split at unmatched
    · cases unmatched
    · rename_i g answer
      split at unmatched
      · cases unmatched
      · rename_i refused
        cases unmatched
        cases asks
        refine ⟨?_, label, rfl⟩
        by_contra free
        rw [claim_cases, if_neg free] at refused
        exact refused rfl
  | reading => cases unmatched
  | revalidating g method' path' read =>
    -- The routes of a group can always be read.
    obtain ⟨reading, resolved, rfl, _⟩ := past
    obtain ⟨d, before⟩ := cluster_coherent ⟨first, start, since_resolved resolved⟩
    obtain ⟨rows, read, _, _⟩ := read_group before.consistent g.id
    rw [Underway.answer, read] at unmatched
    cases unmatched
  | rematching g method' path' =>
    right
    cases asks
    obtain ⟨rows, ⟨reading, resolved, answer, later⟩, held⟩ := past
    simp only [Underway.answer] at unmatched
    split at unmatched
    · cases unmatched
    · rename_i nothing
      cases unmatched
      refine ⟨reading, resolved, later, ?_⟩
      intro r stored home p captures serves
      obtain ⟨d, before⟩ := cluster_coherent ⟨first, start, since_resolved resolved⟩
      obtain ⟨rows', read, _, members⟩ := read_group before.consistent group.id
      rw [answer] at read
      cases read
      have live := (before.consistent.represents.routes.record r.id r).mp stored
      have row : r ∈ here.table.routes := held r ((members r).mpr ⟨live, home⟩)
      refine Offer.choose_some (.inl ?_) nothing
      exact List.ne_nil_of_mem
        (List.mem_filterMap.mpr ⟨r, row, offer_iff.mpr ⟨p, captures, serves, rfl⟩⟩)
  | _ => cases asks

end Serving

/-! Two replicas: the second one misses the invalidation of one group, and hears of another -/

end

namespace Sample

def tools : Toolchain Unit := ⟨fun _ => some (), .ok⟩

def twoReplicas : List ClusterAction :=
  [.start 0 5, .start 1 5, .subscribe 0, .resync 0, .proceed 0 0 0, .subscribe 1, .resync 1,
    .proceed 1 0 0,
    .call 0 (.createGroup (group "shop" "ann") idA 0 draw), .proceed 0 0 0,
    .call 0 (.createRoute (route "shop" "/cart" "a" "ann") ⟨idB, idC⟩ 1 draw),
    .proceed 0 0 1, .proceed 0 0 1]

def oneLost : List ClusterAction :=
  twoReplicas ++
  [.receive 1 0, .proceed 1 0 2, .proceed 1 0 2,
    .call 0 (.createGroup (group "depot" "ann") idD 3 draw), .proceed 0 0 3,
    .call 0 (.createRoute (route "depot" "/van" "b" "ann") ⟨idE, idF⟩ 4 draw),
    .proceed 0 0 4, .proceed 0 0 4, .lose 1 0]

def shopOf : Group :=
  ⟨idA, "shop", false, 0, "ann", defaultGroupTtlSeconds, defaultGroupSlidingTtl, false, none⟩

def posted (gid : String) : Notice := ⟨0, ⟨gid, []⟩⟩

def quiet : Cluster Unit := ⟨Storage.empty .valkey, [], fun _ => none⟩

def ran (acts : List ClusterAction) : Option (Cluster Unit) :=
  exec (guarded (cluster tools) Cluster.orderly) quiet acts

/-- The inbox of a replica that has read its table again and has nothing under way. -/
def hearing (i : Nat) (s : Cluster Unit) : Option (Inbox Notice) :=
  match s.replicas i with
  | some ⟨_, some ⟨true, inbox⟩, []⟩ => some inbox
  | _ => none

/-- The lookup of a replica that has written the group it read, and what it is answered. -/
def rematching (i : Nat) (s : Cluster Unit) :
    Option (Group × String × String × Option Resolution) :=
  match s.replicas i with
  | some ⟨t, _, [.rematching group method path]⟩ =>
    some (group, method, path, (Underway.rematching group method path).answer s.store 9 t)
  | _ => none

def cart : Route :=
  ⟨idC, idA, "shop", 1, ["GET"], "/cart", "javascript", "0.1.0", [], some "a", 1, "ann", 0, none⟩

/-- The source of a route is transpiled before it is edited, and cached after. -/
def mixed : List ClusterAction :=
  twoReplicas ++
  [.transpile 0 cart,
    .call 0 (.updateRoute "shop" 1 ⟨none, none, none, none, none, some (some "b")⟩),
    .proceed 0 1 2, .proceed 0 1 2, .proceed 0 0 2]

/-- The sources of the rows of a replica, each with what is served for it. -/
def serves (i : Nat) (s : Cluster Unit) : Option (List (Option String × Option String)) :=
  (s.replicas i).map (fun r => r.table.routes.map (fun q =>
    (q.source, (r.table.engineSourceFor tools q).1.toOption)))

end Sample

theorem hearing_running {s : Cluster Unit} {i : Nat} {inbox : Inbox Notice}
    (hears : Sample.hearing i s = some inbox) :
    ∃ t, s.replicas i = some ⟨t, some ⟨true, inbox⟩, []⟩ := by
  unfold Sample.hearing at hears
  split at hears
  · cases hears
    exact ⟨_, by assumption⟩
  · cases hears

/-- A replica at which nothing was begun has nothing under way. -/
theorem idle_ran {acts : List ClusterAction} {s : Cluster Unit} (done : Sample.ran acts = some s)
    {j : Nat} (away : ∀ a ∈ acts, a.touches ≠ some j) {r : Replica Unit}
    (running : s.replicas j = some r) : r.underway = [] := by
  have extend : ∀ (acts : List ClusterAction) (t : Cluster Unit),
      Reached (cluster Sample.tools) (fun s a => s.orderly a = true) t →
      (∀ r, t.replicas j = some r → r.underway = []) → (∀ a ∈ acts, a.touches ≠ some j) →
      exec (guarded (cluster Sample.tools) Cluster.orderly) t acts = some s →
      ∀ r, s.replicas j = some r → r.underway = [] := by
    intro acts
    induction acts with
    | nil =>
      intro t _ idle _ done
      cases done
      exact idle
    | cons a rest ih =>
      intro t reached idle away done
      obtain ⟨u, next, later⟩ := Option.bind_eq_some_iff.mp done
      simp only [guarded, Option.ite_none_right_eq_some] at next
      obtain ⟨orderly, stepped⟩ := next
      refine ih u (reached_step reached orderly stepped) ?_
        (fun b member => away b (List.mem_cons_of_mem _ member)) later
      intro r there
      obtain ⟨c, coherent⟩ := cluster_coherent reached
      rw [List.eq_nil_iff_forall_not_mem]
      intro v member
      cases follows (fun r running => (coherent.replica j r running).single) orderly stepped there
        member with
      | same running member => simp [idle _ running] at member
      | asked => exact away _ List.mem_cons_self rfl
      | begun touches => exact away _ List.mem_cons_self touches
      | proceeded running found => simp [idle _ running] at found
  refine extend acts Sample.quiet (reached_start rfl) ?_ away done r running
  intro r none
  cases none

/-- Where the two replicas have nothing under way, no change waits to be published. -/
theorem owes_nothing {acts : List ClusterAction} {s : Cluster Unit}
    (done : Sample.ran acts = some s) (two : ∀ a ∈ acts, ∀ j ∈ a.touches, j < 2)
    {box box' : Inbox Notice} (hears : Sample.hearing 0 s = some box)
    (hears' : Sample.hearing 1 s = some box') (n : Notice) : ¬ s.Owes n := by
  rintro ⟨r, running, owes⟩
  have idle : r.underway = [] := by
    obtain ⟨t, first⟩ := hearing_running hears
    obtain ⟨t', second⟩ := hearing_running hears'
    match origin : n.origin with
    | 0 =>
      rw [origin, first] at running
      cases running
      rfl
    | 1 =>
      rw [origin, second] at running
      cases running
      rfl
    | j + 2 =>
      refine idle_ran done ?_ (origin ▸ running)
      intro a member touches
      have small := two a member (j + 2) touches
      omega
  exact owes_idle idle n.event owes

theorem replicas_in_step_shop : ∃ (s : Cluster Unit) (here : Replica Unit),
    s.replicas 1 = some here ∧ here.Awaits (Sample.posted Sample.idD) ∧
      ∀ r : Route, r.groupId = Sample.idA → (r ∈ here.table.routes ↔ RouteAt s.store r.id r) := by
  have ran : (Sample.ran Sample.oneLost).map (fun s => (Sample.hearing 0 s, Sample.hearing 1 s)) =
      some (some ⟨[Sample.posted Sample.idA, Sample.posted Sample.idD], []⟩,
        some ⟨[], [Sample.posted Sample.idD]⟩) := by
    decide +kernel
  obtain ⟨s, done, shows⟩ := Option.map_eq_some_iff.mp ran
  obtain ⟨hears, hears'⟩ := Prod.mk.inj shows
  obtain ⟨t, running⟩ := hearing_running hears'
  have reached := reached_of_guarded (m := cluster Sample.tools) Sample.oneLost rfl done
  refine ⟨s, _, running, .inl ⟨_, rfl, .inr List.mem_cons_self⟩, ?_⟩
  refine (replicas_in_step reached running ⟨rfl, _, rfl⟩).1 Sample.idA ?_
  rintro n ((⟨_, ⟨⟩, pending | missed⟩ | member) | owes) _
  · cases pending
  · obtain rfl := List.mem_singleton.mp missed
    decide +kernel
  · cases member
  · have two : ∀ a ∈ Sample.oneLost, ∀ j ∈ a.touches, j < 2 := by
      simp [Sample.oneLost, Sample.twoReplicas, ClusterAction.touches]
    exact absurd owes (owes_nothing done two hears hears' n)

/-- Where the operations on a table mix, it stays behind with nothing under way. -/
example : (exec (cluster Sample.tools) Sample.quiet Sample.mixed).map (fun s =>
    (Sample.hearing 0 s, Sample.serves 0 s)) =
      some (some ⟨[Sample.posted Sample.idA, ⟨0, ⟨Sample.idA, [Sample.idC]⟩⟩], []⟩,
        some [(some "b", some "a")]) := by
  decide +kernel

theorem replicas_agree_shop : ∃ (t u : RouteTable Unit),
    (t.findMatchInGroup "shop" "GET" "/cart").isSome ∧
      t.findMatchInGroup "shop" "GET" "/cart" = u.findMatchInGroup "shop" "GET" "/cart" := by
  have ran : (Sample.ran (Sample.twoReplicas ++ [.receive 1 0, .proceed 1 0 2,
      .proceed 1 0 2])).map (fun s =>
        (Sample.hearing 0 s, Sample.hearing 1 s, (s.replicas 0).map (fun r =>
          (r.table.findMatchInGroup "shop" "GET" "/cart").isSome))) =
      some (some ⟨[Sample.posted Sample.idA], []⟩, some ⟨[], []⟩, some true) := by
    decide +kernel
  obtain ⟨s, done, shows⟩ := Option.map_eq_some_iff.mp ran
  simp only [Prod.mk.injEq] at shows
  obtain ⟨hears, hears', found⟩ := shows
  obtain ⟨t, running⟩ := hearing_running hears
  obtain ⟨u, running'⟩ := hearing_running hears'
  have reached := reached_of_guarded (m := cluster Sample.tools) _ rfl done
  have nothing := owes_nothing done
    (by simp [Sample.twoReplicas, ClusterAction.touches]) hears hears'
  refine ⟨t, u, ?_, (replicas_agree reached running ⟨rfl, _, rfl⟩ running' ⟨rfl, _, rfl⟩ ?_ ?_
    "shop" "GET" "/cart").1⟩
  · rw [running] at found
    simpa using found
  · rintro n ((⟨_, ⟨⟩, pending | missed⟩ | member) | owes)
    · obtain rfl := List.mem_singleton.mp pending
      rfl
    · cases missed
    · cases member
    · exact absurd owes (nothing n)
  · rintro n ((⟨_, ⟨⟩, pending | missed⟩ | member) | owes)
    · cases pending
    · cases missed
    · cases member
    · exact absurd owes (nothing n)

/-- A replica that has not heard of a group reads it again, and finds that nothing serves. -/
theorem unmatched_unserved_shop : ∃ (s reading : Cluster Unit), Since Sample.tools reading s ∧
    ∀ r, RouteAt reading.store r.id r → r.groupId = Sample.idA →
      ∀ p captures, ¬ Serves "shop" "GET" "/van" r p captures := by
  have ran : (Sample.ran (Sample.twoReplicas ++ [.request 1 "shop" "GET" "/van", .proceed 1 0 9,
      .proceed 1 0 9, .proceed 1 0 9])).map (Sample.rematching 1) =
      some (some (Sample.shopOf, "GET", "/van", some (.unmatched Sample.shopOf))) := by
    decide +kernel
  obtain ⟨s, done, shows⟩ := Option.map_eq_some_iff.mp ran
  have since := run_of_guarded (m := cluster Sample.tools) _ done
  unfold Sample.rematching at shows
  split at shows
  · rename_i t sub group method path running
    simp only [Option.some.injEq, Prod.mk.injEq] at shows
    obtain ⟨rfl, rfl, rfl, unmatched⟩ := shows
    have start : (cluster Sample.tools).start Sample.quiet := rfl
    have found : [Underway.rematching Sample.shopOf "GET" "/van"][0]? =
        some (.rematching Sample.shopOf "GET" "/van" : Underway Unit) := rfl
    rcases unmatched_unserved start since running found rfl unmatched with
      ⟨_, _, other⟩ | ⟨reading, _, later, unserved⟩
    · cases other
    · exact ⟨s, reading, later, unserved⟩
  · cases shows

end WireMirage
