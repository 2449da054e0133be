import WireMirage.Library.StepMachine
import WireMirage.Registry.GroupSteps
import WireMirage.Store.Expiry

/-!
How long groups live, on the backend that expires keys. A group's record and the
index entry of its name carry the same expiry; a group that is to stay has none.
-/
namespace WireMirage
open Prog StepMachine

structure LifetimeState where
  store : Store
  minted : List String
  asked : List (String × Nat)

inductive LifetimeAction where
  | createGroup (params : NewGroup) (id : String) (now : Time) (draw : Nat → Draw)
  | patchGroup (groupId : String) (ttlSeconds : Option Nat)
    (slidingTtl calloutEnabled : Option Bool)
  | renameGroup (groupRef newName : String)
  | refreshGroup (groupId : String)
  | refreshGroupIfSliding (groupId : String)
  | wait (seconds : Nat)

/-- The lifetime that a group is left with is noted, the latest first. -/
def noted (r : Except RegistryError Group × Store) (minted : List String)
    (asked : List (String × Nat)) : LifetimeState :=
  match r with
  | (.ok g, t) => ⟨t, minted, (g.id, g.ttlSeconds) :: asked⟩
  | (.error _, t) => ⟨t, minted, asked⟩

/-- The operations that arm or clear the expiry of groups, and time that passes. -/
def lifetimes [UlidText] : Machine LifetimeState LifetimeAction where
  start s := s = ⟨Storage.empty .valkey, [], []⟩
  step s
    | .createGroup params id now draw =>
      if id ∈ s.minted then none
      else some (noted (run (createGroup params id now draw) s.store) (id :: s.minted) s.asked)
    | .patchGroup gid ttl sliding callout =>
      some (noted (run (patchGroup gid ttl sliding callout) s.store) s.minted s.asked)
    | .renameGroup groupRef newName =>
      some { s with store := (run (renameGroup groupRef newName) s.store).2 }
    | .refreshGroup gid => some { s with store := (run (refreshGroup gid) s.store).2 }
    | .refreshGroupIfSliding gid =>
      some { s with store := (run (refreshGroupIfSliding gid) s.store).2 }
    | .wait seconds => some { s with store := s.store.advance seconds }

/-- A group that is to stay has no deadline on either key and is not gone; any other group
    that lives has one on both. -/
structure TtlDiscipline (s : LifetimeState) : Prop where
  permanent : ∀ gid g, GroupAt s.store gid g → g.ttlSeconds = 0 →
    s.store.armed (.group gid) = none ∧ s.store.armed (.groupByName g.name) = none
  limited : ∀ gid g, GroupAt s.store gid g → g.ttlSeconds ≠ 0 →
    (s.store.armed (.group gid)).isSome ∧ (s.store.armed (.groupByName g.name)).isSome
  undeleted : ∀ gid, s.asked.lookup gid = some 0 → ∃ g, GroupAt s.store gid g ∧
    g.ttlSeconds = 0 ∧ s.store.bytesAt (.groupByName g.name) = some (.text gid)

/-- A live group: its name leads to it, and the deadline of the name does not come first. -/
structure Lives (s : Store) (asked : List (String × Nat)) (gid : String) (g : Group) : Prop where
  byName : s.bytesAt (.groupByName g.name) = some (.text gid)
  asked : asked.lookup gid = some g.ttlSeconds
  permanent : g.ttlSeconds = 0 →
    s.armed (.group gid) = none ∧ s.armed (.groupByName g.name) = none
  limited : g.ttlSeconds ≠ 0 → ∃ d d', s.armed (.group gid) = some d ∧
    s.armed (.groupByName g.name) = some d' ∧ d ≤ d' ∧ d ≤ s.clock + g.ttlSeconds

structure Lived (s : Store) (minted : List String) (asked : List (String × Nat)) : Prop where
  kinded : s.WellKinded
  valkey : s.backend = .valkey
  routeless : ∀ gid, s.setAt (.routeInGroup gid) = []
  records : ∀ gid, s.hashAt (.group gid) ≠ ∅ → gid ∈ minted ∧ ∃ g, GroupAt s gid g ∧ g.id = gid
  lives : ∀ gid g, GroupAt s gid g → Lives s asked gid g
  kept : ∀ gid, asked.lookup gid = some 0 → ∃ g, GroupAt s gid g

theorem group_present {s : Store} {gid : String} {g : Group} (record : GroupAt s gid g) :
    ∃ v, s.lookup (.group gid) = some v := by
  cases found : s.lookup (.group gid) with
  | some v => exact ⟨v, rfl⟩
  | none =>
    have id := GroupFields.id record
    simp [Storage.hashAt, found, Storage.asHash] at id

theorem bytes_present {s : Store} {k : Key} {b : Val} (held : s.bytesAt k = some b) :
    ∃ v, s.lookup k = some v := by
  cases found : s.lookup k with
  | some v => exact ⟨v, rfl⟩
  | none => simp [Storage.bytesAt, found, Storage.asBytes] at held

/-- The deadline that a lifetime leads to; none for a lifetime of 0. -/
def deadline (s : Store) (ttl : Nat) : Option Nat := if ttl = 0 then none else some (s.clock + ttl)

section Arming
variable {s : Store} (valkey : s.backend = .valkey)
include valkey

theorem armed_groupArmed {gid name : String} {v v' : MemValue Val}
    (record : s.lookup (.group gid) = some v) (index : s.lookup (.groupByName name) = some v')
    (ttl : Nat) :
    (groupArmed s gid name ttl).armed (.group gid) = deadline s ttl ∧
      (groupArmed s gid name ttl).armed (.groupByName name) = deadline s ttl := by
  unfold groupArmed ttlArmed
  have after : (s.arm (.group gid) (if ttl = 0 then none else some (s.clock + ttl))).lookup
      (.groupByName name) = some v' := by simp [index]
  refine ⟨?_, ?_⟩
  · rw [Storage.armed_arm_ne _ _ _ _ (by simp), Storage.armed_arm _ _ valkey record]
    rfl
  · rw [Storage.armed_arm _ _ (by simpa using valkey) after, Storage.clock_arm]
    rfl

omit valkey in
theorem armed_groupArmed_ne {gid name : String} {k : Key} (record : k ≠ .group gid)
    (index : k ≠ .groupByName name) (ttl : Nat) :
    (groupArmed s gid name ttl).armed k = s.armed k := by
  unfold groupArmed ttlArmed
  rw [Storage.armed_arm_ne _ _ _ _ index, Storage.armed_arm_ne _ _ _ _ record]

omit valkey in
@[simp] theorem clock_groupArmed (gid name : String) (ttl : Nat) :
    (groupArmed s gid name ttl).clock = s.clock := by
  simp [groupArmed, ttlArmed]

omit valkey in
@[simp] theorem backend_groupArmed (gid name : String) (ttl : Nat) :
    (groupArmed s gid name ttl).backend = s.backend := by
  simp [groupArmed, ttlArmed]

end Arming

theorem lookup_noted_ne {id gid : String} (other : id ≠ gid) (ttl : Nat)
    (asked : List (String × Nat)) : ((gid, ttl) :: asked).lookup id = asked.lookup id := by
  rw [List.lookup_cons, beq_eq_false_iff_ne.mpr other]

/-- A lifetime just armed on both keys is in force on both. -/
theorem lives_armed {s : Store} {asked : List (String × Nat)} {gid : String} {g : Group}
    (byName : s.bytesAt (.groupByName g.name) = some (.text gid))
    (asks : asked.lookup gid = some g.ttlSeconds)
    (record : s.armed (.group gid) = deadline s g.ttlSeconds)
    (index : s.armed (.groupByName g.name) = deadline s g.ttlSeconds) :
    Lives s asked gid g where
  byName := byName
  asked := asks
  permanent := by
    intro never
    simp [record, index, deadline, never]
  limited := by
    intro ends
    exact ⟨s.clock + g.ttlSeconds, s.clock + g.ttlSeconds, by simp [record, deadline, ends],
      by simp [index, deadline, ends], le_refl _, le_refl _⟩

section Changes
variable {s t : Store} {minted : List String} {asked : List (String × Nat)}
  (lived : Lived s minted asked)
include lived

/-- A change to one group and to names that lead to no other. -/
theorem lived_changed (gid : String) {grown : List String} {noted : List (String × Nat)}
    (more : ∀ id ∈ minted, id ∈ grown) (kinded : t.WellKinded) (backend : t.backend = s.backend)
    (clock : t.clock = s.clock) (routeless : ∀ id, t.setAt (.routeInGroup id) = [])
    (records : ∀ id, id ≠ gid → t.hashAt (.group id) = s.hashAt (.group id) ∧
      t.armed (.group id) = s.armed (.group id) ∧ noted.lookup id = asked.lookup id)
    (index : ∀ name id, id ≠ gid → s.bytesAt (.groupByName name) = some (.text id) →
      t.bytesAt (.groupByName name) = some (.text id) ∧
        t.armed (.groupByName name) = s.armed (.groupByName name))
    {g : Group} (own : GroupAt t gid g) (id : g.id = gid) (known : gid ∈ grown)
    (lives : Lives t noted gid g) : Lived t grown noted where
  kinded := kinded
  valkey := backend.trans lived.valkey
  routeless := routeless
  records := by
    intro x full
    by_cases here : x = gid
    · subst here
      exact ⟨known, g, own, id⟩
    · unfold GroupAt
      rw [(records x here).1] at full ⊢
      obtain ⟨member, record⟩ := lived.records x full
      exact ⟨more x member, record⟩
  lives := by
    intro x h record
    by_cases here : x = gid
    · subst here
      exact group_at_unique own record ▸ lives
    · obtain ⟨hash, armed, same⟩ := records x here
      have before : GroupAt s x h := by
        unfold GroupAt at record ⊢
        exact hash ▸ record
      obtain ⟨byName, asks, permanent, limited⟩ := lived.lives x h before
      obtain ⟨leads, armedName⟩ := index h.name x here byName
      refine ⟨leads, same.trans asks, ?_, ?_⟩
      · rw [armed, armedName]
        exact permanent
      · rw [armed, armedName, clock]
        exact limited
  kept := by
    intro x zero
    by_cases here : x = gid
    · exact ⟨g, here ▸ own⟩
    · obtain ⟨hash, _, same⟩ := records x here
      obtain ⟨h, record⟩ := lived.kept x (same ▸ zero)
      refine ⟨h, ?_⟩
      unfold GroupAt at record ⊢
      exact hash ▸ record

theorem Lived.known {gid : String} {g : Group} (record : GroupAt s gid g) :
    gid ∈ minted ∧ g.id = gid := by
  have full : s.hashAt (.group gid) ≠ ∅ := by
    intro vacant
    have id := GroupFields.id record
    simp [vacant] at id
  obtain ⟨known, h, again, id⟩ := lived.records gid full
  exact ⟨known, group_at_unique record again ▸ id⟩

/-- The name of a live group leads to no other. -/
theorem Lived.name_apart {gid : String} {g : Group} (record : GroupAt s gid g) {name id : String}
    (other : id ≠ gid) (leads : s.bytesAt (.groupByName name) = some (.text id)) :
    name ≠ g.name := by
  rintro rfl
  have own := (lived.lives gid g record).byName
  rw [leads, Option.some.injEq, Val.text.injEq] at own
  exact other own

theorem lived_created {g : Group} {owner : String} (new : g.id ∉ minted)
    (fresh : FreshGroup s g.id owner g) :
    Lived (groupCreated s g) (g.id :: minted) ((g.id, g.ttlSeconds) :: asked) := by
  have vacant : s.hashAt (.group g.id) = ∅ := by
    by_contra full
    exact new (lived.records g.id full).1
  have fields : GroupAt (groupCreated s g) g.id g := by
    unfold GroupAt
    have written := encode_group_fields g (s.hashAt (.group g.id)) fresh.ttl
      (by simp [vacant, fresh.idle])
    simpa [groupCreated, groupArmed, ttlArmed, groupWritten] using written
  have record : ∃ v, (groupWritten s g).lookup (.group g.id) = some v := by
    have same : (groupWritten s g).hashAt (.group g.id) =
        (groupCreated s g).hashAt (.group g.id) := by
      simp [groupCreated, groupArmed, ttlArmed]
    apply group_present (g := g)
    unfold GroupAt at fields ⊢
    exact same ▸ fields
  have named : (groupWritten s g).bytesAt (.groupByName g.name) = some (.text g.id) := by
    simp [groupWritten]
  obtain ⟨v, present⟩ := record
  obtain ⟨v', presentName⟩ := bytes_present named
  have backend : (groupWritten s g).backend = s.backend := rfl
  have clock : (groupWritten s g).clock = s.clock := rfl
  have armed := armed_groupArmed (backend.trans lived.valkey) present presentName g.ttlSeconds
  refine lived_changed lived g.id (fun _ old => List.mem_cons_of_mem _ old)
    (leads_storeGroup g lived.kinded).2 ?_ ?_ ?_ ?_ ?_
    fields rfl List.mem_cons_self (lives_armed ?_ ?_ ?_ ?_)
  · simp [groupCreated, backend]
  · simp [groupCreated, clock]
  · intro id
    simpa [groupCreated, groupArmed, ttlArmed, groupWritten] using lived.routeless id
  · intro id other
    refine ⟨?_, ?_, ?_⟩
    · simp [groupCreated, groupArmed, ttlArmed, groupWritten, other]
    · unfold groupCreated
      rw [armed_groupArmed_ne (by simpa using other) (by simp)]
      simp [groupWritten]
    · exact lookup_noted_ne other _ _
  · intro name id other leads
    have apart : name ≠ g.name := by
      rintro rfl
      simp [fresh.free] at leads
    refine ⟨?_, ?_⟩
    · simpa [groupCreated, groupArmed, ttlArmed, groupWritten, apart] using leads
    · unfold groupCreated
      rw [armed_groupArmed_ne (by simp) (by simpa using apart)]
      simp [groupWritten, apart]
  · simp [groupCreated, groupArmed, ttlArmed, groupWritten]
  · simp
  · unfold groupCreated
    rw [armed.1]
    simp [deadline]
  · unfold groupCreated
    rw [armed.2]
    simp [deadline]

/-- The lifetime of a live group is armed again, from the lifetime it is stored with. -/
theorem lived_rearmed {gid : String} {g : Group} (record : GroupAt s gid g) :
    Lived (groupArmed s gid g.name g.ttlSeconds) minted asked := by
  obtain ⟨byName, asks, _, _⟩ := lived.lives gid g record
  obtain ⟨v, present⟩ := group_present record
  obtain ⟨v', presentName⟩ := bytes_present byName
  have armed := armed_groupArmed lived.valkey present presentName g.ttlSeconds
  obtain ⟨known, id⟩ := lived.known record
  refine lived_changed lived gid (fun _ old => old) (leads_armGroupTtls _ _ _ lived.kinded).2
    (by simp) (by simp) ?_ ?_ ?_ (g := g) ?_ id known (lives_armed ?_ asks ?_ ?_)
  · intro id
    simpa [groupArmed, ttlArmed] using lived.routeless id
  · intro id other
    refine ⟨by simp [groupArmed, ttlArmed], ?_, rfl⟩
    exact armed_groupArmed_ne (by simpa using other) (by simp) _
  · intro name id other leads
    have apart := lived.name_apart record other leads
    refine ⟨by simpa [groupArmed, ttlArmed] using leads, ?_⟩
    exact armed_groupArmed_ne (by simp) (by simpa using apart) _
  · unfold GroupAt at record ⊢
    simpa [groupArmed, ttlArmed] using record
  · simpa [groupArmed, ttlArmed] using byName
  · rw [armed.1]
    simp [deadline]
  · rw [armed.2]
    simp [deadline]

/-- A field of a live group's record is rewritten, its name and lifetime apart. -/
theorem lived_field {gid : String} {g g' : Group} (record : GroupAt s gid g) {field : String}
    {v : Val} (after : GroupFields ((s.hashAt (.group gid)).insert field v) g')
    (id : g'.id = g.id) (name : g'.name = g.name) (ttl : g'.ttlSeconds = g.ttlSeconds) :
    Lived (s.putHash (.group gid) ((s.hashAt (.group gid)).insert field v)) minted asked := by
  have lives := lived.lives gid g record
  obtain ⟨known, own⟩ := lived.known record
  refine lived_changed lived gid (fun _ old => old)
    (Storage.wellKinded_putHash lived.kinded (by simp) _) rfl rfl ?_ ?_ ?_ (g := g') ?_
    (id.trans own) known ⟨?_, ?_, ?_, ?_⟩
  · intro id
    simpa using lived.routeless id
  · intro id other
    simp [other]
  · intro name id other leads
    simpa using leads
  · unfold GroupAt
    simpa using after
  · simpa [name] using lives.byName
  · exact ttl ▸ lives.asked
  · rw [ttl, name]
    simpa using lives.permanent
  · rw [ttl, name]
    simpa using lives.limited

theorem lived_patchedTtl {gid : String} {g : Group} (record : GroupAt s gid g) {ttl : Nat}
    (bound : ttl < u64Size) :
    Lived (ttlPatched s gid g (some ttl)) minted ((gid, ttl) :: asked) := by
  obtain ⟨byName, _, _, _⟩ := lived.lives gid g record
  obtain ⟨known, id⟩ := lived.known record
  have written := group_fields_ttl (h := s.hashAt (.group gid)) record ttl bound
  have recordAfter : GroupAt (s.putHash (.group gid)
      ((s.hashAt (.group gid)).insert "ttl_seconds" (.int ttl))) gid
      { g with ttlSeconds := ttl } := by
    unfold GroupAt
    simpa using written
  obtain ⟨v, present⟩ := group_present recordAfter
  obtain ⟨v', presentName⟩ := bytes_present (s := s.putHash (.group gid)
    ((s.hashAt (.group gid)).insert "ttl_seconds" (.int ttl))) (k := .groupByName g.name)
    (b := .text gid) (by simpa using byName)
  have armed := armed_groupArmed (s := s.putHash (.group gid)
    ((s.hashAt (.group gid)).insert "ttl_seconds" (.int ttl))) lived.valkey present presentName ttl
  have kinded := Storage.wellKinded_putHash (k := .group gid) lived.kinded (by simp)
    ((s.hashAt (.group gid)).insert "ttl_seconds" (.int ttl))
  unfold ttlPatched
  refine lived_changed lived gid (fun _ old => old) (leads_armGroupTtls _ _ _ kinded).2
    (by simp) (by simp) ?_ ?_ ?_ (g := { g with ttlSeconds := ttl }) ?_ id known
    (lives_armed ?_ (by simp) ?_ ?_)
  · intro id
    simpa [groupArmed, ttlArmed] using lived.routeless id
  · intro id other
    refine ⟨by simp [groupArmed, ttlArmed, other], ?_, lookup_noted_ne other _ _⟩
    rw [armed_groupArmed_ne (by simpa using other) (by simp), Storage.armed_putHash]
  · intro name id other leads
    have apart := lived.name_apart record other leads
    refine ⟨by simpa [groupArmed, ttlArmed] using leads, ?_⟩
    rw [armed_groupArmed_ne (by simp) (by simpa using apart), Storage.armed_putHash]
  · unfold GroupAt at recordAfter ⊢
    simpa [groupArmed, ttlArmed] using recordAfter
  · simpa [groupArmed, ttlArmed] using byName
  · rw [armed.1]
    simp [deadline]
  · rw [armed.2]
    simp [deadline]

/-- Noting a lifetime that is already noted. -/
theorem lived_noted {gid : String} {ttl : Nat} (same : asked.lookup gid = some ttl) :
    Lived s minted ((gid, ttl) :: asked) := by
  have lookups : ∀ id, ((gid, ttl) :: asked).lookup id = asked.lookup id := by
    intro id
    by_cases here : id = gid
    · subst here
      simp [same]
    · exact lookup_noted_ne here _ _
  obtain ⟨kinded, valkey, routeless, records, lives, kept⟩ := lived
  refine ⟨kinded, valkey, routeless, records, ?_, ?_⟩
  · intro id g record
    obtain ⟨byName, asks, permanent, limited⟩ := lives id g record
    exact ⟨byName, (lookups id).trans asks, permanent, limited⟩
  · intro id zero
    exact kept id ((lookups id).symm.trans zero)

/-- A flag of a live group is set, when there is a value for it. -/
theorem lived_flag {gid : String} {g : Group} (record : GroupAt s gid g) (field : String)
    (o : Option Bool) (change : Bool → Group)
    (after : ∀ b, GroupFields ((s.hashAt (.group gid)).insert field (.flag b)) (change b) ∧
      (change b).id = g.id ∧ (change b).name = g.name ∧ (change b).ttlSeconds = g.ttlSeconds) :
    Lived (fieldPatched (.group gid) field .flag s o) minted asked ∧
      GroupAt (fieldPatched (.group gid) field .flag s o) gid (o.elim g change) := by
  cases o with
  | none => exact ⟨lived, record⟩
  | some b =>
    obtain ⟨fields, id, name, ttl⟩ := after b
    refine ⟨lived_field lived record fields id name ttl, ?_⟩
    unfold GroupAt
    simpa [fieldPatched] using fields

theorem lived_patched {gid : String} {g : Group} (record : GroupAt s gid g) (ttl : Option Nat)
    (bound : ∀ n ∈ ttl, n < u64Size) (sliding callout : Option Bool) :
    Lived (groupPatched s gid g ttl sliding callout) minted
      ((gid, ttl.getD g.ttlSeconds) :: asked) := by
  have first : Lived (ttlPatched s gid g ttl) minted ((gid, ttl.getD g.ttlSeconds) :: asked) ∧
      GroupAt (ttlPatched s gid g ttl) gid { g with ttlSeconds := ttl.getD g.ttlSeconds } := by
    cases ttl with
    | none => exact ⟨lived_noted lived (lived.lives gid g record).asked, record⟩
    | some n =>
      refine ⟨lived_patchedTtl lived record (bound n rfl), ?_⟩
      have written := group_fields_ttl (h := s.hashAt (.group gid)) record n (bound n rfl)
      unfold GroupAt
      simpa [ttlPatched, groupArmed, ttlArmed] using written
  obtain ⟨held, at_⟩ := first
  obtain ⟨held', at'⟩ := lived_flag held at_ "sliding_ttl" sliding _
    (fun b => ⟨group_fields_sliding at_ b, rfl, rfl, rfl⟩)
  exact (lived_flag held' at' "callout_enabled" callout _
    (fun b => ⟨group_fields_callout at' b, rfl, rfl, rfl⟩)).1

/-- The name of a group moves; its record keeps the deadline it has. -/
theorem lived_moved {gid : String} {g : Group} (record : GroupAt s gid g) {newName : String}
    (free : s.bytesAt (.groupByName newName) = none) :
    Lived (nameMoved s gid g newName) minted asked := by
  obtain ⟨byName, asks, permanent, limited⟩ := lived.lives gid g record
  obtain ⟨known, id⟩ := lived.known record
  have written := group_fields_name (h := s.hashAt (.group gid)) record newName
  have record_ : (nameMoved s gid g newName).armed (.group gid) = s.armed (.group gid) := by
    unfold nameMoved ttlArmed
    rw [Storage.armed_arm_ne _ _ _ _ (by simp)]
    simp
  have index : (nameMoved s gid g newName).armed (.groupByName newName) =
      deadline s g.ttlSeconds := by
    unfold nameMoved ttlArmed
    rw [Storage.armed_arm (v := .bytes (.text gid)) _ _ (by simpa using lived.valkey)
      (by simp [Storage.put, Storage.lookup_replace])]
    simp [deadline]
  refine lived_changed lived gid (fun _ old => old) (leads_moveName gid g newName lived.kinded).2
    (by simp [nameMoved, ttlArmed]) (by simp [nameMoved, ttlArmed]) ?_ ?_ ?_
    (g := { g with name := newName }) ?_ id known ⟨?_, asks, ?_, ?_⟩
  · intro id
    simpa [nameMoved, ttlArmed] using lived.routeless id
  · intro id other
    refine ⟨by simp [nameMoved, ttlArmed, other], ?_, rfl⟩
    unfold nameMoved ttlArmed
    rw [Storage.armed_arm_ne _ _ _ _ (by simp)]
    simp
  · intro name id other leads
    have apart := lived.name_apart record other leads
    have apart' : name ≠ newName := by
      rintro rfl
      simp [free] at leads
    refine ⟨by simpa [nameMoved, ttlArmed, apart, apart'] using leads, ?_⟩
    unfold nameMoved ttlArmed
    rw [Storage.armed_arm_ne _ _ _ _ (by simpa using apart')]
    simp [apart, apart']
  · unfold GroupAt
    simpa [nameMoved, ttlArmed] using written
  · simp [nameMoved, ttlArmed]
  · intro never
    rw [record_, index]
    exact ⟨(permanent never).1, by simp [deadline, show g.ttlSeconds = 0 from never]⟩
  · intro ends
    obtain ⟨d, d', armed, _, _, within⟩ := limited ends
    have later : deadline s g.ttlSeconds = some (s.clock + g.ttlSeconds) := by
      simp [deadline, show g.ttlSeconds ≠ 0 from ends]
    have clock : (nameMoved s gid g newName).clock = s.clock := by simp [nameMoved, ttlArmed]
    exact ⟨d, s.clock + g.ttlSeconds, record_.trans armed, index.trans later, within,
      clock.symm ▸ within⟩

/-- Time takes the record of a group no later than its name, and neither of one that stays. -/
theorem lived_advance (seconds : Nat) : Lived (s.advance seconds) minted asked := by
  have stays : ∀ gid g, GroupAt (s.advance seconds) gid g →
      s.due (.group gid) seconds = false ∧ GroupAt s gid g := by
    intro gid g record
    unfold GroupAt at record
    rw [Storage.hashAt_advance] at record
    by_cases expired : s.due (.group gid) seconds = true
    · rw [if_pos expired] at record
      have id := GroupFields.id record
      simp at id
    · rw [if_neg expired] at record
      exact ⟨by simpa using expired, record⟩
  refine ⟨Storage.wellKinded_advance lived.kinded seconds, (Storage.backend_advance s seconds).trans
    lived.valkey, ?_, ?_, ?_, ?_⟩
  · intro gid
    have before := lived.routeless gid
    simp only [Storage.setAt, Storage.membersAt, Storage.lookup_advance] at before ⊢
    split
    · rfl
    · exact before
  · intro gid full
    rw [Storage.hashAt_advance] at full
    unfold GroupAt
    rw [Storage.hashAt_advance]
    split at full
    · exact absurd rfl full
    · rename_i early
      simp only [early]
      exact lived.records gid full
  · intro gid g record
    obtain ⟨early, before⟩ := stays gid g record
    obtain ⟨byName, asks, permanent, limited⟩ := lived.lives gid g before
    have earlyName : s.due (.groupByName g.name) seconds = false := by
      by_cases never : g.ttlSeconds = 0
      · simp [Storage.due, (permanent never).2]
      · obtain ⟨d, d', armed, armedName, order, _⟩ := limited never
        simp only [Storage.due, armed, armedName, Option.any_some,
          decide_eq_false_iff_not] at early ⊢
        omega
    refine ⟨?_, asks, ?_, ?_⟩
    · simpa [earlyName] using byName
    · rw [Storage.armed_advance, Storage.armed_advance, early, earlyName]
      exact permanent
    · intro ends
      obtain ⟨d, d', armed, armedName, order, within⟩ := limited ends
      rw [Storage.armed_advance, Storage.armed_advance, early, earlyName]
      exact ⟨d, d', armed, armedName, order, by
        show d ≤ s.clock + seconds + g.ttlSeconds
        omega⟩
  · intro gid zero
    obtain ⟨g, record⟩ := lived.kept gid zero
    have lives := lived.lives gid g record
    have never : g.ttlSeconds = 0 := by
      have both := lives.asked.symm.trans zero
      simpa using both
    refine ⟨g, ?_⟩
    unfold GroupAt at record ⊢
    rw [Storage.hashAt_advance, Storage.due, (lives.permanent never).1]
    exact record

end Changes

/-! The run -/

theorem lived_step [UlidText] {s t : LifetimeState} {a : LifetimeAction}
    (lived : Lived s.store s.minted s.asked) (next : lifetimes.step s a = some t) :
    Lived t.store t.minted t.asked := by
  have wk := lived.kinded
  cases a with
  | createGroup params id now draw =>
    simp only [lifetimes] at next
    split at next
    · cases next
    · rename_i new
      cases next
      rcases createGroup_cases wk params id now draw with ⟨e, ran⟩ | ⟨g, ran, fresh⟩
      · rw [ran]
        obtain ⟨kinded, valkey, routeless, records, lives, kept⟩ := lived
        refine ⟨kinded, valkey, routeless, ?_, lives, kept⟩
        intro gid full
        exact ⟨List.mem_cons_of_mem _ (records gid full).1, (records gid full).2⟩
      · have own := fresh.id
        subst own
        rw [ran]
        exact lived_created lived new fresh
  | patchGroup gid ttl sliding callout =>
    simp only [lifetimes, Option.some.injEq] at next
    subst next
    rcases patchGroup_cases wk gid ttl sliding callout with
      ⟨e, ran⟩ | ⟨g, g', ran, record, bound, same⟩
    · rw [ran]
      exact lived
    · have own : g'.id = gid := by
        rw [same]
        exact (lived.known record).2
      have ttlSeconds : g'.ttlSeconds = ttl.getD g.ttlSeconds := by rw [same]
      rw [ran]
      show Lived _ s.minted ((g'.id, g'.ttlSeconds) :: s.asked)
      rw [own, ttlSeconds]
      exact lived_patched lived record ttl bound sliding callout
  | renameGroup groupRef newName =>
    simp only [lifetimes, Option.some.injEq] at next
    subst next
    rcases renameGroup_cases wk groupRef newName with
      ⟨e, ran⟩ | ⟨gid, g, e, ran, record, _, free, _⟩ | ⟨gid, g, ran, _⟩ | ⟨g, u, ran, renamed⟩
    · rw [ran]
      exact lived
    · rw [ran]
      exact lived_moved lived record free
    · rw [ran]
      exact lived
    · obtain ⟨gid, old, routes, _, record, _, _, free, listed, _, rfl⟩ := renamed.made
      have moved := lived_moved lived record free
      rw [moved.routeless gid] at listed
      have none : routes = [] := by
        cases listed
        rfl
      rw [ran, none]
      exact moved
  | refreshGroup gid =>
    simp only [lifetimes, Option.some.injEq] at next
    subst next
    rcases refreshGroup_cases wk gid with ⟨e, ran⟩ | ⟨g, ran, record⟩
    · rw [ran]
      exact lived
    · rw [ran]
      exact lived_rearmed lived record
  | refreshGroupIfSliding gid =>
    simp only [lifetimes, Option.some.injEq] at next
    subst next
    rcases refreshGroupIfSliding_cases wk gid with ⟨r, ran⟩ | ⟨g, ran, record⟩
    · rw [ran]
      exact lived
    · rw [ran]
      exact lived_rearmed lived record
  | wait seconds =>
    simp only [lifetimes, Option.some.injEq] at next
    subst next
    exact lived_advance lived seconds

theorem lived_reached [UlidText] {s : LifetimeState}
    (reached : Reached lifetimes (fun _ _ => True) s) : Lived s.store s.minted s.asked := by
  have base : ∀ s, lifetimes.start s → Lived s.store s.minted s.asked := by
    rintro s rfl
    have vacant : ∀ gid g, ¬ GroupAt (Storage.empty .valkey : Store) gid g := by
      intro gid g record
      have id := GroupFields.id record
      simp at id
    exact ⟨Storage.wellKinded_empty _, rfl, by simp, fun gid full => absurd (by simp) full,
      fun gid g record => absurd record (vacant gid g), by simp⟩
  exact reached_invariant base (fun s a t held _ next => lived_step held next) reached

/-- A group that is to stay stays without a deadline, every other group has one. -/
theorem ttl_discipline [UlidText] (s : LifetimeState)
    (reached : Reached lifetimes (fun _ _ => True) s) : TtlDiscipline s := by
  have lived := lived_reached reached
  refine ⟨fun gid g record => (lived.lives gid g record).permanent, ?_, ?_⟩
  · intro gid g record ends
    obtain ⟨d, d', armed, armedName, _⟩ := (lived.lives gid g record).limited ends
    simp [armed, armedName]
  · intro gid zero
    obtain ⟨g, record⟩ := lived.kept gid zero
    have lives := lived.lives gid g record
    have both := lives.asked.symm.trans zero
    exact ⟨g, record, by simpa using both, lives.byName⟩

namespace Sample

/-- A group that lives a minute is made to stay, renamed and left alone for a year. -/
def madePermanent : List LifetimeAction :=
  [.createGroup ⟨"shop", "ann", some 60, none⟩ idA 0 draw, .wait 30,
    .refreshGroupIfSliding idA, .wait 45, .patchGroup idA (some 0) none none,
    .renameGroup "shop" "store", .wait 31536000]

end Sample

theorem ttl_discipline_store : ∃ s : LifetimeState, Reached lifetimes (fun _ _ => True) s ∧
    s.store.bytesAt (.groupByName "store") = some (.text Sample.idA) ∧ TtlDiscipline s := by
  have ran : ((exec lifetimes ⟨Storage.empty .valkey, [], []⟩ Sample.madePermanent).map
      (fun s => s.store.bytesAt (.groupByName "store"))) = some (some (.text Sample.idA)) := by
    decide +kernel
  obtain ⟨s, done, named⟩ := Option.map_eq_some_iff.mp ran
  have reached := reached_of_exec (m := lifetimes) Sample.madePermanent rfl done
  exact ⟨s, reached, named, ttl_discipline s reached⟩

end WireMirage
