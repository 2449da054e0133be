import WireMirage.Library.StepMachine
import WireMirage.Table.Mutations

/-!
A host that works through its calls one after another, its table refreshed after
each: the table then holds exactly the stored routes, and every request of a group
has one winner, whatever the order of the rows.
-/
namespace WireMirage
open Prog StepMachine RouteTable

/-! The rows of a table against a catalog -/

structure Tracks (rows : List Route) (c : Catalog) : Prop where
  distinct : (rows.map Route.id).Nodup
  mem : ∀ r, r ∈ rows ↔ c.routes r.id = some r

theorem tracks_perm {rows others : List Route} {c : Catalog} (tracks : Tracks rows c)
    (same : others.Perm rows) : Tracks others c where
  distinct := (same.map Route.id).nodup_iff.mpr tracks.distinct
  mem := fun r => same.mem_iff.trans (tracks.mem r)

theorem ids_replaceRow (route : Route) (rows : List Route) :
    (replaceRow route rows).map Route.id =
      if route.id ∈ rows.map Route.id then rows.map Route.id
      else rows.map Route.id ++ [route.id] := by
  induction rows with
  | nil => rfl
  | cons r rest ih =>
    unfold replaceRow
    by_cases here : r.id = route.id
    · simp [here]
    · rw [if_neg here, List.map_cons, ih]
      have other : route.id ≠ r.id := fun same => here same.symm
      rw [List.map_cons]
      by_cases later : route.id ∈ rest.map Route.id
      · rw [if_pos later, if_pos (List.mem_cons_of_mem _ later)]
      · have absent : route.id ∉ r.id :: rest.map Route.id := by
          rw [List.mem_cons, not_or]
          exact ⟨other, later⟩
        rw [if_neg later, if_neg absent, List.cons_append]

theorem mem_replaceRow {route : Route} {rows : List Route} (distinct : (rows.map Route.id).Nodup)
    (x : Route) : x ∈ replaceRow route rows ↔ x = route ∨ (x ∈ rows ∧ x.id ≠ route.id) := by
  induction rows with
  | nil => simp [replaceRow]
  | cons r rest ih =>
    rw [List.map_cons, List.nodup_cons] at distinct
    unfold replaceRow
    by_cases here : r.id = route.id
    · rw [if_pos here, List.mem_cons, List.mem_cons]
      have apart : ∀ y ∈ rest, y.id ≠ route.id := by
        intro y member same
        exact distinct.1 (List.mem_map.mpr ⟨y, member, same.trans here.symm⟩)
      constructor
      · rintro (rfl | member)
        · exact .inl rfl
        · exact .inr ⟨.inr member, apart x member⟩
      · rintro (rfl | ⟨rfl | member, other⟩)
        · exact .inl rfl
        · exact absurd here other
        · exact .inr member
    · rw [if_neg here, List.mem_cons, List.mem_cons, ih distinct.2]
      constructor
      · rintro (rfl | rfl | ⟨member, other⟩)
        · exact .inr ⟨.inl rfl, here⟩
        · exact .inl rfl
        · exact .inr ⟨.inr member, other⟩
      · rintro (rfl | ⟨rfl | member, other⟩)
        · exact .inr (.inl rfl)
        · exact .inl rfl
        · exact .inr (.inr ⟨member, other⟩)

section Tracking
variable {rows : List Route} {c d : Catalog} (tracks : Tracks rows c)
include tracks

theorem Tracks.absent {rid : String} (none : c.routes rid = none) : rid ∉ rows.map Route.id := by
  intro member
  obtain ⟨r, row, rfl⟩ := List.mem_map.mp member
  rw [(tracks.mem r).mp row] at none
  cases none

theorem Tracks.congr (routes : d.routes = c.routes) : Tracks rows d :=
  ⟨tracks.distinct, fun r => by rw [routes]; exact tracks.mem r⟩

theorem tracks_create {r : Route} (new : c.routes r.id = none) :
    Tracks (rows ++ [r]) (c.setRoute r) where
  distinct := by
    rw [List.map_append, List.nodup_append]
    refine ⟨tracks.distinct, by simp, ?_⟩
    rintro rid member other here rfl
    have same : rid = r.id := by simpa using here
    exact tracks.absent new (same ▸ member)
  mem := by
    intro x
    rw [List.mem_append, List.mem_singleton, tracks.mem x]
    unfold Catalog.setRoute
    by_cases here : x.id = r.id
    · simp only [here, new, if_true, Option.some.injEq]
      simp [eq_comm]
    · have other : x ≠ r := fun same => here (same ▸ rfl)
      simp [here, other]

theorem tracks_update (r : Route) : Tracks (replaceRow r rows) (c.setRoute r) where
  distinct := by
    rw [ids_replaceRow]
    split
    · exact tracks.distinct
    · rename_i absent
      rw [List.nodup_append]
      refine ⟨tracks.distinct, by simp, ?_⟩
      rintro rid member other here rfl
      have same : rid = r.id := by simpa using here
      exact absent (same ▸ member)
  mem := by
    intro x
    rw [mem_replaceRow tracks.distinct, tracks.mem x]
    unfold Catalog.setRoute
    by_cases here : x.id = r.id
    · simp [here, eq_comm]
    · have other : x ≠ r := fun same => here (same ▸ rfl)
      simp [here, other]

theorem tracks_delete (rid : String) :
    Tracks (rows.filter (fun r => r.id != rid)) (c.dropRoute rid) where
  distinct := tracks.distinct.sublist (List.filter_sublist.map Route.id)
  mem := by
    intro x
    rw [List.mem_filter, tracks.mem x]
    unfold Catalog.dropRoute
    by_cases here : x.id = rid <;> simp [here]

theorem tracks_cascade (gid : String) :
    Tracks (rows.filter (fun r => r.groupId != gid)) (c.dropGroup gid) where
  distinct := tracks.distinct.sublist (List.filter_sublist.map Route.id)
  mem := by
    intro x
    rw [List.mem_filter, tracks.mem x, Catalog.dropGroup_routes]
    simp

theorem tracks_rename (gid newName : String) :
    Tracks (rows.map (Catalog.renamedRoute gid newName)) (c.renameGroup gid newName) where
  distinct := by
    have ids : Route.id ∘ Catalog.renamedRoute gid newName = Route.id := by
      funext r
      exact (Catalog.renamedRoute_same gid newName r).1
    rw [List.map_map, ids]
    exact tracks.distinct
  mem := by
    intro x
    rw [List.mem_map, Catalog.renameGroup_routes]
    constructor
    · rintro ⟨q, member, rfl⟩
      rw [(Catalog.renamedRoute_same gid newName q).1]
      exact ⟨q, (tracks.mem q).mp member, rfl⟩
    · rintro ⟨q, live, same⟩
      have id : q.id = x.id := by
        rw [← same, (Catalog.renamedRoute_same gid newName q).1]
      exact ⟨q, (tracks.mem q).mpr (id ▸ live), same⟩

/-- A refresh keeps the rows in step with the change it follows. -/
theorem tracks_refresh (sound : c.Sound) {refresh : Refresh} (committed : Committed c refresh d) :
    Tracks (refresh.rows rows) d := by
  cases committed with
  | group => exact tracks.congr rfl
  | route place new =>
    rename_i r e
    have routes : e.routes = c.routes := by
      rcases place with rfl | ⟨g, _, rfl⟩ <;> rfl
    have minted : ∀ id ∈ c.minted, id ∈ e.minted := by
      intro id old
      rcases place with rfl | ⟨g, _, rfl⟩
      · exact old
      · exact List.mem_cons_of_mem _ old
    have absent : c.routes r.id = none := sound.absent_route (fun old => new (minted _ old))
    exact (tracks_create tracks absent).congr (by simp [Catalog.setRoute, Catalog.mint, routes])
  | update => exact tracks_update tracks _
  | delete live => exact tracks_delete tracks _
  | rename live => exact tracks_rename tracks _ _
  | keep live =>
    rename_i g
    have unchanged : rows.map (Catalog.renamedRoute g.id g.name) = rows := by
      conv => rhs; rw [← List.map_id rows]
      apply List.map_congr_left
      intro r member
      unfold Catalog.renamedRoute
      split
      · rename_i home
        obtain ⟨h, record, carried⟩ := sound.parent ((tracks.mem r).mp member)
        rw [home, live, Option.some.injEq] at record
        rw [record, carried]
        rfl
      · rfl
    show Tracks (rows.map (Catalog.renamedRoute g.id g.name)) c
    rw [unchanged]
    exact tracks
  | cascade live => exact tracks_cascade tracks _

end Tracking

/-! Runs of a host -/

structure Host (Component : Type) where
  store : Store
  minted : List String
  table : RouteTable Component

/-- Successful calls, each followed by the refresh it calls for. -/
def sequential [UlidText] (Component : Type) : Machine (Host Component) Mutation where
  start h := ∃ b interval, h = ⟨Storage.empty b, [], warm [] interval⟩
  step h m :=
    if m.draws.Nodup ∧ ∀ id ∈ m.draws, Drawable h.minted id then
      match run m.commit h.store with
      | (.ok refresh, store) => some ⟨store, m.draws ++ h.minted, refresh.apply h.table⟩
      | (.error _, _) => none
    else none

structure InStep [UlidText] {Component : Type} (h : Host Component) (c : Catalog) : Prop where
  consistent : Consistent h.store c
  minted : ∀ id ∈ c.minted, id ∈ h.minted
  ulids : ∀ id ∈ h.minted, UlidText.fromString id = true ∧ id ≠ ""
  tracks : Tracks h.table.routes c

theorem sequential_step [UlidText] {Component : Type} {h h' : Host Component} {m : Mutation}
    (stepped : (sequential Component).step h m = some h') {c : Catalog} (inStep : InStep h c) :
    ∃ d, InStep h' d := by
  simp only [sequential] at stepped
  split at stepped
  · rename_i fresh
    have new : m.Fresh c.minted :=
      ⟨fresh.1, fun id drawn old => (fresh.2 id drawn).1 (inStep.minted id old)⟩
    have ulids := fun id old => inStep.ulids id (inStep.minted id old)
    rcases commit_step inStep.consistent ulids m new with
      ⟨e, ran⟩ | ⟨refresh, t, d, ran, committed, step, grown⟩
    · rw [ran] at stepped
      cases stepped
    · rw [ran] at stepped
      cases stepped
      refine ⟨d, step, ?_, ?_, ?_⟩
      · intro id member
        rcases List.mem_append.mp (grown id member) with drawn | old
        · exact List.mem_append_left _ drawn
        · exact List.mem_append_right _ (inStep.minted id old)
      · intro id member
        rcases List.mem_append.mp member with drawn | old
        · exact (fresh.2 id drawn).2
        · exact inStep.ulids id old
      · rw [routes_apply]
        exact tracks_refresh inStep.tracks inStep.consistent.sound committed
  · cases stepped

theorem sequential_inStep [UlidText] {Component : Type} {h : Host Component}
    (reached : Reached (sequential Component) (fun _ _ => True) h) : ∃ c, InStep h c := by
  have base : ∀ h, (sequential Component).start h → ∃ c, InStep h c := by
    rintro h ⟨b, interval, rfl⟩
    refine ⟨Catalog.empty, consistent_empty b, ?_, ?_, ?_⟩
    · intro id old
      cases old
    · intro id old
      cases old
    · exact ⟨List.nodup_nil, by simp [warm, Catalog.empty]⟩
  refine reached_invariant base ?_ reached
  rintro h m h' ⟨c, inStep⟩ _ stepped
  exact sequential_step stepped inStep

/-! Winners -/

/-- A row serves a request of the group named `x`, by the pattern and with the captures. -/
structure Serves (x method path : String) (r : Route) (p : Pattern)
    (captures : List (String × String)) : Prop where
  group : r.groupName = x
  pattern : Pattern.parse r.path = .ok p
  methods : methodsMatch r.methods method = true
  path : p.matchPath path = some captures

theorem offer_iff {x method path : String} {r : Route} {o : Offer MatchedRoute} :
    offer (some x) method path r = some o ↔
      ∃ p captures, Serves x method path r p captures ∧
        o = if p.hasTail then .reserve p.segments.length ⟨r, p.raw, captures⟩
          else .decisive ⟨r, p.raw, captures⟩ := by
  unfold offer matchRoute
  constructor
  · intro offered
    split at offered
    · cases offered
    · rename_i group
      cases parsed : Pattern.parse r.path with
      | error e => simp [parsed] at offered
      | ok p =>
        simp only [parsed] at offered
        by_cases methods : methodsMatch r.methods method = true
        · cases matched : p.matchPath path with
          | none => simp [methods, matched] at offered
          | some captures =>
            simp only [methods, not_true_eq_false, if_false, matched, Option.map_some,
              Option.some.injEq] at offered
            exact ⟨p, captures, ⟨by simpa using group, parsed, methods, matched⟩, offered.symm⟩
        · simp [methods] at offered
  · rintro ⟨p, captures, ⟨group, parsed, methods, matched⟩, rfl⟩
    simp [group, parsed, methods, matched]

/-- The one answer a request of the group named `x` can have over the rows. -/
inductive Winner (rows : List Route) (x method path : String) : Option MatchedRoute → Prop where
  | specific {r : Route} {p : Pattern} {captures : List (String × String)} (row : r ∈ rows)
      (serves : Serves x method path r p captures) (noTail : p.hasTail = false)
      (only : ∀ q ∈ rows, ∀ p' c', Serves x method path q p' c' → p'.hasTail = false → q = r) :
      Winner rows x method path (some ⟨r, p.raw, captures⟩)
  | backstop {r : Route} {p : Pattern} {captures : List (String × String)} (row : r ∈ rows)
      (serves : Serves x method path r p captures)
      (noSpecific : ∀ q ∈ rows, ∀ p' c', Serves x method path q p' c' → p'.hasTail = true)
      (longest : ∀ q ∈ rows, ∀ p' c', Serves x method path q p' c' → q ≠ r →
        p'.segments.length < p.segments.length) :
      Winner rows x method path (some ⟨r, p.raw, captures⟩)
  | none (unserved : ∀ q ∈ rows, ∀ p' c', ¬ Serves x method path q p' c') :
      Winner rows x method path Option.none

section Winners
variable {rows : List Route} {c : Catalog} (tracks : Tracks rows c) (sound : c.Sound)
  {x method path : String}
include tracks sound

/-- Two rows that serve one request in one way are one row. -/
theorem serves_unique {r q : Route} {p p' : Pattern} {a b : List (String × String)} (row : r ∈ rows)
    (row' : q ∈ rows) (one : Serves x method path r p a) (two : Serves x method path q p' b)
    (tails : p.hasTail = p'.hasTail)
    (lengths : p.hasTail = true → p.segments.length = p'.segments.length) : r = q := by
  have live := (tracks.mem r).mp row
  have live' := (tracks.mem q).mp row'
  by_cases same : r.id = q.id
  · rw [same, live', Option.some.injEq] at live
    exact live.symm
  · obtain ⟨g, home, named⟩ := sound.parent live
    obtain ⟨h, home', named'⟩ := sound.parent live'
    have names : g.name = h.name := by rw [named, named', one.group, two.group]
    have apart := sound.apart live live' same (sound.names home home' names)
      p p' one.pattern two.pattern
    have overlap := methods_overlap_of_match (sound.methods live) (sound.methods live')
      one.methods two.methods
    have conflict := patterns_conflict_of_match tails lengths one.path two.path
    simp [routesConflict, overlap, conflict] at apart

omit tracks sound in
theorem serves_same {r : Route} {p p' : Pattern} {a b : List (String × String)}
    (one : Serves x method path r p a) (two : Serves x method path r p' b) : p = p' ∧ a = b := by
  have same := one.pattern.symm.trans two.pattern
  cases same
  have captures := one.path.symm.trans two.path
  cases captures
  exact ⟨rfl, rfl⟩

theorem offers_agree : Offer.Agree (rows.filterMap (offer (some x) method path)) where
  decisive := by
    intro a b offeredA offeredB
    obtain ⟨r, row, from_⟩ := List.mem_filterMap.mp offeredA
    obtain ⟨q, row', from'⟩ := List.mem_filterMap.mp offeredB
    obtain ⟨p, _, one, is⟩ := offer_iff.mp from_
    obtain ⟨p', _, two, is'⟩ := offer_iff.mp from'
    split at is
    · cases is
    · split at is'
      · cases is'
      · cases is
        cases is'
        have same := serves_unique tracks sound row row' one two (by simp_all) (by simp_all)
        subst same
        obtain ⟨rfl, rfl⟩ := serves_same one two
        rfl
  reserve := by
    intro rank a b offeredA offeredB
    obtain ⟨r, row, from_⟩ := List.mem_filterMap.mp offeredA
    obtain ⟨q, row', from'⟩ := List.mem_filterMap.mp offeredB
    obtain ⟨p, _, one, is⟩ := offer_iff.mp from_
    obtain ⟨p', _, two, is'⟩ := offer_iff.mp from'
    split at is
    · split at is'
      · obtain ⟨lengths, rfl⟩ := Offer.reserve.inj is
        obtain ⟨lengths', rfl⟩ := Offer.reserve.inj is'
        have same := serves_unique tracks sound row row' one two (by simp_all)
          (fun _ => lengths.symm.trans lengths')
        subst same
        obtain ⟨rfl, rfl⟩ := serves_same one two
        rfl
      · cases is'
    · cases is

theorem find_winner : Winner rows x method path (findMatchFiltered rows (some x) method path) := by
  have offered : ∀ {q p' c'}, q ∈ rows → Serves x method path q p' c' →
      (if p'.hasTail then Offer.reserve p'.segments.length ⟨q, p'.raw, c'⟩
        else .decisive ⟨q, p'.raw, c'⟩) ∈ rows.filterMap (offer (some x) method path) :=
    fun row serves => List.mem_filterMap.mpr ⟨_, row, offer_iff.mpr ⟨_, _, serves, rfl⟩⟩
  unfold findMatchFiltered
  rcases Offer.choose_cases (offers_agree tracks sound (x := x))
    with ⟨a, member, chosen⟩ | ⟨noDecisive, rank, a, member, chosen, above⟩ | ⟨empty, chosen⟩
  · rw [chosen]
    obtain ⟨r, row, from_⟩ := List.mem_filterMap.mp member
    obtain ⟨p, captures, serves, is⟩ := offer_iff.mp from_
    split at is
    · cases is
    · rename_i noTail
      rw [Offer.decisive.inj is]
      have noTail : p.hasTail = false := by simpa using noTail
      refine .specific row serves noTail ?_
      intro q row' p' c' serves' noTail'
      exact serves_unique tracks sound row' row serves' serves (noTail'.trans noTail.symm)
        (fun tail => by simp [noTail'] at tail)
  · rw [chosen]
    obtain ⟨r, row, from_⟩ := List.mem_filterMap.mp member
    obtain ⟨p, captures, serves, is⟩ := offer_iff.mp from_
    split at is
    · rename_i tail
      obtain ⟨rfl, rfl⟩ := Offer.reserve.inj is
      have noSpecific : ∀ q ∈ rows, ∀ p' c', Serves x method path q p' c' → p'.hasTail = true := by
        intro q row' p' c' serves'
        by_contra specific
        have standing := offered row' serves'
        rw [if_neg specific] at standing
        exact noDecisive _ standing
      refine .backstop row serves noSpecific ?_
      intro q row' p' c' serves' other
      have tail' := noSpecific q row' p' c' serves'
      have standing := offered row' serves'
      rw [if_pos tail'] at standing
      have under := above _ _ standing
      have apart : p'.segments.length ≠ p.segments.length := by
        intro level
        exact other (serves_unique tracks sound row' row serves' serves (tail'.trans tail.symm)
          (fun _ => level))
      omega
    · cases is
  · rw [chosen]
    refine .none ?_
    intro q row p' c' serves
    have standing := offered row serves
    rw [empty] at standing
    cases standing

end Winners

/-- A winner is a row of the group that carries the name. -/
theorem winner_home {rows : List Route} {c : Catalog} (tracks : Tracks rows c) (sound : c.Sound)
    {gid : String} {g : Group} (live : c.groups gid = some g) {method path : String}
    {answer : Option MatchedRoute} (winner : Winner rows g.name method path answer) :
    ∀ m ∈ answer, m.route.groupId = gid := by
  have home : ∀ {r p captures}, r ∈ rows → Serves g.name method path r p captures →
      r.groupId = gid := by
    intro r p captures row serves
    obtain ⟨h, record, named⟩ := sound.parent ((tracks.mem r).mp row)
    exact sound.names record live (named.trans serves.group)
  cases winner with
  | specific row serves =>
    rintro m ⟨⟩
    exact home row serves
  | backstop row serves =>
    rintro m ⟨⟩
    exact home row serves
  | none =>
    rintro m ⟨⟩

/-- Matching is unambiguous, whatever the order of the rows, and stays in the group. -/
theorem find_match_in_group_unambiguous [UlidText] {Component : Type} {h : Host Component}
    (reached : Reached (sequential Component) (fun _ _ => True) h) {gid : String} {g : Group}
    (record : GroupAt h.store gid g) (method path : String) {rows : List Route}
    (same : rows.Perm h.table.routes) :
    findMatchInGroup { h.table with routes := rows } g.name method path =
        findMatchInGroup h.table g.name method path ∧
      (rows.map Route.id).Nodup ∧
      Winner rows g.name method path
        (findMatchInGroup { h.table with routes := rows } g.name method path) ∧
      ∀ m ∈ findMatchInGroup { h.table with routes := rows } g.name method path,
        m.route.groupId = gid := by
  obtain ⟨c, inStep⟩ := sequential_inStep reached
  have sound := inStep.consistent.sound
  have live := (inStep.consistent.represents.groups.record gid g).mp record
  have tracks := tracks_perm inStep.tracks same
  have winner : Winner rows g.name method path (findMatchFiltered rows (some g.name) method path) :=
    find_winner tracks sound
  refine ⟨?_, tracks.distinct, winner, winner_home tracks sound live winner⟩
  exact Offer.choose_perm (same.filterMap _) (offers_agree inStep.tracks sound)

/-- A group with a specific route and a backstop. -/
def Sample.host : Option (Host Unit) :=
  exec (sequential Unit) ⟨Storage.empty .valkey, [], warm [] 5⟩
    [.createGroup (Sample.group "shop" "ann") Sample.idA 0 Sample.draw,
      .createRoute (Sample.route "shop" "/v1/{rest...}" "a" "ann") ⟨Sample.idB, Sample.idC⟩ 1
        Sample.draw,
      .createRoute (Sample.route "shop" "/v1/cart" "b" "ann") ⟨Sample.idD, Sample.idE⟩ 2
        Sample.draw]

theorem find_match_in_group_unambiguous_shop :
    ∃ h : Host Unit, ∃ g, GroupAt h.store Sample.idA g ∧
      Winner h.table.routes.reverse "shop" "GET" "/v1/cart"
        (findMatchInGroup { h.table with routes := h.table.routes.reverse } "shop" "GET"
          "/v1/cart") := by
  have ran : Sample.host.isSome := by decide +kernel
  have reached := reached_of_exec (m := sequential Unit) (t := Sample.host.get ran) _
    ⟨.valkey, 5, rfl⟩ (Option.some_get ran).symm
  obtain ⟨g, record, named⟩ : ∃ g, groupAnswer (Sample.host.get ran).store Sample.idA = .ok g ∧
      g.name = "shop" := ⟨_, rfl, rfl⟩
  have found := find_match_in_group_unambiguous reached (groupAnswer_ok_iff.mp record) "GET"
    "/v1/cart" (List.reverse_perm _)
  rw [named] at found
  exact ⟨_, g, groupAnswer_ok_iff.mp record, found.2.2.1⟩

end WireMirage
