import WireMirage.Library.Pool
import WireMirage.Calls
import WireMirage.Registry.Commands

/-!
Listings while routes come and go. A listing reads the ids of a set and then each
record, one read at a time; creations and deletions act in between.
-/
namespace WireMirage
open Prog StepMachine

/-- A listing before it reads the set, with the records read and the ids left, or failed. -/
inductive ListingTask where
  | before
  | reading (got : List Route) (rest : List String)
  | failed (e : RegistryError)
  deriving DecidableEq

namespace ListingTask

def step (k : Key) : ListingTask → Store → Option (ListingTask × Store)
  | before, s =>
    match run (Bucket.setMembers k : Reg (List String)) s with
    | (.ok ids, t) => some (reading [] ids, t)
    | (.error e, t) => some (failed e, t)
  | reading _ [], _ => none
  | reading got (rid :: rest), s =>
    match run (readRoute rid) s with
    | (.ok r, t) => some (reading (got ++ [r]) rest, t)
    | (.error e, t) => some (failed e, t)
  | failed _, _ => none

/-- The program that a listing is a position of, with what is made of the listed routes. -/
def code {A : Type} (k : Key) (finish : List Route → Except RegistryError A) : ListingTask → Reg A
  | before => listRoutesFrom k >>= fun routes => Prog.ofExcept (finish routes)
  | reading got rest =>
    collect rest readRoute >>= fun more => Prog.ofExcept (finish (got ++ more))
  | failed e => Prog.fail e

end ListingTask

theorem step_ofExcept {A : Type} (r : Except RegistryError A) (s : Store) :
    Prog.step (Prog.ofExcept r : Reg A) s = none := by
  cases r <;> rfl

theorem listing_step {A : Type} (k : Key) (finish : List Route → Except RegistryError A)
    (t : ListingTask) (s : Store) :
    Prog.step (t.code k finish) s = (t.step k s).map (fun b => (b.1.code k finish, b.2)) := by
  cases t with
  | before =>
    have one : Single (Bucket.setMembers k : Reg (List String)) := single_atomic _
    simp only [ListingTask.code, ListingTask.step, listRoutesFrom, Prog.bind_assoc]
    rcases ran : run (Bucket.setMembers k : Reg (List String)) s with ⟨e | ids, u⟩
    · rw [step_bind_error one _ ran]
      rfl
    · rw [step_bind_ok one _ ran]
      rfl
  | reading got rest =>
    cases rest with
    | nil =>
      show Prog.step (Prog.ofExcept (finish (got ++ []))) s = none
      exact step_ofExcept _ s
    | cons rid rest =>
      simp only [ListingTask.code, ListingTask.step, collect, Prog.bind_assoc]
      rcases ran : run (readRoute rid) s with ⟨e | r, u⟩
      · rw [step_bind_error (single_readRoute rid) _ ran]
        rfl
      · rw [step_bind_ok (single_readRoute rid) _ ran]
        simp only [Option.map_some, List.append_assoc, List.singleton_append]
        rfl
  | failed e => rfl

/-- The listings of all routes and of a group's, and the conflict scan, are one loop. -/
theorem listings_code (gid : String) (methods : Methods) (pattern : Pattern)
    (excluded : Option String) :
    ListingTask.before.code .routeAll .ok = (listRoutes >>= pure) ∧
    ListingTask.before.code (.routeInGroup gid) .ok = (routesInGroup gid >>= pure) ∧
    ListingTask.before.code (.routeInGroup gid) (scanConflict methods pattern excluded) =
      scanPatternConflict gid methods pattern excluded :=
  ⟨rfl, rfl, rfl⟩

/-! A listing among any number of creations and deletions -/

/-- The sets that are listed. -/
inductive ListingOf where
  | all
  | inGroup (groupId : String)
  | byOwner (ownerId : String)

def ListingOf.key : ListingOf → Key
  | all => .routeAll
  | inGroup gid => .routeInGroup gid
  | byOwner owner => .routeByOwner owner

theorem ListingOf.family (l : ListingOf) : l.key.family = some .set := by
  cases l <;> rfl

inductive RouteRequest where
  | create (params : NewRoute) (ids : NewIds) (now : Time) (draw : Nat → Draw)
  | delete (groupRef : String) (number : Nat)
  | cascade (groupId : String)

def RouteRequest.program [UlidText] : RouteRequest → Prog Store RegistryError Unit
  | create params ids now draw => settle (createRoute params ids now draw)
  | delete groupRef number => settle (deleteRoute groupRef number)
  | cascade gid => settle (cascadeDeleteGroup gid)

def routeWork [UlidText] : Work Store (Prog Store RegistryError Unit) Unit RouteRequest Empty :=
  programs (fun r _ => some (r.program, ())) nofun

structure ListingState where
  others : Pool Store (Prog Store RegistryError Unit) Unit
  listing : ListingTask

inductive ListingAction where
  | other (a : PoolAction RouteRequest Empty)
  | read

def listingAmong [UlidText] (l : ListingOf) : Machine ListingState ListingAction where
  start s := (∃ c : CallState, Reached calls (fun _ _ => True) c ∧ s.others = ⟨c.store, [], ()⟩) ∧
    s.listing = .before
  step s
    | .other a => ((pool routeWork fun _ _ => True).step s.others a).map
      (fun p => { s with others := p })
    | .read => (s.listing.step l.key s.others.shared).map
        (fun b => ⟨{ s.others with shared := b.2 }, b.1⟩)

def ListingState.store (s : ListingState) : Store := s.others.shared

/-- The same with the program of a listing in place of its positions. -/
structure ListingProgram (A : Type) where
  others : Pool Store (Prog Store RegistryError Unit) Unit
  listing : Reg A

def programAmong [UlidText] {A : Type} (program : Reg A) :
    Machine (ListingProgram A) ListingAction where
  start s := (∃ c : CallState, Reached calls (fun _ _ => True) c ∧ s.others = ⟨c.store, [], ()⟩) ∧
    s.listing = program
  step s
    | .other a => ((pool routeWork fun _ _ => True).step s.others a).map
      (fun p => { s with others := p })
    | .read => (Prog.step s.listing s.others.shared).map
        (fun b => ⟨{ s.others with shared := b.2 }, b.1⟩)

/-- Every run of the listing's program is a run of its positions. -/
theorem listing_programs [UlidText] {A : Type} (l : ListingOf)
    (finish : List Route → Except RegistryError A) {P : ListingProgram A}
    (reached : Reached (programAmong (ListingTask.before.code l.key finish)) (fun _ _ => True) P) :
    ∃ s : ListingState, P = ⟨s.others, s.listing.code l.key finish⟩ ∧
      Reached (listingAmong l) (fun _ _ => True) s := by
  obtain ⟨P₀, ⟨called, program⟩, path⟩ := reached
  induction path with
  | refl =>
    obtain ⟨others, listing⟩ := P₀
    cases program
    exact ⟨⟨others, .before⟩, rfl, ⟨others, .before⟩, ⟨called, rfl⟩, .refl _⟩
  | @tail P Q a path _ next ih =>
    obtain ⟨s, rfl, s₀, first, before⟩ := ih
    cases a with
    | other a =>
      obtain ⟨p, moved, rfl⟩ := Option.map_eq_some_iff.mp next
      refine ⟨{ s with others := p }, rfl, s₀, first, .tail (a := .other a) before trivial ?_⟩
      simp [listingAmong, moved]
    | read =>
      obtain ⟨b, taken, rfl⟩ := Option.map_eq_some_iff.mp next
      rw [listing_step] at taken
      obtain ⟨c, read, rfl⟩ := Option.map_eq_some_iff.mp taken
      refine ⟨⟨{ s.others with shared := c.2 }, c.1⟩, rfl, s₀, first,
        .tail (a := .read) before trivial ?_⟩
      simp [listingAmong, read]

/-- A route whose record reads and that the set lists. -/
def FullyStored (k : Key) (s : Store) (rid : String) : Prop :=
  rid ∈ s.setAt k ∧ ∃ r, RouteAt s rid r

/-- The record that a listing reads next is there in full. -/
def ReadsComplete (s : ListingState) : ListingAction → Prop
  | .other _ => True
  | .read => ∀ got rid rest, s.listing = .reading got (rid :: rest) → ∃ r, RouteAt s.store rid r

/-- Every record says under which id it is stored. -/
def Legible (s : Store) : Prop :=
  s.WellKinded ∧ ∀ rid x, (s.hashAt (.route rid)).lookup "id" = some (.text x) → x = rid

theorem legible_reached [UlidText] {c : CallState} (reached : Reached calls (fun _ _ => True) c) :
    Legible c.store := by
  obtain ⟨d, stored⟩ := calls_stored reached
  refine ⟨stored.consistent.represents.kinded, ?_⟩
  intro rid x field
  cases found : d.routes rid with
  | none =>
    rw [stored.consistent.represents.routes.rest rid found] at field
    cases field
  | some r =>
    have record := (stored.consistent.represents.routes.record rid r).mpr found
    have id := RouteFields.id record
    rw [field, Option.some.injEq, Val.text.injEq] at id
    exact id.trans (stored.consistent.sound.routeId found)

/-- Creations write the id of a route only into its own record. -/
theorem legible_apply {c : Command Key Val} {s : Store}
    (writes : ∀ rid v, c = .setField (.route rid) "id" v → v = .text rid) (typed : c.Typed)
    (legible : Legible s) : Legible (c.apply s) := by
  obtain ⟨wk, ids⟩ := legible
  refine ⟨c.wellKinded_apply typed wk, ?_⟩
  intro rid x field
  rcases Command.field_apply typed (k := .route rid) rfl s "id" with ⟨v, set, now⟩ |
    ⟨_, gone⟩ | same
  · rw [now, writes rid v set] at field
    simpa using field.symm
  · rw [gone] at field
    cases field
  · exact ids rid x (same ▸ field)

theorem keeps_legible [UlidText] (r : RouteRequest) : Keeps Legible r.program := by
  have keeps : ∀ {A : Type} {ok : Command Key Val → Prop} (p : Reg A), Acts ok p →
      (∀ c, ok c → ∀ rid v, c = .setField (.route rid) "id" v → v = .text rid) →
      Keeps Legible (settle p) := by
    intro A ok p acts writes
    exact keeps_of_acts (fun s legible => legible.1)
      (fun c s allowed typed legible => legible_apply (writes c allowed) typed legible) _
      (acts_settle p acts)
  cases r with
  | create params ids now draw =>
    apply keeps _ (acts_createRoute params ids now draw)
    rintro c (writes | writes) rid v rfl
    · obtain ⟨rfl, same⟩ := writes
      exact same rfl
    · cases writes
  | delete groupRef number =>
    apply keeps _ (acts_deleteRoute groupRef number)
    rintro c writes rid v rfl
    exact writes.elim
  | cascade gid =>
    apply keeps _ (acts_cascadeDeleteGroup gid)
    rintro c writes rid v rfl
    exact writes.elim

/-- The other programs leave every record legible. -/
def Undisturbed (p : Pool Store (Prog Store RegistryError Unit) Unit) : Prop :=
  Legible p.shared ∧ ∀ t ∈ p.tasks, Keeps Legible t

theorem undisturbed_step [UlidText] {p q : Pool Store (Prog Store RegistryError Unit) Unit}
    {a : PoolAction RouteRequest Empty} (undisturbed : Undisturbed p)
    (next : (pool routeWork fun _ _ => True).step p a = some q) : Undisturbed q := by
  refine programs_keep ?_ nofun undisturbed next
  intro r l t l' begun
  cases begun
  exact keeps_legible r

theorem listing_reads {l : ListingOf} {s u : Store} {t v : ListingTask} (wk : s.WellKinded)
    (taken : t.step l.key s = some (v, u)) : u = s := by
  cases t with
  | before =>
    simp only [ListingTask.step, run_setMembers wk l.family, Option.some.injEq,
      Prod.mk.injEq] at taken
    exact taken.2.symm
  | reading got rest =>
    cases rest with
    | nil => simp [ListingTask.step] at taken
    | cons rid rest =>
      simp only [ListingTask.step, run_readRoute wk] at taken
      cases answer : routeAnswer s rid with
      | error e =>
        simp only [answer, Option.some.injEq, Prod.mk.injEq] at taken
        exact taken.2.symm
      | ok r =>
        simp only [answer, Option.some.injEq, Prod.mk.injEq] at taken
        exact taken.2.symm
  | failed e => simp [ListingTask.step] at taken

/-- What a listing has so far: the ids of the set, each once, and routes as they were stored. -/
def Gathered (kept : String → Prop) (wasStored : Route → Prop) : ListingTask → Prop
  | .before => True
  | .reading got rest => (got.map Route.id ++ rest).Nodup ∧
      (∀ rid, kept rid → rid ∈ got.map Route.id ++ rest) ∧ ∀ r ∈ got, wasStored r
  | .failed _ => False

theorem gathered_mono {kept : String → Prop} {was still : Route → Prop} {t : ListingTask}
    (stays : ∀ r, was r → still r) (gathered : Gathered kept was t) : Gathered kept still t := by
  cases t with
  | before => trivial
  | reading got rest =>
    obtain ⟨nodup, all, whole⟩ := gathered
    exact ⟨nodup, all, fun r member => stays r (whole r member)⟩
  | failed e => exact gathered

/-- One read of a listing whose next record is there in full. -/
theorem gathered_read {l : ListingOf} {kept : String → Prop}
    {wasStored : Route → Prop} {s u : Store}
    {t v : ListingTask} (legible : Legible s) (gathered : Gathered kept wasStored t)
    (stored : ∀ rid, kept rid → FullyStored l.key s rid)
    (complete : ∀ got rid rest, t = .reading got (rid :: rest) → ∃ r, RouteAt s rid r)
    (now : ∀ r, RouteAt s r.id r → wasStored r) (taken : t.step l.key s = some (v, u)) :
    u = s ∧ Gathered kept wasStored v := by
  cases t with
  | before =>
    simp only [ListingTask.step, run_setMembers legible.1 l.family, Option.some.injEq,
      Prod.mk.injEq] at taken
    obtain ⟨rfl, rfl⟩ := taken
    refine ⟨rfl, ?_, ?_, by simp⟩
    · simpa using s.setAt_nodup l.key
    · intro rid keeps
      simpa using (stored rid keeps).1
  | reading got rest =>
    cases rest with
    | nil => simp [ListingTask.step] at taken
    | cons rid rest =>
      obtain ⟨r, record⟩ := complete got rid rest rfl
      have id : r.id = rid := legible.2 rid r.id (RouteFields.id record)
      subst id
      simp only [ListingTask.step, run_readRoute legible.1, routeAnswer_ok_iff.mpr record,
        Option.some.injEq, Prod.mk.injEq] at taken
      obtain ⟨rfl, rfl⟩ := taken
      obtain ⟨nodup, all, whole⟩ := gathered
      refine ⟨rfl, ?_, ?_, ?_⟩
      · simpa using nodup
      · simpa using all
      · intro q member
        rcases List.mem_append.mp member with old | new
        · exact whole q old
        · rw [List.mem_singleton.mp new]
          exact now r record
  | failed e => exact gathered.elim

/-- The routes a listing answers with: every one that stayed, once, and each as it was stored. -/
structure ListingSurvives (kept : String → Prop) (wasStored : Route → Prop) (got : List Route) :
    Prop where
  once : ∀ rid, kept rid → (got.map Route.id).count rid = 1
  nodup : (got.map Route.id).Nodup
  whole : ∀ r ∈ got, wasStored r

theorem listing_gathers [UlidText] {l : ListingOf} {kept : String → Prop} {s₀ s : ListingState}
    {allow : ListingState → ListingAction → Prop}
    (meets : ∀ u a, allow u a → ReadsComplete u a ∧ ∀ rid, kept rid → FullyStored l.key u.store rid)
    (calm : Undisturbed s₀.others) (first : s₀.listing = .before)
    (path : Run (listingAmong l) allow s₀ s) :
    Undisturbed s.others ∧ Gathered kept (fun r => ∃ u, Run (listingAmong l) allow s₀ u ∧
      Run (listingAmong l) allow u s ∧ RouteAt u.store r.id r) s.listing := by
  induction path with
  | refl =>
    rw [first]
    exact ⟨calm, trivial⟩
  | @tail s t a path ok next ih =>
    obtain ⟨undisturbed, gathered⟩ := ih
    have later : Run (listingAmong l) allow s t := .tail (.refl s) ok next
    obtain ⟨complete, stored⟩ := meets s a ok
    cases a with
    | other a =>
      simp only [listingAmong, Option.map_eq_some_iff] at next
      obtain ⟨p, moved, rfl⟩ := next
      refine ⟨undisturbed_step undisturbed moved, gathered_mono ?_ gathered⟩
      rintro r ⟨u, before, after, record⟩
      exact ⟨u, before, .tail after ok (by simp [listingAmong, moved]), record⟩
    | read =>
      have stepped := next
      simp only [listingAmong, Option.map_eq_some_iff] at next
      obtain ⟨⟨v, u⟩, taken, rfl⟩ := next
      refine ⟨?_, ?_⟩
      · obtain ⟨same, _⟩ := gathered_read undisturbed.1 gathered stored complete
          (fun r record => ⟨s, path, .refl s, record⟩) taken
        exact same ▸ undisturbed
      · refine (gathered_read undisturbed.1 (gathered_mono ?_ gathered) stored complete
          (fun r record => ⟨s, path, later, record⟩) taken).2
        rintro r ⟨w, before, after, record⟩
        exact ⟨w, before, .tail after ok stepped, record⟩

theorem undisturbed_reached [UlidText] {l : ListingOf} {s : ListingState}
    (reached : Reached (listingAmong l) (fun _ _ => True) s) : Undisturbed s.others := by
  have base : ∀ s, (listingAmong l).start s → Undisturbed s.others := by
    rintro s ⟨⟨c, calls, same⟩, _⟩
    rw [same]
    exact ⟨legible_reached calls, by simp⟩
  refine reached_invariant base ?_ reached
  intro s a t undisturbed _ next
  cases a with
  | other a =>
    simp only [listingAmong, Option.map_eq_some_iff] at next
    obtain ⟨p, moved, rfl⟩ := next
    exact undisturbed_step undisturbed moved
  | read =>
    simp only [listingAmong, Option.map_eq_some_iff] at next
    obtain ⟨⟨v, u⟩, taken, rfl⟩ := next
    obtain rfl := listing_reads undisturbed.1.1 taken
    exact undisturbed

/-- A listing whose every read meets a record in full answers with all that stayed. -/
theorem listing_survives [UlidText] (l : ListingOf) (kept : String → Prop) (s₀ s : ListingState)
    (reached : Reached (listingAmong l) (fun _ _ => True) s₀) (first : s₀.listing = .before)
    (path : Run (listingAmong l) (fun u a => ReadsComplete u a ∧
      ∀ rid, kept rid → FullyStored l.key u.store rid) s₀ s) :
    (∀ e, s.listing ≠ .failed e) ∧ ∀ got, s.listing = .reading got [] →
      ListingSurvives kept (fun r => ∃ u, Run (listingAmong l) (fun _ _ => True) s₀ u ∧
        Run (listingAmong l) (fun _ _ => True) u s ∧ RouteAt u.store r.id r) got := by
  obtain ⟨_, gathered⟩ := listing_gathers (fun u a ok => ok)
    (undisturbed_reached reached) first path
  refine ⟨?_, ?_⟩
  · intro e failed
    rw [failed] at gathered
    exact gathered
  · intro got ended
    rw [ended] at gathered
    obtain ⟨nodup, all, whole⟩ := gathered
    rw [List.append_nil] at nodup all
    refine ⟨fun rid keeps => List.count_eq_one_of_mem nodup (all rid keeps), nodup, ?_⟩
    intro r member
    obtain ⟨u, before, after, record⟩ := whole r member
    exact ⟨u, run_mono (fun _ _ _ => trivial) before, run_mono (fun _ _ _ => trivial) after, record⟩

namespace Sample

def twoRoutes : List Call :=
  [.mutation (.createGroup (group "shop" "ann") idA 0 draw),
    .mutation (.createRoute (route "shop" "/cart" "cart" "ann") ⟨idB, idC⟩ 0 draw),
    .mutation (.createRoute (route "shop" "/pay" "pay" "ann") ⟨idD, idE⟩ 0 draw)]

/-- A route is deleted after the listing has read it. -/
def deletedBehind : List ListingAction :=
  [.other (.launch (.delete "shop" 2)), .read, .read] ++
    List.replicate 9 (.other (.resume 0)) ++ [.read]

/-- A route is deleted between the read of the set and the read of its record. -/
def deletedAhead : List ListingAction :=
  [.other (.launch (.delete "shop" 1)), .read] ++ List.replicate 9 (.other (.resume 0)) ++
    [.read, .read]

def listed (s : ListingState) : Option (List String) :=
  match s.listing with
  | .reading got [] => some (got.map Route.id)
  | _ => none

def nextReads (s : ListingState) : Bool :=
  match s.listing with
  | .reading _ (rid :: _) => (routeAnswer s.store rid).toOption.isSome
  | _ => true

/-- The next read meets a record, and the first route stays. -/
def staysListed (s : ListingState) : ListingAction → Bool
  | .read => nextReads s && (s.store.setAt .routeAll).contains idC &&
      (routeAnswer s.store idC).toOption.isSome
  | .other _ => (s.store.setAt .routeAll).contains idC && (routeAnswer s.store idC).toOption.isSome

end Sample

theorem staysListed_meets (s : ListingState) (a : ListingAction) (ok : Sample.staysListed s a) :
    ReadsComplete s a ∧ ∀ rid, rid = Sample.idC → FullyStored (ListingOf.key .all) s.store rid := by
  have stored : (s.store.setAt .routeAll).contains Sample.idC = true →
      (routeAnswer s.store Sample.idC).toOption.isSome = true →
      ∀ rid, rid = Sample.idC → FullyStored (ListingOf.key .all) s.store rid := by
    rintro member reads rid rfl
    exact ⟨List.contains_iff_mem.mp member, route_at_of_answer reads⟩
  cases a with
  | other a =>
    simp only [Sample.staysListed, Bool.and_eq_true] at ok
    exact ⟨trivial, stored ok.1 ok.2⟩
  | read =>
    simp only [Sample.staysListed, Bool.and_eq_true] at ok
    obtain ⟨⟨reads, member⟩, record⟩ := ok
    refine ⟨?_, stored member record⟩
    intro got rid rest next
    simp only [Sample.nextReads, next] at reads
    exact route_at_of_answer reads

theorem listing_survives_shop : ∃ s₀ s, Reached (listingAmong .all) (fun _ _ => True) s₀ ∧
    Sample.listed s = some [Sample.idE, Sample.idC] ∧
    ∀ got, s.listing = .reading got [] → ListingSurvives (· = Sample.idC)
      (fun r => ∃ u, Run (listingAmong .all) (fun _ _ => True) s₀ u ∧
        Run (listingAmong .all) (fun _ _ => True) u s ∧ RouteAt u.store r.id r) got := by
  have ran : ((exec calls ⟨Storage.empty .inMemory, []⟩ Sample.twoRoutes).bind (fun c =>
      (exec (guarded (listingAmong .all) Sample.staysListed) ⟨⟨c.store, [], ()⟩, .before⟩
        Sample.deletedBehind).map Sample.listed)) = some (some [Sample.idE, Sample.idC]) := by
    decide +kernel
  obtain ⟨c, first, rest⟩ := Option.bind_eq_some_iff.mp ran
  obtain ⟨s, done, shows⟩ := Option.map_eq_some_iff.mp rest
  have called := reached_of_exec (m := calls) _ ⟨.inMemory, rfl⟩ first
  have start : (listingAmong .all).start ⟨⟨c.store, [], ()⟩, .before⟩ := ⟨⟨c, called, rfl⟩, rfl⟩
  have path := run_mono staysListed_meets (run_of_guarded (m := listingAmong .all) _ done)
  exact ⟨_, s, reached_start start, shows,
    (listing_survives .all (· = Sample.idC) _ s (reached_start start) rfl path).2⟩

/-- A listing fails because another route is being deleted. -/
theorem listing_meets_deletion : ∃ s, Reached (listingAmong .all) (fun _ _ => True) s ∧
    s.listing = .failed (.malformed "field id missing") := by
  have ran : ((exec calls ⟨Storage.empty .inMemory, []⟩ Sample.twoRoutes).bind (fun c =>
      (exec (listingAmong .all) ⟨⟨c.store, [], ()⟩, .before⟩ Sample.deletedAhead).map
        ListingState.listing)) = some (.failed (.malformed "field id missing")) := by
    decide +kernel
  obtain ⟨c, first, rest⟩ := Option.bind_eq_some_iff.mp ran
  obtain ⟨s, done, shows⟩ := Option.map_eq_some_iff.mp rest
  have called := reached_of_exec (m := calls) _ ⟨.inMemory, rfl⟩ first
  exact ⟨s, reached_of_exec (m := listingAmong .all) _ ⟨⟨c, called, rfl⟩, rfl⟩ done, shows⟩

end WireMirage
