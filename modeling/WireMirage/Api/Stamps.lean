import Mathlib.Data.Set.Insert
import WireMirage.Api.Visits
import WireMirage.Library.Grants

/-!
Where the stamp of a session comes from. Under the token of a cookie there is only ever a
session whose account and stamp a login has given to that very token, however often it is
touched meanwhile and whoever writes it back.
-/
namespace WireMirage
open Prog StepMachine

/-- The token that a login draws for its session. -/
def Visit.mints : Visit → Option String
  | localLogin _ _ _ _ minting => some minting.token
  | oauthLogin _ _ _ _ _ _ minting => some minting.token
  | _ => none

/-- The cookie that a visit presents. -/
def Visit.cookie : Visit → Option String
  | touch _ cookie _ => some cookie
  | page _ cookie _ => cookie
  | api _ credentials _ _ => credentials.cookie
  | _ => none

/-- A finished login gives its session to its token. -/
def Visit.Gives (v : Visit) (answer : VisitAnswer) (f : String × Session) : Prop :=
  v.mints = some f.1 ∧ answer = .loggedIn f.2

/-- A session of the account and with the stamp of one that was given to the token. -/
def GivenTo (known : Set (String × Session)) (token : String) (session : Session) : Prop :=
  ∃ given, (token, given) ∈ known ∧ given.userId = session.userId ∧ given.epoch = session.epoch

/-- A session that the cookie stands for. -/
def StandsFor [Signing] (known : Set (String × Session)) (cookie : Option String)
    (session : Session) : Prop :=
  ∃ text token, cookie = some text ∧ openCookie text = .ok token ∧ GivenTo known token session

/-- Every stored session is one that was given. -/
structure HoldsGiven (known : Set (String × Session)) (s : AdminStore) : Prop where
  kinded : s.WellKinded
  backed : ∀ token session, s.bytesAt (.session token) = some (.session session) →
    GivenTo known token session

section Stores
variable {known more : Set (String × Session)} {s : AdminStore}

theorem givenTo_more (wider : known ⊆ more) {token : String} {session : Session}
    (backed : GivenTo known token session) : GivenTo more token session := by
  obtain ⟨given, inside, same⟩ := backed
  exact ⟨given, wider inside, same⟩

theorem holdsGiven_more (known more : Set (String × Session)) (s : AdminStore)
    (wider : known ⊆ more) (holds : HoldsGiven known s) : HoldsGiven more s :=
  ⟨holds.kinded, fun token session found => givenTo_more wider (holds.backed token session found)⟩

theorem holdsGiven_apply {c : Command AdminKey AdminVal} (typed : c.Typed)
    (account : c.key.account = true) (holds : HoldsGiven known s) :
    HoldsGiven known (c.apply s) := by
  refine ⟨c.wellKinded_apply typed holds.kinded, ?_⟩
  intro token session found
  have same : (c.apply s).entry (.session token) = s.entry (.session token) := by
    apply c.entry_apply
    intro here
    rw [← here] at account
    cases account
  rw [Storage.bytesAt_of_entry same] at found
  exact holds.backed token session found

theorem holdsGiven_put {token : String} {session : Session} (backed : GivenTo known token session)
    (deadline : Option Nat) (holds : HoldsGiven known s) :
    HoldsGiven known (s.put (.session token) (.session session) deadline) := by
  refine ⟨Storage.wellKinded_put holds.kinded rfl _ _, ?_⟩
  intro token' session' found
  rw [Storage.bytesAt_put] at found
  split at found
  · rename_i same
    cases same
    cases found
    exact backed
  · exact holds.backed token' session' found

theorem holdsGiven_erase (k : AdminKey) (holds : HoldsGiven known s) :
    HoldsGiven known (s.erase k) := by
  refine ⟨Storage.wellKinded_erase holds.kinded, ?_⟩
  intro token session found
  rw [Storage.bytesAt_erase] at found
  split at found
  · cases found
  · exact holds.backed token session found

theorem holdsGiven_vanish (k : AdminKey) (holds : HoldsGiven known s) :
    HoldsGiven known (vanish k s) := by
  unfold vanish
  split
  · exact holdsGiven_erase k holds
  · exact holds

end Stores

/-! Programs that give no session -/

section Programs
variable {Err A : Type} {known : Set (String × Session)} {s : AdminStore}

abbrev KeepsGiven (known : Set (String × Session)) (good : A → Prop)
    (p : Prog AdminStore Err A) (s : AdminStore) : Prop :=
  Keeping HoldsGiven known good p s

/-- A program that writes under the keys of accounts alone. -/
theorem given_of_acts {p : Prog AdminStore Err A}
    (acts : Acts (fun c : Command AdminKey AdminVal => c.key.account = true) p) :
    KeepsGiven known (fun _ => True) p s := by
  induction p generalizing s with
  | done a => exact fun _ _ _ _ _ => trivial
  | fail e => exact fun _ _ _ _ _ => trivial
  | act effect next ih =>
    intro t _ holds
    obtain ⟨change, rest⟩ := acts t holds.kinded
    refine ⟨?_, trivial, ih t rest⟩
    rcases change with same | ⟨c, account, typed, does⟩
    · rw [same]
      exact holds
    · rw [does]
      exact holdsGiven_apply typed account holds

theorem given_command [FromStoreError AdminKey Err] {c : Command AdminKey AdminVal}
    (typed : c.Typed) (applies : ∀ t, HoldsGiven known t → HoldsGiven known (c.apply t)) :
    KeepsGiven known (fun _ => True) (c.prog : Prog AdminStore Err Unit) s := by
  apply safe_single c.single_prog
  intro t _ holds
  have leads : Leads _ (c.prog : Prog AdminStore Err Unit) t () (c.apply t) := c.leads_prog typed t
  exact ⟨_, _, leads.run_eq holds.kinded, applies t holds, trivial, fun _ _ _ _ _ => trivial⟩

/-- What is read under a token is backed. -/
theorem given_readSession (token : String) :
    KeepsGiven known (GivenTo known token) (readSession token) s := by
  apply safe_single (single_readSession token)
  intro t _ holds
  have refused : ∀ (r : Except SessionError Session), r.toOption = none →
      ∀ u : AdminStore, IfOk (fun session _ => GivenTo known token session) r u := by
    rintro r none u session rfl
    cases none
  unfold readSession
  rw [run_bind, run_get holds.kinded rfl, andThen_ok]
  cases found : t.bytesAt (.session token) with
  | none => exact ⟨_, t, rfl, holds, trivial, fun u _ _ => refused _ rfl u⟩
  | some v =>
    cases v with
    | session session =>
      refine ⟨_, t, rfl, holds, trivial, ?_⟩
      intro u _ _ session' same
      cases same
      exact holds.backed token session found
    | _ => exact ⟨_, t, rfl, holds, trivial, fun u _ _ => refused _ rfl u⟩

theorem given_liveSession (holds : HoldsGiven known s) (token : String) (now : Time) :
    KeepsGiven known (GivenTo known token) (liveSession token now) s := by
  refine keeping_bind holds (given_readSession token) ?_
  intro session t holds' backed
  show KeepsGiven known _ (if session.expiresAt < now then _ else _) t
  split
  · have deletes : KeepsGiven known (fun _ => True) (deleteSession token) t :=
      given_command (c := .erase (.session token)) trivial
        (fun _ => holdsGiven_erase (.session token))
    exact keeping_bind holds' (ifOk_attempt deletes) (fun _ u _ _ => ifOk_fail _)
  · exact keeping_answer backed

/-- A touch writes back the account and the stamp that it has read, under the same token. -/
theorem given_touch [Signing] (holds : HoldsGiven known s) (ttlSeconds : Nat) (cookie : String)
    (now : Time) :
    KeepsGiven known (StandsFor known (some cookie)) (touch ttlSeconds cookie now) s := by
  unfold touch
  cases opened : openCookie cookie with
  | error e => exact ifOk_fail e
  | ok token =>
    show KeepsGiven known _ (liveSession token now >>= _) s
    refine keeping_bind holds (given_liveSession holds token now) ?_
    intro session t holds' backed
    let touched := { session with lastSeenAt := now, expiresAt := now + ttlSeconds }
    have still : GivenTo known token touched := backed
    have writes : KeepsGiven known (fun _ => True) (writeSession ttlSeconds token touched) t :=
      given_command (c := .putTtl (.session token) (.session touched) ttlSeconds) rfl
        (fun _ => holdsGiven_put still _)
    refine keeping_bind holds' writes ?_
    exact fun _ u _ _ => keeping_answer ⟨cookie, token, rfl, opened, still⟩

theorem given_getUserById (id : String) : KeepsGiven known (fun _ => True) (getUserById id) s :=
  given_of_acts (acts_getUserById id)

theorem given_sessionContext [Signing] (holds : HoldsGiven known s) (ttlSeconds : Nat)
    (cookie : String) (now : Time) :
    KeepsGiven known (fun found => StandsFor known (some cookie) found.2)
      (sessionContext ttlSeconds cookie now) s := by
  refine keeping_bind holds (ifOk_mapError _ (given_touch holds ttlSeconds cookie now)) ?_
  intro session t holds' presented
  refine keeping_bind holds' (ifOk_mapError _ (given_getUserById _)) ?_
  intro user u _ _
  show KeepsGiven known _ (if session.epoch ≠ user.sessionEpoch then _ else _) u
  split
  · exact ifOk_fail _
  · exact keeping_answer presented

theorem given_resolvedSession [Signing] (holds : HoldsGiven known s) (sessions : Option Nat)
    (cookie : Option String) (now : Time) :
    KeepsGiven known (fun found => ∀ session, found = some session →
      StandsFor known cookie session)
      (resolvedSession sessions cookie now : Prog AdminStore Err _) s := by
  have nobody : ∀ t, KeepsGiven known (fun found => ∀ session, found = some session →
      StandsFor known cookie session) (pure none : Prog AdminStore Err (Option Session)) t :=
    fun t => keeping_answer (fun _ wrong => by cases wrong)
  rcases sessions with _ | ttl
  · exact nobody s
  rcases cookie with _ | cookie
  · exact nobody s
  refine keeping_bind holds (ifOk_outcome (given_touch holds ttl cookie now)) ?_
  rintro (e | session) t holds' presented
  · exact nobody t
  refine keeping_bind holds' (ifOk_outcome (given_getUserById _)) ?_
  rintro (e | user) u _ _
  · exact nobody u
  show KeepsGiven known _ (if session.epoch ≠ user.sessionEpoch then _ else _) u
  split
  · exact nobody u
  · refine keeping_answer (fun session' same => ?_)
    cases same
    exact presented session rfl

theorem given_identify [Digest] [Signing] (holds : HoldsGiven known s) (sessions : Option Nat)
    (credentials : Credentials) (now : Time) :
    KeepsGiven known (fun found => ∀ session, found.2 = some session →
      StandsFor known credentials.cookie session) (identify sessions credentials now) s := by
  unfold identify
  split
  · rename_i header _
    have bears : KeepsGiven known (fun _ => True) (bearerContext header now) s := by
      apply given_of_acts
      unfold bearerContext
      cases bearerToken header with
      | error e => trivial
      | ok token =>
        show Acts _ (Prog.mapError _ (authenticate token now) >>= _)
        refine acts_bind _ _ (acts_mapError _ _
          (acts_authenticate (fun _ account _ => account) token now)) ?_
        rintro (_ | context) <;> trivial
    refine keeping_bind holds bears ?_
    exact fun _ _ _ _ => keeping_answer (fun _ wrong => by cases wrong)
  · split
    · rename_i ttlSeconds cookie carried
      refine keeping_bind holds (given_sessionContext holds ttlSeconds cookie now) ?_
      rintro ⟨context, session⟩ t _ presented
      refine keeping_answer (fun session' same => ?_)
      cases same
      rw [carried]
      exact presented
    · exact ifOk_fail _

theorem acts_handle (auth : AuthContext) (request : ApiRequest) :
    Acts (fun c : Command AdminKey AdminVal => c.key.account = true) (request.handle auth) := by
  cases request with
  | getMe => exact acts_bind _ _ (acts_mapError _ _ (acts_getUserById _)) (fun _ => trivial)
  | patchUser selector isAdmin =>
    have writes : ∀ id flag, Acts (fun c : Command AdminKey AdminVal => c.key.account = true)
        (viaAuth (setUserAdmin id flag)) :=
      fun id flag => acts_mapError _ _ (acts_setUserAdmin (fun _ account _ => account) id flag)
    have patches : Acts (fun c : Command AdminKey AdminVal => c.key.account = true)
        (WireMirage.patchUser auth selector isAdmin) := by
      refine acts_bind _ _ (acts_ofExcept _) fun _ => ?_
      refine acts_bind _ _ (acts_bind _ _ (acts_mapError _ _
        (acts_findUserByEmail (fun _ account _ => account) _)) ?_) fun user => ?_
      · rintro (_ | user) <;> trivial
      rcases isAdmin with _ | _ | _
      · trivial
      · exact acts_bind _ _ (acts_sparesLastAdmin user _) (fun _ => writes user.id false)
      · exact writes user.id true
    exact acts_bind _ _ patches (fun _ => trivial)
  | revokeAllMySessions =>
    exact acts_bind _ _ (acts_mapError _ _
      (acts_bumpSessionEpoch (fun _ account _ => account) _)) (fun _ => trivial)

end Programs

/-! Visits -/

section Visits
variable [Digest] [Signing]

/-- What every visit that accepts a session promises of it. -/
def Visit.Traced (v : Visit) (known : Set (String × Session)) (answer : VisitAnswer) : Prop :=
  ∀ session, answer.accepted = some session → StandsFor known v.cookie session

omit [Digest] in
/-- The session that a login mints. -/
def mintedSession (provider : String) (minting : Minting) (user : User) : Session :=
  newSession ⟨user.id, provider, minting.ipFirstSeen, minting.userAgent, user.sessionEpoch⟩
    minting.ttlSeconds minting.id minting.now

omit [Digest] in
theorem single_mintSession (provider : String) (minting : Minting) (user : User) :
    Single (mintSession provider minting user) := by
  refine single_bind (single_mapError _ (single_bind (single_atomic _) (fun _ => trivial))) ?_
  rintro ⟨session, cookie⟩
  trivial

omit [Digest] in
theorem run_mintSession (provider : String) (minting : Minting) (user : User) (s : AdminStore) :
    run (mintSession provider minting user) s =
      (.ok (.loggedIn (mintedSession provider minting user)),
        s.put (.session minting.token) (.session (mintedSession provider minting user))
          (s.ttlDeadline minting.ttlSeconds)) := by
  unfold mintSession createSession writeSession
  rw [run_bind, run_mapError, run_bind, run_setWithTtl]
  rfl

omit [Digest] in
/-- The last action of a login stores the session that it gives. -/
theorem earns_mintSession (v : Visit) (known : Set (String × Session)) (provider : String)
    (minting : Minting) (user : User) (mints : v.mints = some minting.token) :
    Earns HoldsGiven v.Gives v.Traced known (mintSession provider minting user) := by
  apply earns_single (single_mintSession provider minting user)
  intro more s _ holds
  let made := mintedSession provider minting user
  have grows : more ⊆ insert (minting.token, made) more := Set.subset_insert _ _
  have backed : GivenTo (insert (minting.token, made) more) minting.token made :=
    ⟨made, Set.mem_insert _ _, rfl, rfl⟩
  refine ⟨_, insert (minting.token, made) more, _, run_mintSession provider minting user s, grows,
    holdsGiven_put backed _ (holdsGiven_more _ _ s grows holds), ?_, ?_⟩
  · intro _ same most t _ _ session accepted
    cases same
    cases accepted
  · rintro f (rfl | before)
    · exact .inr ⟨.loggedIn made, rfl, mints, rfl⟩
    · exact .inl before

theorem earns_visit (v : Visit) (known : Set (String × Session)) :
    Earns HoldsGiven v.Gives v.Traced known v.program := by
  cases v with
  | localLogin email isAdmin id now minting =>
    refine earns_bind holdsGiven_more (fun _ _ _ _ => ?_)
      (fun user => earns_mintSession _ known "local" minting user rfl)
    exact given_of_acts (acts_mapError _ _
      (acts_upsertLocalUser (fun _ account => account) _ _ _ _))
  | oauthLogin provider subject email isAdmin id now minting =>
    refine earns_bind holdsGiven_more (fun _ _ _ _ => ?_)
      (fun user => earns_mintSession _ known provider minting user rfl)
    exact given_of_acts (acts_mapError _ _
      (acts_upsertOauthUser (fun _ account => account) _ _ _ _ _ _))
  | touch ttlSeconds cookie now =>
    refine earns_of_keeping holdsGiven_more (fun more s _ holds => ifOk_map ?_)
    refine ifOk_weaken (ifOk_mapError _ (given_touch holds ttlSeconds cookie now)) ?_
    exact fun _ _ _ _ _ wrong => by cases wrong
  | page sessions cookie now =>
    refine earns_of_keeping holdsGiven_more (fun more s _ holds => ifOk_map ?_)
    exact given_resolvedSession holds sessions cookie now
  | api sessions credentials now request =>
    refine earns_of_keeping holdsGiven_more (fun more s _ holds => ?_)
    refine keeping_bind holds (given_identify holds sessions credentials now) ?_
    rintro ⟨context, session⟩ t holds' presented
    refine keeping_bind holds' (ifOk_attempt (given_of_acts (acts_handle context request))) ?_
    exact fun _ u _ _ => keeping_answer presented

/-- The session that a login gave to a token, or that was stored under it at first. -/
def Stamped (first q : VisitPool) (token : String) (given : Session) : Prop :=
  first.shared.bytesAt (.session token) = some (.session given) ∨
    ∃ login ∈ q.tasks, login.request.mints = some token ∧
      login.prog.answer = some (.ok (.loggedIn given))

/-- Whatever session a visit is accepted for, its account and its stamp are those of a session
    that was given to the token of the visit's own cookie. -/
theorem accepted_stamped {first q : VisitPool} (start : visits.start first)
    (path : Run visits (fun _ _ => True) first q)
    {v : Launched Visit AdminStore UsersError VisitAnswer} (member : v ∈ q.tasks)
    {answer : VisitAnswer} (answers : v.prog.answer = some (.ok answer)) {session : Session}
    (accepted : answer.accepted = some session) :
    ∃ cookie token given, v.request.cookie = some cookie ∧ openCookie cookie = .ok token ∧
      Stamped first q token given ∧ given.userId = session.userId ∧
      given.epoch = session.epoch := by
  let stored : Set (String × Session) :=
    {f | first.shared.bytesAt (.session f.1) = some (.session f.2)}
  obtain ⟨⟨valid, _⟩, idle⟩ := start
  have earning : Earning HoldsGiven Visit.Gives Visit.Traced stored first := by
    refine ⟨⟨valid.kinded, ?_⟩, by simp [idle]⟩
    exact fun token session found => ⟨session, .inl found, rfl, rfl⟩
  have later := earning_run holdsGiven_more earns_visit
    (fun k _ _ => holdsGiven_vanish k) earning path
  obtain ⟨cookie, token, presented, opened, given, known, owner, stamp⟩ :=
    earning_answer later member answers session accepted
  refine ⟨cookie, token, given, presented, opened, ?_, owner, stamp⟩
  rcases known with before | ⟨login, inside, _, ended, mints, rfl⟩
  · exact .inl before
  · exact .inr ⟨login, inside, mints, ended⟩

end Visits

end WireMirage
