import WireMirage.Library.Pool
import WireMirage.OAuth.Operations
import WireMirage.Store.Expiry

/-!
Requests of a session that run into its logout, one storage step at a time. A touch reads
the session and writes it back whole.
-/
namespace WireMirage
open Prog StepMachine

inductive SessionRequest where
  | touch (ttlSeconds : Nat) (cookie : String) (now : Time)
  | validate (cookie : String) (now : Time)
  | logout (cookie : String)

/-- How far a request has come; a touch is a validation that renews what it read. -/
inductive SessionTask where
  | reading (renews : Option Nat) (token : String) (now : Time)
  | reaping (token : String)
  | renewing (ttlSeconds : Nat) (token : String) (session : Session)
  | leaving (token : String)
  | left (token : String)
  | finished
  deriving DecidableEq

def renewed (session : Session) (ttlSeconds : Nat) (now : Time) : Session :=
  { session with lastSeenAt := now, expiresAt := now + ttlSeconds }

section Requests
variable [Signing]

def SessionRequest.program : SessionRequest → SessionProg Unit
  | touch ttlSeconds cookie now => settle (WireMirage.touch ttlSeconds cookie now)
  | validate cookie now => settle (WireMirage.validate cookie now)
  | logout cookie => settle (deleteByCookie cookie)

def SessionRequest.launch : SessionRequest → SessionTask
  | touch ttlSeconds cookie now =>
    match openCookie cookie with
    | .error _ => .finished
    | .ok token => .reading (some ttlSeconds) token now
  | validate cookie now =>
    match openCookie cookie with
    | .error _ => .finished
    | .ok token => .reading none token now
  | logout cookie =>
    match splitOnce '.' cookie with
    | none => .finished
    | some (token, _) => .leaving token

end Requests

namespace SessionTask

/-- What is left of a touch, and of a validation, once the session is read. -/
def renew (renews : Option Nat) (token : String) (now : Time) (session : Session) :
    SessionProg Session :=
  match renews with
  | none => return session
  | some ttlSeconds => do
    let session := renewed session ttlSeconds now
    writeSession ttlSeconds token session
    return session

def code : SessionTask → SessionProg Unit
  | reading renews token now => settle (liveSession token now >>= renew renews token now)
  | reaping token =>
    settle (attempt (deleteSession token) >>= fun _ => (Prog.fail .notFound : SessionProg Session))
  | renewing ttlSeconds token session => settle (writeSession ttlSeconds token session)
  | leaving token => settle (deleteSession token)
  | left _ => .done ()
  | finished => .done ()

/-- Where a request goes with the session it has read. -/
def afterRead (renews : Option Nat) (token : String) (now : Time) (session : Session) :
    SessionTask :=
  if session.expiresAt < now then .reaping token
  else match renews with
    | none => .finished
    | some ttlSeconds => .renewing ttlSeconds token (renewed session ttlSeconds now)

def step : SessionTask → AdminStore → Option (SessionTask × AdminStore)
  | reading renews token now, s =>
    match (run (readSession token) s).1 with
    | .error _ => some (.finished, s)
    | .ok session => some (afterRead renews token now session, s)
  | reaping token, s => some (.finished, s.erase (.session token))
  | renewing ttlSeconds token session, s =>
    some (.finished, s.put (.session token) (.session session) (s.ttlDeadline ttlSeconds))
  | leaving token, s => some (.left token, s.erase (.session token))
  | left _, _ => none
  | finished, _ => none

end SessionTask

section Steps
variable [Signing]

theorem session_launch_code (r : SessionRequest) : r.launch.code = r.program := by
  cases r with
  | touch ttlSeconds cookie now =>
    simp only [SessionRequest.launch, SessionRequest.program, touch]
    cases openCookie cookie <;> rfl
  | validate cookie now =>
    simp only [SessionRequest.launch, SessionRequest.program, validate]
    cases openCookie cookie with
    | error e => rfl
    | ok token => exact congrArg settle (bind_pure (liveSession token now))
  | logout cookie =>
    simp only [SessionRequest.launch, SessionRequest.program, deleteByCookie]
    rcases splitOnce '.' cookie with _ | ⟨token, signature⟩ <;> rfl

omit [Signing] in
theorem afterRead_code (renews : Option Nat) (token : String) (now : Time) (session : Session) :
    (SessionTask.afterRead renews token now session).code =
      settle ((if session.expiresAt < now then do
          let _ ← attempt (deleteSession token)
          Prog.fail .notFound
        else pure session : SessionProg Session) >>= SessionTask.renew renews token now) := by
  unfold SessionTask.afterRead
  by_cases past : session.expiresAt < now
  · rw [if_pos past, if_pos past, bind_assoc]
    rfl
  · rw [if_neg past, if_neg past]
    cases renews with
    | none => rfl
    | some ttlSeconds =>
      exact (settle_bind_pure (writeSession ttlSeconds token (renewed session ttlSeconds now))
        (fun _ => renewed session ttlSeconds now)).symm

omit [Signing] in
/-- The positions follow the programs step by step. -/
theorem session_agree (t : SessionTask) (s : AdminStore) :
    Prog.step t.code s = (t.step s).map (fun b => (b.1.code, b.2)) := by
  cases t with
  | reading renews token now =>
    obtain ⟨r, ran⟩ := run_readSession token s
    have opened : SessionTask.code (.reading renews token now) =
        settle (readSession token >>= fun session =>
          ((if session.expiresAt < now then do
              let _ ← attempt (deleteSession token)
              Prog.fail .notFound
            else pure session : SessionProg Session) >>= SessionTask.renew renews token now)) := by
      simp only [SessionTask.code, liveSession, bind_assoc]
    rw [opened]
    cases r with
    | error e =>
      simp only [SessionTask.step, ran, Option.map_some]
      exact step_settle_error (single_readSession token) _ ran
    | ok session =>
      simp only [SessionTask.step, ran, Option.map_some, afterRead_code]
      exact step_settle_ok (single_readSession token) _ ran
  | reaping token => rfl
  | renewing ttlSeconds token session =>
    simp only [SessionTask.step, Option.map_some, SessionTask.code]
    rw [← bind_pure (writeSession ttlSeconds token session)]
    exact step_settle_ok (single_atomic _) _ (run_setWithTtl _ _)
  | leaving token => rfl
  | left token => rfl
  | finished => rfl

end Steps

/-! The pool -/

abbrev SessionPool := Pool AdminStore SessionTask Unit

/-- Requests over any store, while time passes. -/
def sessionWork [Signing] : Work AdminStore SessionTask Unit SessionRequest Nat where
  begin r _ := some (r.launch, ())
  step := SessionTask.step
  outside seconds s := s.advance seconds

abbrev sessions [Signing] : Machine SessionPool (PoolAction SessionRequest Nat) :=
  pool sessionWork (fun _ _ => True)

/-- Every run of the requests' programs is a run of their positions. -/
theorem sessions_programs [Signing] {starts : AdminStore → Unit → Prop} {p : SessionPool}
    {P Q : Pool AdminStore (SessionProg Unit) Unit}
    (path : Run (pool (programs (fun r _ => some (SessionRequest.program r, ()))
      (fun seconds s => Storage.advance seconds s)) starts) (fun _ _ => True) P Q)
    (first : P = ⟨p.shared, p.tasks.map SessionTask.code, p.log⟩) :
    ∃ q : SessionPool, Q = ⟨q.shared, q.tasks.map SessionTask.code, q.log⟩ ∧
      Run (pool sessionWork starts) (fun _ _ => True) p q := by
  apply run_programs SessionTask.code session_agree _ first
  simpa only [sessionWork, Option.map_some, session_launch_code] using path

/-- The token of a cookie that a request has opened. -/
def SessionTask.opens : SessionTask → Option String
  | reading _ token _ => some token
  | reaping token => some token
  | renewing _ token _ => some token
  | _ => none

section Logout
variable [Signing]

/-- Once its logout has finished, no cookie of a session is accepted. -/
def LoggedOut (p : SessionPool) : Prop :=
  ∀ token, .left token ∈ p.tasks → ∀ cookie now, openCookie cookie = .ok token →
    ∃ e, (run (validate cookie now) p.shared).1 = .error e

omit [Signing] in
/-- A touch writes its session back only while no logout of the session has finished. -/
def renewsHeld (p : SessionPool) : PoolAction SessionRequest Nat → Bool
  | .resume i =>
    match p.tasks[i]? with
    | some (.renewing _ token _) => SessionTask.left token ∉ p.tasks
    | _ => true
  | _ => true

structure SessionsGone (p : SessionPool) : Prop where
  gone : ∀ token, .left token ∈ p.tasks → p.shared.lookup (.session token) = none
  opened : ∀ t ∈ p.tasks, ∀ token, t.opens = some token → ∃ cookie, openCookie cookie = .ok token

theorem launch_opens {r : SessionRequest} {token : String} (opens : r.launch.opens = some token) :
    ∃ cookie, openCookie cookie = .ok token := by
  cases r with
  | touch ttlSeconds cookie now =>
    simp only [SessionRequest.launch] at opens
    cases answer : openCookie cookie with
    | error e => simp [answer, SessionTask.opens] at opens
    | ok held =>
      simp only [answer, SessionTask.opens, Option.some.injEq] at opens
      exact ⟨cookie, opens ▸ answer⟩
  | validate cookie now =>
    simp only [SessionRequest.launch] at opens
    cases answer : openCookie cookie with
    | error e => simp [answer, SessionTask.opens] at opens
    | ok held =>
      simp only [answer, SessionTask.opens, Option.some.injEq] at opens
      exact ⟨cookie, opens ▸ answer⟩
  | logout cookie =>
    simp only [SessionRequest.launch] at opens
    split at opens <;> cases opens

theorem launch_not_left (r : SessionRequest) (token : String) : r.launch ≠ .left token := by
  cases r with
  | touch ttlSeconds cookie now =>
    simp only [SessionRequest.launch]
    split <;> simp
  | validate cookie now =>
    simp only [SessionRequest.launch]
    split <;> simp
  | logout cookie =>
    simp only [SessionRequest.launch]
    split <;> simp

omit [Signing] in
/-- All that a step of a request can do to the sessions. -/
theorem session_step {t u : SessionTask} {s s' : AdminStore} (taken : t.step s = some (u, s')) :
    (∃ token, t = .leaving token ∧ u = .left token ∧ s' = s.erase (.session token)) ∨
    ((∀ token, u ≠ .left token) ∧ (∀ token, u.opens = some token → t.opens = some token) ∧
      ((s' = s ∨ ∃ token, s' = s.erase (.session token)) ∨
        ∃ ttlSeconds token session, t = .renewing ttlSeconds token session ∧
          s' = s.put (.session token) (.session session) (s.ttlDeadline ttlSeconds))) := by
  cases t with
  | reading renews token now =>
    simp only [SessionTask.step] at taken
    split at taken
    · cases taken
      exact .inr ⟨nofun, nofun, .inl (.inl rfl)⟩
    · cases taken
      refine .inr ⟨?_, ?_, .inl (.inl rfl)⟩
      · intro token'
        unfold SessionTask.afterRead
        split
        · simp
        · split <;> simp
      · intro token' opens
        unfold SessionTask.afterRead at opens
        split at opens
        · exact opens
        · split at opens
          · cases opens
          · exact opens
  | reaping token =>
    cases taken
    exact .inr ⟨nofun, nofun, .inl (.inr ⟨token, rfl⟩)⟩
  | renewing ttlSeconds token session =>
    cases taken
    exact .inr ⟨nofun, nofun, .inr ⟨ttlSeconds, token, session, rfl, rfl⟩⟩
  | leaving token =>
    cases taken
    exact .inl ⟨token, rfl, rfl, rfl⟩
  | left token => cases taken
  | finished => cases taken

theorem sessionsGone_step {p q : SessionPool} {a : PoolAction SessionRequest Nat}
    (inv : SessionsGone p) (held : renewsHeld p a = true) (next : sessions.step p a = some q) :
    SessionsGone q := by
  obtain ⟨gone, opened⟩ := inv
  rcases pool_cases next with ⟨r, t, l, rfl, begun, rfl⟩ | ⟨i, t, u, s, rfl, found, taken, rfl⟩ |
    ⟨seconds, rfl, rfl⟩
  · cases begun
    constructor
    · intro token member
      rcases List.mem_append.mp member with old | new
      · exact gone token old
      · exact absurd (List.mem_singleton.mp new).symm (launch_not_left r token)
    · intro t member token opens
      rcases List.mem_append.mp member with old | new
      · exact opened t old token opens
      · rw [List.mem_singleton.mp new] at opens
        exact launch_opens opens
  · have erased : ∀ token token', p.shared.lookup (.session token) = none →
        (p.shared.erase (.session token')).lookup (.session token) = none := by
      intro token token' absent
      rw [Storage.lookup_erase, absent, ite_self]
    rcases session_step taken with ⟨token, rfl, rfl, rfl⟩ | ⟨notLeft, opens, change⟩
    · constructor
      · intro token' member
        rcases mem_moved found member with same | ⟨old, _⟩
        · cases same
          rw [Storage.lookup_erase, if_pos rfl]
        · exact erased token' token (gone token' old)
      · intro v member token' opens
        rcases mem_moved found member with rfl | ⟨old, _⟩
        · cases opens
        · exact opened v old token' opens
    · constructor
      · intro token member
        have old : SessionTask.left token ∈ p.tasks := by
          rcases mem_moved found member with same | ⟨old, _⟩
          · exact absurd same.symm (notLeft token)
          · exact old
        rcases change with (rfl | ⟨token', rfl⟩) | ⟨ttlSeconds, token', session, rfl, rfl⟩
        · exact gone token old
        · exact erased token token' (gone token old)
        · have other : token ≠ token' := by
            rintro rfl
            simp only [renewsHeld, found, decide_eq_true_eq] at held
            exact held old
          rw [Storage.put, Storage.lookup_replace, if_neg (by simp [other])]
          exact gone token old
      · intro v member token opens'
        rcases mem_moved found member with rfl | ⟨old, _⟩
        · exact opened t (List.mem_of_getElem? found) token (opens token opens')
        · exact opened v old token opens'
  · constructor
    · intro token member
      show (p.shared.advance seconds).lookup _ = none
      rw [Storage.lookup_advance, gone token member, ite_self]
    · exact opened

theorem run_validate {cookie token : String} (opens : openCookie cookie = .ok token) (now : Time)
    (s : AdminStore) : run (validate cookie now) s = run (liveSession token now) s := by
  unfold validate
  rw [opens]
  rfl

theorem loggedOut_of_gone {p : SessionPool} (inv : SessionsGone p) : LoggedOut p := by
  intro token member cookie now opens
  refine ⟨.notFound, ?_⟩
  have read : run (readSession token) p.shared = (.error .notFound, p.shared) := by
    unfold readSession
    rw [run_bind, Bucket.get, run_command]
    simp only [Storage.get, inv.gone token member]
    rfl
  rw [run_validate opens, liveSession, run_bind, read]
  rfl

omit [Signing] in
theorem read_written (s : AdminStore) (token : String) (session : Session)
    (deadline : Option Nat) :
    run (readSession token) (s.put (.session token) (.session session) deadline) =
      (.ok session, s.put (.session token) (.session session) deadline) := by
  unfold readSession
  rw [run_bind, Bucket.get, run_command]
  simp only [Storage.get, Storage.put, Storage.lookup_replace, if_true]
  rfl

/-- A session that is written back after its logout is accepted until its new end. -/
theorem accepted_after {p q : SessionPool} (inv : SessionsGone p) {i : Nat}
    (late : renewsHeld p (.resume i) = false) (next : sessions.step p (.resume i) = some q) :
    ¬ LoggedOut q := by
  rcases pool_cases next with ⟨_, _, _, wrong, _⟩ | ⟨j, t, u, s, same, found, taken, rfl⟩ |
    ⟨_, wrong, _⟩
  · cases wrong
  · cases same
    cases t with
    | renewing ttlSeconds token session =>
      simp only [renewsHeld, found, decide_eq_false_iff_not, not_not] at late
      cases taken
      obtain ⟨cookie, opens⟩ := inv.opened _ (List.mem_of_getElem? found) token rfl
      intro loggedOut
      have stays : SessionTask.left token ∈ p.tasks.set i .finished := by
        rcases mem_stays found late .finished with wrong | stays
        · cases wrong
        · exact stays
      obtain ⟨e, refused⟩ := loggedOut token stays cookie session.expiresAt opens
      rw [run_validate opens, liveSession, run_bind, read_written, andThen_ok,
        if_neg (Nat.lt_irrefl _)] at refused
      cases refused
    | _ => simp [renewsHeld, found] at late
  · cases wrong

/-- After the logout of a session its cookie is refused, in every run whose touches write the
    session back before that; and the first touch that does so later brings it back. -/
theorem logout_durable (p : SessionPool)
    (reached : Reached sessions (fun p a => renewsHeld p a) p) :
    LoggedOut p ∧ ∀ i q, renewsHeld p (.resume i) = false →
      sessions.step p (.resume i) = some q → ¬ LoggedOut q := by
  have inv : SessionsGone p := by
    refine reached_invariant ?_ (fun _ _ _ before held next => sessionsGone_step before held next)
      reached
    rintro ⟨shared, tasks, log⟩ ⟨_, idle⟩
    cases idle
    exact ⟨nofun, nofun⟩
  exact ⟨loggedOut_of_gone inv, fun i q late next => accepted_after inv late next⟩

end Logout

namespace Sample

def login : NewSession := ⟨ann, "github", "203.0.113.7", "Firefox", 0⟩

def annSession : Session := newSession login 3600 tokenId 0

/-- The store of a user who is logged in. -/
def openSession : AdminStore :=
  (Storage.empty .valkey).put (.session sessionToken) (.session annSession) none

/-- A page request and the logout of its session. -/
def leaves : List (PoolAction SessionRequest Nat) :=
  [.launch (.touch 3600 (signCookie sessionToken) 5), .launch (.logout (signCookie sessionToken))]

end Sample

open Sample in
theorem logout_durable_after : ∃ p : SessionPool,
    p.tasks = [.finished, .left sessionToken] ∧ LoggedOut p := by
  have ran : (exec (guarded sessions renewsHeld) ⟨openSession, [], ()⟩
      (leaves ++ List.replicate 2 (.resume 0) ++ [.resume 1])).map Pool.tasks =
      some [.finished, .left sessionToken] := by
    decide +kernel
  obtain ⟨p, done, tasks⟩ := Option.map_eq_some_iff.mp ran
  have reached := reached_of_guarded (m := sessions) _ ⟨trivial, rfl⟩ done
  exact ⟨p, tasks, (logout_durable p reached).1⟩

open Sample in
/-- A touch that has read the session before its logout writes it back after. -/
theorem logout_undone : ∃ p : SessionPool, Reached sessions (fun _ _ => True) p ∧
    p.tasks = [.finished, .left sessionToken] ∧ ¬ LoggedOut p := by
  have ran : (exec sessions ⟨openSession, [], ()⟩
      (leaves ++ [.resume 0, .resume 1, .resume 0])).map (fun p => (p.tasks,
        (run (validate (signCookie sessionToken) 6) p.shared).1.toOption.isSome)) =
      some ([SessionTask.finished, .left sessionToken], true) := by
    decide +kernel
  obtain ⟨p, done, shape⟩ := Option.map_eq_some_iff.mp ran
  obtain ⟨tasks, accepted⟩ := Prod.mk.inj shape
  refine ⟨p, reached_of_exec (m := sessions) _ ⟨trivial, rfl⟩ done, tasks, ?_⟩
  intro loggedOut
  have left : SessionTask.left sessionToken ∈ p.tasks := by rw [tasks]; simp
  obtain ⟨e, refused⟩ := loggedOut sessionToken left (signCookie sessionToken) 6 (by rfl)
  rw [refused] at accepted
  cases accepted

end WireMirage
