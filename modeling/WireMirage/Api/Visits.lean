import WireMirage.Api.Users
import WireMirage.Auth.SignUps

/-!
Visits: logins, touches of a session, pages of the OAuth server and requests to the API, each
the program that the handler is, any number of them at once.
-/
namespace WireMirage
open Prog StepMachine

/-! Requests -/

/-- What a login draws and takes from the request that makes its session. -/
structure Minting where
  ipFirstSeen : String
  userAgent : String
  ttlSeconds : Nat
  token : String
  id : String
  now : Time

inductive ApiRequest where
  | getMe
  | patchUser (selector : String) (isAdmin : Option Bool)
  | revokeAllMySessions

inductive ApiResponse where
  | user (user : User)
  | revoked (epoch : Nat)

def ApiRequest.handle (auth : AuthContext) : ApiRequest → Users ApiResponse
  | getMe => .user <$> viaAuth (getUserById auth.userId)
  | patchUser selector isAdmin => .user <$> WireMirage.patchUser auth selector isAdmin
  | revokeAllMySessions => .revoked <$> WireMirage.revokeAllMySessions auth

inductive Visit where
  | localLogin (email : String) (isAdmin : Bool) (id : String) (now : Time) (minting : Minting)
  | oauthLogin (provider subject email : String) (isAdmin : Bool) (id : String) (now : Time)
      (minting : Minting)
  | touch (ttlSeconds : Nat) (cookie : String) (now : Time)
  | page (sessions : Option Nat) (cookie : Option String) (now : Time)
  | api (sessions : Option Nat) (credentials : Credentials) (now : Time) (request : ApiRequest)

/-- What a visit ends with, and the session it was accepted for where there is one. -/
inductive VisitAnswer where
  | loggedIn (session : Session)
  | touched (session : Session)
  | page (session : Option Session)
  | api (context : AuthContext) (session : Option Session)
    (response : Except UsersError ApiResponse)

/-- The session that the extractor or a page has accepted. -/
def VisitAnswer.accepted : VisitAnswer → Option Session
  | page session => session
  | api _ session _ => session
  | _ => none

section Programs
variable [Digest] [Signing]

def resolvedSession {Err : Type} (sessions : Option Nat) (cookie : Option String) (now : Time) :
    Prog AdminStore Err (Option Session) :=
  match sessions, cookie with
  | some ttl, some cookie => do
    match ← Prog.outcome (touch ttl cookie now) with
    | .error _ => return none
    | .ok session =>
      match ← Prog.outcome (getUserById session.userId) with
      | .error _ => return none
      | .ok user =>
        if session.epoch ≠ user.sessionEpoch then return none
        else return some session
  | _, _ => return none

omit [Digest] in
/-- The pages of the OAuth server see whose session it is. -/
theorem resolveSessionUser_eq (sessions : Option Nat) (cookie : Option String) (now : Time) :
    resolveSessionUser sessions cookie now =
      (resolvedSession sessions cookie now >>=
        fun session => pure (session.map Session.userId)) := by
  unfold resolveSessionUser resolvedSession
  rcases sessions with _ | ttl
  · rfl
  · rcases cookie with _ | cookie
    · rfl
    · simp only [bind_assoc]
      congr 1
      funext touched
      cases touched with
      | error e => rfl
      | ok session =>
        simp only [sessionUser, bind_assoc]
        congr 1
        funext read
        cases read with
        | error e => rfl
        | ok user =>
          by_cases stale : session.epoch ≠ user.sessionEpoch
          · simp [stale]
            rfl
          · simp [stale]
            rfl

omit [Digest] in
/-- A login mints a session for its account, stamped with the epoch that was read. -/
def mintSession (provider : String) (minting : Minting) (user : User) : Users VisitAnswer := do
  let (session, _) ← Prog.mapError (fun _ => UsersError.internal "session create")
    (createSession ⟨user.id, provider, minting.ipFirstSeen, minting.userAgent, user.sessionEpoch⟩
      minting.ttlSeconds minting.token minting.id minting.now)
  return .loggedIn session

def Visit.program : Visit → Users VisitAnswer
  | localLogin email isAdmin id now minting => do
    let user ← viaAuth (upsertLocalUser email isAdmin id now)
    mintSession "local" minting user
  | oauthLogin provider subject email isAdmin id now minting => do
    let user ← viaAuth (upsertOauthUser provider subject email isAdmin id now)
    mintSession provider minting user
  | touch ttlSeconds cookie now =>
    .touched <$> Prog.mapError (fun _ => UsersError.unauthorized "invalid or expired session")
      (WireMirage.touch ttlSeconds cookie now)
  | page sessions cookie now => .page <$> resolvedSession sessions cookie now
  | api sessions credentials now request => do
    let (context, session) ← identify sessions credentials now
    let response ← Prog.attempt (request.handle context)
    return .api context session response

end Programs

/-- The id a login draws for an account it may make. -/
def Visit.id : Visit → Option String
  | localLogin _ _ id _ _ => some id
  | oauthLogin _ _ _ _ id _ _ => some id
  | _ => none

section Machine
variable [Digest] [Signing]

abbrev VisitPool := Pool AdminStore (Launched Visit AdminStore UsersError VisitAnswer) (List String)

/-- Visits over any store whose accounts are whole, each login with an id of its own. -/
def visits : Machine VisitPool (PoolAction Visit AdminKey) :=
  pool (namedWork Visit.id Visit.program vanish)
    (fun s drawn => SignUpsValid s ∧ ∀ x, x ∉ drawn → s.hashAt (.user x) = ∅ ∧ ¬ Claimed s x)

end Machine

end WireMirage
