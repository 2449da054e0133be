import WireMirage.OAuth.Operations
import WireMirage.Auth.Writes

/-!
Who a request of the API comes from, and the requests that change accounts. An error is
kept as what its message is made of.
-/
namespace WireMirage

inductive UsersError where
  | unauthorized (message : String)
  | forbidden (message : String)
  | validation (message : String)
  | notFound
  /-- The account to delete owns routes. -/
  | ownsRoutes (owned : Nat)
  | auth (e : AuthError)
  | internal (message : String)
  deriving DecidableEq, Repr

abbrev Users (A : Type) := Prog AdminStore UsersError A

def viaAuth {A : Type} (p : AuthProg A) : Users A := Prog.mapError .auth p

/-- What a request presents: the text of its authorization header, where the header is there
    and where it is text, and the value of its session cookie. -/
structure Credentials where
  authorization : Option (Option String)
  cookie : Option String

def bearerToken (header : Option String) : Except UsersError String :=
  match header with
  | none => .error (.unauthorized "Authorization header is not valid ASCII")
  | some raw =>
    match stripPrefix "Bearer " raw with
    | none => .error (.unauthorized "expected `Bearer wmt_...` scheme")
    | some token => .ok (trim token)

section Requests
variable [Digest] [Signing]

def bearerContext (header : Option String) (now : Time) : Users AuthContext := do
  let token ← Prog.ofExcept (bearerToken header)
  match ← Prog.mapError (fun _ => .internal "auth lookup") (authenticate token now) with
  | none => Prog.fail (.unauthorized "invalid or expired token")
  | some context => return context

/-- The session of a cookie and its account, where the stamp of the session is the account's. -/
def sessionContext (ttlSeconds : Nat) (cookie : String) (now : Time) :
    Users (AuthContext × Session) := do
  let session ← Prog.mapError (fun _ => .unauthorized "invalid or expired session")
    (touch ttlSeconds cookie now)
  let user ← Prog.mapError (fun _ => .unauthorized "session refers to a deleted user")
    (getUserById session.userId)
  if session.epoch ≠ user.sessionEpoch then Prog.fail (.unauthorized "session revoked")
  else return (⟨user.id, user.email, user.isAdmin, .session, session.id⟩, session)

/-- Who a request comes from, with the session that says so where one does. -/
def identify (sessions : Option Nat) (credentials : Credentials) (now : Time) :
    Users (AuthContext × Option Session) :=
  match credentials.authorization with
  | some header => do
    let context ← bearerContext header now
    return (context, none)
  | none =>
    match sessions, credentials.cookie with
    | some ttlSeconds, some cookie => do
      let (context, session) ← sessionContext ttlSeconds cookie now
      return (context, some session)
    | _, _ => Prog.fail (.unauthorized "missing Authorization header or session cookie")

/-- The extractor of the context of a request. -/
def fromRequestParts (sessions : Option Nat) (credentials : Credentials) (now : Time) :
    Users AuthContext := Prod.fst <$> identify sessions credentials now

end Requests

def requireAdmin (auth : AuthContext) : Except UsersError Unit :=
  if auth.isAdmin then .ok () else .error (.forbidden "admin role required")

def readUsers : List String → AuthProg (List User)
  | [] => return []
  | id :: rest => do
    let read ← readUserById id
    let users ← readUsers rest
    return read.toList ++ users

def listUsers : AuthProg (List User) := do
  let ids ← Bucket.setMembers .userAll
  readUsers ids

def countAdmins : AuthProg Nat := do
  let users ← listUsers
  return (users.filter User.isAdmin).length

def selectedUser (selector : String) : Users User := do
  match ← viaAuth (getUserByEmail selector) with
  | none => Prog.fail .notFound
  | some user => return user

/-- The last admin is neither demoted nor deleted. -/
def sparesLastAdmin (user : User) (message : String) : Users Unit :=
  if user.isAdmin then do
    let admins ← viaAuth countAdmins
    if admins ≤ 1 then Prog.fail (.forbidden message) else return ()
  else return ()

def patchUser (auth : AuthContext) (selector : String) (isAdmin : Option Bool) : Users User := do
  Prog.ofExcept (requireAdmin auth)
  let user ← selectedUser selector
  match isAdmin with
  | none => Prog.fail (.validation
      "PATCH body must include `is_admin` (the only mutable field today)")
  | some targetAdmin => do
    if ¬ targetAdmin then
      sparesLastAdmin user "cannot demote the last admin; promote another user first"
    viaAuth (setUserAdmin user.id targetAdmin)

/-- How many routes the account owns is read from the registry. -/
def deleteUserRequest (auth : AuthContext) (selector : String)
    (listRoutesByOwner : Except UsersError Nat) : Users Unit := do
  Prog.ofExcept (requireAdmin auth)
  let user ← selectedUser selector
  if user.id = auth.userId then
    Prog.fail (.forbidden "an admin cannot delete themselves; ask another admin")
  else do
    sparesLastAdmin user "cannot delete the last admin; promote another user first"
    match listRoutesByOwner with
    | .error e => Prog.fail e
    | .ok owned =>
      if owned ≠ 0 then Prog.fail (.ownsRoutes owned)
      else viaAuth (deleteUser user.id)

/-- Sign out everywhere. -/
def revokeAllMySessions (auth : AuthContext) : Users Nat := viaAuth (bumpSessionEpoch auth.userId)

/-! Counting admins only reads -/

section Reading
open Prog
variable {ok : Command AdminKey AdminVal → Prop}

theorem acts_readUsers (ids : List String) : Acts ok (readUsers ids) := by
  induction ids with
  | nil => trivial
  | cons id rest ih =>
    exact acts_bind _ _ (acts_readUserById id) fun _ => acts_bind _ _ ih fun _ => trivial

theorem acts_countAdmins : Acts ok countAdmins := by
  refine acts_bind _ _ (acts_bind _ _ (acts_setMembers rfl) fun ids => acts_readUsers ids) ?_
  exact fun _ => trivial

theorem acts_sparesLastAdmin (user : User) (message : String) :
    Acts ok (sparesLastAdmin user message) := by
  unfold sparesLastAdmin
  split
  · refine acts_bind _ _ (acts_mapError _ _ acts_countAdmins) fun admins => ?_
    split <;> trivial
  · trivial

end Reading

end WireMirage
