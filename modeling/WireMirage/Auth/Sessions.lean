import WireMirage.Auth.Operations

/-!
Browser sessions. A cookie is a token with its signature, and the stored session
carries the epoch its user had when it was minted.
-/
namespace WireMirage

inductive SessionError where
  | storage (e : StoreError AdminKey)
  | notFound
  | malformed (msg : String)
  | invalidCookie
  | signatureMismatch
  deriving DecidableEq, Repr

instance : FromStoreError AdminKey SessionError := ⟨.storage⟩

abbrev SessionProg (A : Type) := Prog AdminStore SessionError A

/-- The keyed signature of a session token, under the secret of the deployment. -/
class Signing where
  signature : String → String

/-- The texts before and after the first occurrence of a separator. -/
def splitOnce (sep : Char) (s : String) : Option (String × String) :=
  match s.toList.dropWhile (· ≠ sep) with
  | [] => none
  | _ :: after => some (String.ofList (s.toList.takeWhile (· ≠ sep)), String.ofList after)

section Sessions
variable [Signing]

def signCookie (token : String) : String := token ++ "." ++ Signing.signature token

/-- The token of a cookie whose signature verifies. -/
def openCookie (cookie : String) : Except SessionError String :=
  match splitOnce '.' cookie with
  | none => .error .invalidCookie
  | some (token, signature) =>
    if Signing.signature token = signature then .ok token else .error .signatureMismatch

def writeSession (ttlSeconds : Nat) (token : String) (session : Session) : SessionProg Unit :=
  Bucket.setWithTtl (.session token) (.session session) ttlSeconds

def readSession (token : String) : SessionProg Session := do
  match ← Bucket.get (.session token) with
  | none => Prog.fail .notFound
  | some (.session session) => return session
  | some _ => Prog.fail (.malformed "decode")

def deleteSession (token : String) : SessionProg Unit := Bucket.delete (.session token)

structure NewSession where
  userId : String
  provider : String
  ipFirstSeen : String
  userAgent : String
  epoch : Nat

def newSession (params : NewSession) (ttlSeconds : Nat) (id : String) (now : Time) : Session where
  id := id
  userId := params.userId
  provider := params.provider
  createdAt := now
  lastSeenAt := now
  expiresAt := now + ttlSeconds
  ipFirstSeen := params.ipFirstSeen
  userAgent := params.userAgent
  epoch := params.epoch

def createSession (params : NewSession) (ttlSeconds : Nat) (token id : String) (now : Time) :
    SessionProg (Session × String) := do
  let session := newSession params ttlSeconds id now
  writeSession ttlSeconds token session
  return (session, signCookie token)

/-- The session of a token, unless it is past its end; then it is deleted where that works. -/
def liveSession (token : String) (now : Time) : SessionProg Session := do
  let session ← readSession token
  if session.expiresAt < now then do
    let _ ← Prog.attempt (deleteSession token)
    Prog.fail .notFound
  else return session

def validate (cookie : String) (now : Time) : SessionProg Session := do
  let token ← Prog.ofExcept (openCookie cookie)
  liveSession token now

def touch (ttlSeconds : Nat) (cookie : String) (now : Time) : SessionProg Session := do
  let token ← Prog.ofExcept (openCookie cookie)
  let session ← liveSession token now
  let session := { session with lastSeenAt := now, expiresAt := now + ttlSeconds }
  writeSession ttlSeconds token session
  return session

def deleteByCookie (cookie : String) : SessionProg Unit :=
  match splitOnce '.' cookie with
  | none => Prog.fail .invalidCookie
  | some (token, _) => deleteSession token

end Sessions

/-! Reading a session -/

section Reading
open Prog

theorem single_readSession (token : String) : Single (readSession token) := by
  apply single_bind (single_atomic _)
  rintro (_ | v)
  · trivial
  · cases v <;> trivial

theorem run_readSession (token : String) (s : AdminStore) :
    ∃ r, run (readSession token) s = (r, s) := by
  unfold readSession
  rw [run_bind, Bucket.get, run_command]
  have same : (Storage.get (.session token) s).2 = s := by
    unfold Storage.get
    split <;> rfl
  rw [same]
  cases (Storage.get (.session token) s).1 with
  | error e => exact ⟨_, rfl⟩
  | ok v =>
    rcases v with _ | v
    · exact ⟨_, rfl⟩
    · cases v <;> exact ⟨_, rfl⟩

end Reading

end WireMirage
