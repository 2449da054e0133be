import WireMirage.Naming
import WireMirage.Records
import WireMirage.Store.Bucket

/-!
The records of the admin bucket: users and their bearer tokens, and what the OAuth
server keeps of its clients, requests, codes and tokens.
-/
namespace WireMirage

structure User where
  id : String
  email : String
  isAdmin : Bool
  createdAt : Time
  sessionEpoch : Nat
  deriving DecidableEq, Repr

structure Token where
  id : String
  name : String
  ownerId : String
  hash : String
  createdAt : Time
  lastUsedAt : Option Time
  expiresAt : Option Time
  scopes : List String
  deriving DecidableEq, Repr

def fullAccessScopes : List String := ["*"]

inductive CredentialKind where
  | token
  | session
  deriving DecidableEq, Repr

structure AuthContext where
  userId : String
  userEmail : String
  isAdmin : Bool
  credentialKind : CredentialKind
  credentialId : String
  deriving DecidableEq, Repr

structure Session where
  id : String
  userId : String
  provider : String
  createdAt : Time
  lastSeenAt : Time
  expiresAt : Time
  ipFirstSeen : String
  userAgent : String
  epoch : Nat
  deriving DecidableEq, Repr

/-! The records of the OAuth server, each kept whole -/

structure OAuthClient where
  clientId : String
  clientSecretHash : String
  clientName : String
  redirectUris : List String
  grantTypes : List String
  responseTypes : List String
  tokenEndpointAuthMethod : String
  createdAt : Time
  lastUsedAt : Option Time
  revokedAt : Option Time
  deriving DecidableEq, Repr

structure PendingAuthorization where
  clientId : String
  redirectUri : String
  codeChallenge : String
  codeChallengeMethod : String
  scope : String
  originalState : Option String
  createdAt : Time
  deriving DecidableEq, Repr

structure AuthorizationCode where
  code : String
  clientId : String
  userId : String
  redirectUri : String
  scope : String
  codeChallenge : String
  codeChallengeMethod : String
  createdAt : Time
  usedAt : Option Time
  deriving DecidableEq, Repr

structure RefreshToken where
  tokenHash : String
  clientId : String
  userId : String
  scope : String
  createdAt : Time
  usedAt : Option Time
  revokedAt : Option Time
  deriving DecidableEq, Repr

structure AccessToken where
  tokenHash : String
  clientId : String
  userId : String
  scope : String
  createdAt : Time
  expiresAt : Time
  deriving DecidableEq, Repr

/-! Stored values -/

/-- Which dates `parse_from_rfc3339` reads back of those that `to_rfc3339` writes: the ones
    whose year has four digits. -/
class DateText where
  legible : Time → Bool

/-- `time` is the text of a date that can be read, as a reading of the clock is, and `farTime`
    that of a date past the year 9999. -/
inductive AdminVal where
  | text (s : String)
  | int (n : Int)
  | time (t : Time)
  | farTime (t : Time)
  | scopes (ss : List String)
  | session (r : Session)
  | client (r : OAuthClient)
  | pending (r : PendingAuthorization)
  | code (r : AuthorizationCode)
  | refresh (r : RefreshToken)
  | access (r : AccessToken)
  deriving DecidableEq

instance : Decimal AdminVal where
  parse
    | .int n => some n
    | _ => none
  canonical
    | .int n => some n
    | _ => none
  ofInt := .int

namespace AdminVal

def flag (b : Bool) : AdminVal := if b then .text "1" else .text "0"

/-- What `to_rfc3339` writes of a date that need not be a reading of the clock. -/
def date [DateText] (t : Time) : AdminVal :=
  if DateText.legible t then .time t else .farTime t

theorem date_legible [DateText] {t : Time} (legible : DateText.legible t) : date t = .time t :=
  if_pos legible

theorem date_far [DateText] {t : Time} (far : ¬ DateText.legible t) : date t = .farTime t :=
  if_neg far

def utf8 : AdminVal → Option String
  | .text s => some s
  | _ => none

def parseBelow (bound : Nat) : AdminVal → Option Nat
  | .int n => if 0 ≤ n ∧ n < bound then some n.toNat else none
  | _ => none

end AdminVal

/-! Keys -/

inductive AdminKey where
  | user (id : String)
  | userByEmail (email : String)
  | userByName (name : String)
  | userByIdentity (provider subject : String)
  | userAll
  | token (id : String)
  | tokenByHash (hash : String)
  | tokenByName (ownerId name : String)
  | tokenByOwner (ownerId : String)
  | session (token : String)
  | client (clientId : String)
  | pending (state : String)
  | code (code : String)
  | refresh (hash : String)
  | refreshByUser (userId : String)
  | access (hash : String)
  deriving DecidableEq, Repr

@[simp] def AdminKey.family : AdminKey → Option Kind
  | .user _ => some .hash
  | .userByEmail _ => some .bytes
  | .userByName _ => some .bytes
  | .userByIdentity _ _ => some .bytes
  | .userAll => some .set
  | .token _ => some .hash
  | .tokenByHash _ => some .bytes
  | .tokenByName _ _ => some .bytes
  | .tokenByOwner _ => some .set
  | .session _ => some .bytes
  | .client _ => some .hash
  | .pending _ => some .hash
  | .code _ => some .hash
  | .refresh _ => some .hash
  | .refreshByUser _ => some .set
  | .access _ => some .hash

instance : KeyKinds AdminKey where
  kindOf := AdminKey.family

@[simp] theorem kind_of_admin_key (k : AdminKey) : KeyKinds.kindOf k = k.family := rfl

abbrev AdminStore := Storage AdminKey AdminVal

/-! Errors -/

inductive AuthError where
  | storage (e : StoreError AdminKey)
  | notFound
  | nameTaken (name : String)
  | emailTaken (email : String)
  | malformed (msg : String)
  deriving DecidableEq, Repr

inductive OAuthStoreError where
  | storage (e : StoreError AdminKey)
  | malformed (msg : String)
  | notFound
  deriving DecidableEq, Repr

instance : FromStoreError AdminKey AuthError := ⟨.storage⟩
instance : FromStoreError AdminKey OAuthStoreError := ⟨.storage⟩

abbrev AuthProg (A : Type) := Prog AdminStore AuthError A
abbrev OAuthProg (A : Type) := Prog AdminStore OAuthStoreError A

/-! Decoding -/

/-- The text of a field, or the error that names it. -/
def userText (fields : Fields AdminVal) (name : String) : Except AuthError String :=
  match fields.lookup name with
  | none => .error (.malformed ("field " ++ name ++ " missing"))
  | some v =>
    match v.utf8 with
    | none => .error (.malformed ("field " ++ name ++ " not utf-8"))
    | some s => .ok s

def userTs : AdminVal → Except AuthError Time
  | .time t => .ok t
  | _ => .error (.malformed "timestamp")

def requiredUserTs (fields : Fields AdminVal) (name : String) : Except AuthError Time :=
  match fields.lookup name with
  | none => .error (.malformed ("field " ++ name ++ " missing"))
  | some v => userTs v

def optionalUserTs (fields : Fields AdminVal) (name : String) : Except AuthError (Option Time) :=
  match fields.lookup name with
  | none => .ok none
  | some v => (userTs v).map some

/-- The email, or the handle that records without one carry under `name`. -/
def decodeEmail (fields : Fields AdminVal) : Except AuthError String :=
  match fields.lookup "primary_email" with
  | some v =>
    match v.utf8 with
    | none => .error (.malformed "user.primary_email not utf-8")
    | some s => .ok s
  | none => userText fields "name"

def decodeSessionEpoch (fields : Fields AdminVal) : Except AuthError Nat :=
  match fields.lookup "session_epoch" with
  | none => .ok 0
  | some v =>
    match v.parseBelow u64Size with
    | none => .error (.malformed "user.session_epoch not a u64")
    | some n => .ok n

def decodeUser (fields : Fields AdminVal) : Except AuthError User := do
  let email ← decodeEmail fields
  let sessionEpoch ← decodeSessionEpoch fields
  let id ← userText fields "id"
  let isAdmin ← userText fields "is_admin"
  let createdAt ← requiredUserTs fields "created_at"
  return { id, email, isAdmin := isAdmin = "1", createdAt, sessionEpoch }

def decodeScopes (fields : Fields AdminVal) : Except AuthError (List String) :=
  match fields.lookup "scopes" with
  | none => .error (.malformed "field scopes missing")
  | some (.scopes ss) => .ok ss
  | some _ => .error (.malformed "field scopes not utf-8")

def decodeToken (fields : Fields AdminVal) : Except AuthError Token := do
  let expiresAt ← optionalUserTs fields "expires_at"
  let lastUsedAt ← optionalUserTs fields "last_used_at"
  let scopes ← decodeScopes fields
  let id ← userText fields "id"
  let name ← userText fields "name"
  let ownerId ← userText fields "owner_id"
  let hash ← userText fields "hash"
  let createdAt ← requiredUserTs fields "created_at"
  return { id, name, ownerId, hash, createdAt, lastUsedAt, expiresAt, scopes }

end WireMirage
