import WireMirage.Auth.Records

/-!
Accounts and bearer tokens, each operation as the sequence of commands it issues on the
admin bucket. Drawn ids and plaintexts and the time are arguments.
-/
namespace WireMirage

/-- The digest library: SHA-256 in hex, and in the encoding of a PKCE challenge. -/
class Digest where
  sha256Hex : String → String
  challenge : String → String

def normalizeEmail (email : String) : String := (trim email).toLower

/-! Users -/

def readUserById (id : String) : AuthProg (Option User) := do
  let fields ← Bucket.hashGetAll (.user id)
  if fields.entries.isEmpty then return none
  else do
    let user ← Prog.ofExcept (decodeUser fields)
    return some user

def indexedId (what : String) (v : AdminVal) : AuthProg String :=
  match v.utf8 with
  | none => Prog.fail (.malformed what)
  | some id => return id

/-- The scan of all users for one with the email, whose index entry it heals. -/
def scanUsers (email : String) : List String → AuthProg (Option User)
  | [] => return none
  | id :: rest => do
    match ← readUserById id with
    | none => scanUsers email rest
    | some user =>
      if user.email = email then do
        if email.toList.contains '@' then Bucket.set (.userByEmail email) (.text user.id)
        return some user
      else scanUsers email rest

def scanAllUsers (email : String) : AuthProg (Option User) := do
  let ids ← Bucket.setMembers .userAll
  scanUsers email ids

def findUserByEmail (email : String) : AuthProg (Option User) := do
  match ← Bucket.get (.userByEmail email) with
  | none => scanAllUsers email
  | some v =>
    let id ← indexedId "user:by-email value" v
    match ← readUserById id with
    | some user =>
      if user.email = email then return some user
      else do
        Bucket.delete (.userByEmail email)
        scanAllUsers email
    | none => do
      Bucket.delete (.userByEmail email)
      scanAllUsers email

def newUser (email : String) (isAdmin : Bool) (id : String) (now : Time) : User where
  id := id
  email := email
  isAdmin := isAdmin
  createdAt := now
  sessionEpoch := 0

def writeUserFields (user : User) : AuthProg Unit := do
  let key := AdminKey.user user.id
  Bucket.hashSet key "id" (.text user.id)
  Bucket.hashSet key "primary_email" (.text user.email)
  Bucket.hashSet key "is_admin" (.flag user.isAdmin)
  Bucket.hashSet key "created_at" (.time user.createdAt)
  Bucket.hashSet key "session_epoch" (.int 0)

/-- The email index is claimed after the record is there, and a lost claim leaves the record. -/
def claimEmail (user : User) : AuthProg User := do
  let claimed ← Bucket.setIfAbsent (.userByEmail user.email) (.text user.id)
  if ¬ claimed then Prog.fail (.emailTaken user.email)
  else do
    Bucket.setAdd .userAll user.id
    return user

def writeNewUser (email : String) (isAdmin : Bool) (id : String) (now : Time) :
    AuthProg User := do
  match ← findUserByEmail email with
  | some _ => Prog.fail (.emailTaken email)
  | none => do
    let user := newUser email isAdmin id now
    writeUserFields user
    claimEmail user

def createUser (email : String) (isAdmin : Bool) (id : String) (now : Time) : AuthProg User :=
  writeNewUser (normalizeEmail email) isAdmin id now

def getUserById (id : String) : AuthProg User := do
  match ← readUserById id with
  | none => Prog.fail .notFound
  | some user => return user

def getUserByEmail (email : String) : AuthProg (Option User) :=
  findUserByEmail (normalizeEmail email)

/-- The admin flag of a returning user follows the configuration. -/
def syncAdmin (user : User) (isAdmin : Bool) : AuthProg User :=
  if user.isAdmin ≠ isAdmin then do
    Bucket.hashSet (.user user.id) "is_admin" (.flag isAdmin)
    return { user with isAdmin := isAdmin }
  else return user

def upsertLocalUser (email : String) (isAdmin : Bool) (id : String) (now : Time) :
    AuthProg User := do
  let email := normalizeEmail email
  match ← findUserByEmail email with
  | some user => do
    let user ← syncAdmin user isAdmin
    Bucket.set (.userByIdentity "local" email) (.text user.id)
    return user
  | none => do
    let user ← writeNewUser email isAdmin id now
    Bucket.set (.userByIdentity "local" email) (.text user.id)
    return user

/-- A record from before emails gets one once, and the index of one with an email is set again. -/
def backfillEmail (user : User) (email : String) : AuthProg User := do
  let fields ← Bucket.hashGetAll (.user user.id)
  if (fields.lookup "primary_email").isNone then do
    match ← findUserByEmail email with
    | some _ => return user
    | none => do
      Bucket.hashSet (.user user.id) "primary_email" (.text email)
      Bucket.set (.userByEmail email) (.text user.id)
      return { user with email := email }
  else do
    Bucket.set (.userByEmail user.email) (.text user.id)
    return user

/-- The first login of an identity: an account with its email is linked, else one is made. -/
def firstSeenIdentity (provider subject email : String) (isAdmin : Bool) (id : String)
    (now : Time) : AuthProg User := do
  match ← findUserByEmail email with
  | some user => do
    Bucket.set (.userByIdentity provider subject) (.text user.id)
    syncAdmin user isAdmin
  | none => do
    let user ← writeNewUser email isAdmin id now
    Bucket.set (.userByIdentity provider subject) (.text user.id)
    return user

def upsertOauthUser (provider subject email : String) (isAdmin : Bool) (id : String)
    (now : Time) : AuthProg User := do
  let email := normalizeEmail email
  match ← Bucket.get (.userByIdentity provider subject) with
  | none => firstSeenIdentity provider subject email isAdmin id now
  | some v =>
    let linked ← indexedId "identity index value" v
    match ← readUserById linked with
    | some user => do
      let user ← syncAdmin user isAdmin
      backfillEmail user email
    | none => do
      Bucket.delete (.userByIdentity provider subject)
      firstSeenIdentity provider subject email isAdmin id now

def setUserAdmin (id : String) (isAdmin : Bool) : AuthProg User := do
  let user ← getUserById id
  Bucket.hashSet (.user user.id) "is_admin" (.flag isAdmin)
  return { user with isAdmin := isAdmin }

def bumpSessionEpoch (id : String) : AuthProg Nat := do
  let _ ← getUserById id
  let next ← Bucket.hashIncr (.user id) "session_epoch" 1
  return asU64 next

/-! Tokens -/

def readTokenById (id : String) : AuthProg (Option Token) := do
  let fields ← Bucket.hashGetAll (.token id)
  if fields.entries.isEmpty then return none
  else do
    let token ← Prog.ofExcept (decodeToken fields)
    return some token

def newToken [Digest] (ownerId name plaintext : String) (ttlSeconds : Option Nat) (id : String)
    (now : Time) : Token where
  id := id
  name := name
  ownerId := ownerId
  hash := Digest.sha256Hex plaintext
  createdAt := now
  lastUsedAt := none
  expiresAt := ttlSeconds.map (now + ·)
  scopes := fullAccessScopes

def writeTokenFields [DateText] (token : Token) : AuthProg Unit := do
  let key := AdminKey.token token.id
  Bucket.hashSet key "id" (.text token.id)
  Bucket.hashSet key "name" (.text token.name)
  Bucket.hashSet key "owner_id" (.text token.ownerId)
  Bucket.hashSet key "hash" (.text token.hash)
  Bucket.hashSet key "created_at" (.time token.createdAt)
  if let some ts := token.expiresAt then Bucket.hashSet key "expires_at" (.date ts)
  Bucket.hashSet key "scopes" (.scopes token.scopes)

def writeNewToken [Digest] [DateText] (ownerId name plaintext : String) (ttlSeconds : Option Nat)
    (id : String) (now : Time) : AuthProg Token := do
  let token := newToken ownerId name plaintext ttlSeconds id now
  writeTokenFields token
  Bucket.set (.tokenByHash token.hash) (.text token.id)
  Bucket.set (.tokenByName ownerId name) (.text token.id)
  Bucket.setAdd (.tokenByOwner ownerId) token.id
  return token

def createToken [Digest] [DateText] (ownerId name plaintext : String) (ttlSeconds : Option Nat)
    (id : String) (now : Time) : AuthProg (Token × String) := do
  match ← readUserById ownerId with
  | none => Prog.fail .notFound
  | some _ =>
    match ← Bucket.get (.tokenByName ownerId name) with
    | some _ => Prog.fail (.nameTaken name)
    | none => do
      let token ← writeNewToken ownerId name plaintext ttlSeconds id now
      return (token, plaintext)

def getTokenByName (ownerId name : String) : AuthProg (Option Token) := do
  match ← Bucket.get (.tokenByName ownerId name) with
  | none => return none
  | some v =>
    let id ← indexedId "token:by-name value" v
    readTokenById id

def renameToken (ownerId oldName newName : String) : AuthProg Token :=
  if oldName = newName then do
    match ← getTokenByName ownerId oldName with
    | none => Prog.fail .notFound
    | some token => return token
  else do
    match ← Bucket.get (.tokenByName ownerId newName) with
    | some _ => Prog.fail (.nameTaken newName)
    | none =>
      match ← getTokenByName ownerId oldName with
      | none => Prog.fail .notFound
      | some token => do
        Bucket.set (.tokenByName ownerId newName) (.text token.id)
        Bucket.hashSet (.token token.id) "name" (.text newName)
        Bucket.delete (.tokenByName ownerId oldName)
        return { token with name := newName }

def deletedTokenFields : List String :=
  ["id", "name", "owner_id", "hash", "created_at", "expires_at", "last_used_at", "scopes"]

def deleteToken (token : Token) : AuthProg Unit := do
  Bucket.delete (.tokenByHash token.hash)
  Bucket.delete (.tokenByName token.ownerId token.name)
  Bucket.setRemove (.tokenByOwner token.ownerId) token.id
  Prog.forEach deletedTokenFields (fun f => Bucket.hashDelete (.token token.id) f)

def revokeTokenByName (ownerId name : String) : AuthProg Bool := do
  match ← getTokenByName ownerId name with
  | none => return false
  | some token => do
    deleteToken token
    return true

/-! Deleting a user -/

def deleteTokenIfRead (id : String) : AuthProg Unit := do
  match ← readTokenById id with
  | none => return ()
  | some token => deleteToken token

def deletedUserFields : List String := ["id", "name", "primary_email", "is_admin", "created_at"]

/-- The tokens of a user and every index entry that leads to it go first. -/
def forgetUser (user : User) : AuthProg Unit := do
  let tokenIds ← Bucket.setMembers (.tokenByOwner user.id)
  Prog.forEach tokenIds deleteTokenIfRead
  Bucket.delete (.userByEmail user.email)
  Bucket.delete (.userByName user.email)
  Bucket.setRemove .userAll user.id

def deleteUser (id : String) : AuthProg Unit := do
  let user ← getUserById id
  forgetUser user
  Prog.forEach deletedUserFields (fun f => Bucket.hashDelete (.user user.id) f)

/-! Bootstrap -/

/-- A record from before emails, left under its retired name, takes the email over. -/
def adoptBootstrap (email : String) : AuthProg Bool := do
  match ← Bucket.get (.userByName "bootstrap") with
  | none => return false
  | some v =>
    let id ← indexedId "user:by-name value" v
    match ← readUserById id with
    | none => return false
    | some user => do
      let fields ← Bucket.hashGetAll (.user user.id)
      if (fields.lookup "primary_email").isNone then do
        Bucket.hashSet (.user user.id) "primary_email" (.text email)
        Bucket.set (.userByEmail email) (.text user.id)
        Bucket.delete (.userByName "bootstrap")
        return true
      else return false

def bootstrapAdmin [Digest] [DateText] (email plaintext : String) (id tokenId : String)
    (now : Time) : AuthProg Bool := do
  let email := normalizeEmail email
  match ← findUserByEmail email with
  | some _ => return false
  | none =>
    if ← adoptBootstrap email then return false
    else
      match ← Prog.attempt (writeNewUser email true id now) with
      | .error (.emailTaken _) => return false
      | .error e => Prog.fail e
      | .ok user => do
        let _ ← writeNewToken user.id "bootstrap" plaintext none tokenId now
        return true

/-! Authentication -/

def loadAccessToken (hash : String) : OAuthProg (Option AccessToken) := do
  match ← Bucket.hashGet (.access hash) "data" with
  | none => return none
  | some (.access r) => return some r
  | some _ => Prog.fail (.malformed "decode JSON")

/-- The OAuth server's write of an access token. -/
def saveAccessToken (token : AccessToken) (ttl : Nat) : OAuthProg Unit := do
  Bucket.hashSet (.access token.tokenHash) "data" (.access token)
  Bucket.setTtl (.access token.tokenHash) (max ttl 1)

def authenticatedUser (userId : String) (kindId : String) : AuthProg (Option AuthContext) := do
  match ← readUserById userId with
  | none => return none
  | some user => return some ⟨user.id, user.email, user.isAdmin, .token, kindId⟩

def authenticateWmt [Digest] (plaintext : String) (now : Time) : AuthProg (Option AuthContext) := do
  match ← Bucket.get (.tokenByHash (Digest.sha256Hex plaintext)) with
  | none => return none
  | some v =>
    let id ← indexedId "token:by-hash value" v
    match ← readTokenById id with
    | none => return none
    | some token =>
      if token.expiresAt.any (· < now) then return none
      else do
        match ← authenticatedUser token.ownerId token.id with
        | none => return none
        | some context => do
          let _ ← Prog.attempt (Bucket.hashSet (.token token.id) "last_used_at" (.time now) :
            AuthProg Unit)
          return some context

def accessError : OAuthStoreError → AuthError
  | .storage e => .storage e
  | .malformed msg => .malformed msg
  | .notFound => .notFound

def authenticateWmm [Digest] (plaintext : String) (now : Time) : AuthProg (Option AuthContext) := do
  match ← Prog.attempt (Prog.mapError accessError
    (loadAccessToken (Digest.sha256Hex plaintext))) with
  | .error .notFound => return none
  | .error e => Prog.fail e
  | .ok none => return none
  | .ok (some access) =>
    if access.expiresAt < now then return none
    else authenticatedUser access.userId access.tokenHash

def authenticate [Digest] (plaintext : String) (now : Time) : AuthProg (Option AuthContext) :=
  if "wmt_".toList.isPrefixOf plaintext.toList then authenticateWmt plaintext now
  else if "wmm_".toList.isPrefixOf plaintext.toList then authenticateWmm plaintext now
  else return none

namespace Sample

def apiToken : String := "wmt_AAAAAAAAAAAAAAAAAAAAAAAAAAAAAAAAAAAAAAAAAAA"
def accessToken : String := "wmm_AAAAAAAAAAAAAAAAAAAAAAAAAAAAAAAAAAAAAAAAAAA"
def laterAccessToken : String := "wmm_BBBBBBBBBBBBBBBBBBBBBBBBBBBBBBBBBBBBBBBBBBA"
def refreshToken : String := "wmr_AAAAAAAAAAAAAAAAAAAAAAAAAAAAAAAAAAAAAAAAAAAAAAAAAAAAAAAAAAAAAAAA"
def laterRefreshToken : String := "wmr_BBBBBBBBBBBBBBBBBBBBBBBBBBBBBBBBBBBBBBBBBBBBBBBBBBBBBBBBBBBBBBBB"
def verifier : String := "dBjftJeZ4CVP-mB92K27uhbUJU1p1r_wW1gFWFOEjXk"

def digests : List (String × String) :=
  [(apiToken, "622b397df78bdfac966d2ca44ecbc15b6a871f35feabd5dd5ae6ed1c34e37ed7"),
    (accessToken, "71d96a53f309414d86327047f41a8d6a7a937a29f3da7af72c61e5c7dc8a0377"),
    (laterAccessToken, "ba8cd5305a4453294935e65cbea64627b701a7c9b039647e084b3a4b23a7a652"),
    (refreshToken, "cc99bd4718d069dc44aa7c90b9e6eb72054e42b2b9b32f37ab7460421593538d"),
    (laterRefreshToken, "f28bb6f0ffe9125cff1b24c5448766ac2b296ece2ed6004ff34a13cfc6809ce7")]

/-- The digests of the tokens above; any other text keeps itself behind a mark. -/
scoped instance digest : Digest where
  sha256Hex s := (digests.lookup s).getD ("?" ++ s)
  challenge s := if s = verifier then "E9Melhoa2OwvFrEMTJguCHaoeK1t8URWbuGJSstw-cM" else "?" ++ s

/-- Seconds from the first day of the calendar: the years 0 to 9999. -/
scoped instance dateText : DateText where
  legible t := decide (8272434009600 ≤ t ∧ t < 8588003529600)

def ann : String := "01J9ZK6C3N00000000000000A1"
def bob : String := "01J9ZK6C3N00000000000000B2"
def tokenId : String := "01J9ZK6C3N00000000000000T3"

end Sample

end WireMirage
