import WireMirage.Auth.Sessions

/-!
The OAuth server: clients, authorization requests awaiting consent, codes, and tokens
that are rotated as they are refreshed. The answers of an endpoint other than its
success are refusals.
-/
namespace WireMirage

def pendingAuthTtlSeconds : Nat := 600
def authCodeTtlSeconds : Nat := 600
def accessTokenTtlSeconds : Nat := 3600
def refreshTokenTtlSeconds : Nat := 30 * 24 * 3600

namespace AdminVal

def asClient : AdminVal → Option OAuthClient
  | .client r => some r
  | _ => none

def asPending : AdminVal → Option PendingAuthorization
  | .pending r => some r
  | _ => none

def asCode : AdminVal → Option AuthorizationCode
  | .code r => some r
  | _ => none

def asRefresh : AdminVal → Option RefreshToken
  | .refresh r => some r
  | _ => none

end AdminVal

/-! Records -/

def writeJsonHash (k : AdminKey) (v : AdminVal) : OAuthProg Unit := Bucket.hashSet k "data" v

def readJsonHash {A : Type} (decode : AdminVal → Option A) (k : AdminKey) :
    OAuthProg (Option A) := do
  match ← Bucket.hashGet k "data" with
  | none => return none
  | some v =>
    match decode v with
    | none => Prog.fail (.malformed "decode JSON")
    | some r => return some r

def saveClient (client : OAuthClient) : OAuthProg Unit :=
  writeJsonHash (.client client.clientId) (.client client)

def loadClient (clientId : String) : OAuthProg (Option OAuthClient) :=
  readJsonHash AdminVal.asClient (.client clientId)

def revokeClient (clientId : String) (now : Time) : OAuthProg Bool := do
  match ← loadClient clientId with
  | none => return false
  | some client =>
    if client.revokedAt.isSome then return false
    else do
      writeJsonHash (.client clientId) (.client { client with revokedAt := some now })
      return true

def savePending (state : String) (pending : PendingAuthorization) : OAuthProg Unit := do
  writeJsonHash (.pending state) (.pending pending)
  Bucket.setTtl (.pending state) pendingAuthTtlSeconds

def consumePending (state : String) : OAuthProg (Option PendingAuthorization) := do
  match ← readJsonHash AdminVal.asPending (.pending state) with
  | none => return none
  | some pending => do
    Bucket.delete (.pending state)
    return some pending

def saveAuthorizationCode (code : AuthorizationCode) : OAuthProg Unit := do
  writeJsonHash (.code code.code) (.code code)
  Bucket.setTtl (.code code.code) authCodeTtlSeconds

def consumeAuthorizationCode (code : String) (now : Time) :
    OAuthProg (Option AuthorizationCode) := do
  match ← readJsonHash AdminVal.asCode (.code code) with
  | none => return none
  | some record =>
    if record.usedAt.isSome then return none
    else do
      let record := { record with usedAt := some now }
      writeJsonHash (.code code) (.code record)
      return some record

def saveRefreshToken (token : RefreshToken) : OAuthProg Unit := do
  writeJsonHash (.refresh token.tokenHash) (.refresh token)
  Bucket.setTtl (.refresh token.tokenHash) refreshTokenTtlSeconds
  Bucket.setAdd (.refreshByUser token.userId) token.tokenHash

def loadRefreshToken (hash : String) : OAuthProg (Option RefreshToken) :=
  readJsonHash AdminVal.asRefresh (.refresh hash)

def consumeRefreshToken (hash : String) (now : Time) : OAuthProg (Option RefreshToken) := do
  match ← loadRefreshToken hash with
  | none => return none
  | some record =>
    if record.usedAt.isSome ∨ record.revokedAt.isSome then return none
    else do
      let record := { record with usedAt := some now }
      writeJsonHash (.refresh hash) (.refresh record)
      return some record

def deleteAccessToken (hash : String) : OAuthProg Unit := Bucket.delete (.access hash)

/-- Whether a refresh token of the client was revoked: it was there and not yet revoked. -/
def revokeGrant (clientId : String) (now : Time) (hash : String) : OAuthProg Bool := do
  match ← loadRefreshToken hash with
  | none => return false
  | some refresh =>
    if refresh.clientId ≠ clientId then return false
    else if refresh.revokedAt.isSome then return false
    else do
      saveRefreshToken { refresh with revokedAt := some now }
      return true

def revokeGrantsForClient (userId clientId : String) (now : Time) : OAuthProg Nat := do
  let hashes ← Bucket.setMembers (.refreshByUser userId)
  let revoked ← Prog.collect hashes (revokeGrant clientId now)
  return revoked.count true

/-! Endpoints -/

/-- The parts of a URL that are looked at. -/
structure Url where
  scheme : String
  host : Option String
  path : String

/-- What the endpoints have from libraries: digests, the signature of cookies, password
    hashes, base64, and URLs. -/
class Platform extends Digest, Signing where
  hashPassword : String → String → Option String
  verifyPassword : String → String → Bool
  basicText : String → Option String
  parseUrl : String → Except String Url

inductive Refusal where
  | oauth (status : Nat) (error description : String)
  | plain (status : Nat) (text : String)
  | login
  deriving DecidableEq, Repr

abbrev Flow (A : Type) := Prog AdminStore Refusal A

def serverError : Refusal := .oauth 500 "server_error" "internal error"
def internalError : Refusal := .plain 500 "internal error"

/-- An error of the store ends the endpoint with the given refusal. -/
def orRefuse {A : Type} (refusal : Refusal) (p : OAuthProg A) : Flow A :=
  Prog.mapError (fun _ => refusal) p

/-! Sessions; without a session store nobody is logged in -/

def sessionIsValid [Signing] (sessions : Option Nat) (cookie : Option String) (now : Time) :
    Flow Bool :=
  match sessions, cookie with
  | some ttl, some cookie => do
    let touched ← Prog.outcome (touch ttl cookie now)
    return touched.toOption.isSome
  | _, _ => return false

def sessionUser (session : Session) : Flow (Option String) := do
  match ← Prog.outcome (getUserById session.userId) with
  | .error _ => return none
  | .ok user =>
    if session.epoch ≠ user.sessionEpoch then return none
    else return some session.userId

def resolveSessionUser [Signing] (sessions : Option Nat) (cookie : Option String) (now : Time) :
    Flow (Option String) :=
  match sessions, cookie with
  | some ttl, some cookie => do
    match ← Prog.outcome (touch ttl cookie now) with
    | .error _ => return none
    | .ok session => sessionUser session
  | _, _ => return none

/-! Registration -/

def loopbackHosts : List String := ["127.0.0.1", "[::1]", "::1"]

def validateRedirectUriAtRegistration [Platform] (uri : String) : Except String Unit :=
  match Platform.parseUrl uri with
  | .error e => .error ("malformed URI " ++ debugText uri ++ ": " ++ e)
  | .ok parsed =>
    if parsed.scheme = "https" then .ok ()
    else if parsed.scheme = "http" then
      let host := parsed.host.getD ""
      if host ∈ loopbackHosts ∨ host = "localhost" then .ok ()
      else .error ("http redirect_uri must be loopback (127.0.0.1, [::1], or localhost), got " ++
        debugText uri)
    else .error ("redirect_uri scheme must be http (loopback) or https, got " ++
      debugText parsed.scheme)

structure RegisterBody where
  clientName : Option String
  redirectUris : List String
  grantTypes : Option (List String)
  responseTypes : Option (List String)
  tokenEndpointAuthMethod : Option String

structure ClientDraws where
  clientId : String
  clientSecret : String
  salt : String

def registeredClient (body : RegisterBody) (clientId secretHash : String) (now : Time) :
    OAuthClient where
  clientId := clientId
  clientSecretHash := secretHash
  clientName := body.clientName.getD "Unnamed Client"
  redirectUris := body.redirectUris
  grantTypes := body.grantTypes.getD ["authorization_code", "refresh_token"]
  responseTypes := body.responseTypes.getD ["code"]
  tokenEndpointAuthMethod := body.tokenEndpointAuthMethod.getD "client_secret_post"
  createdAt := now
  lastUsedAt := none
  revokedAt := none

/-- The client and its secret in plain, which nothing keeps. -/
def register [Platform] (body : RegisterBody) (draws : ClientDraws) (now : Time) :
    Flow (OAuthClient × String) :=
  if body.redirectUris.isEmpty then
    Prog.fail (.oauth 400 "invalid_redirect_uri" "at least one redirect_uri is required")
  else
    match body.redirectUris.mapM validateRedirectUriAtRegistration with
    | .error msg => Prog.fail (.oauth 400 "invalid_redirect_uri" msg)
    | .ok _ =>
      match Platform.hashPassword draws.salt draws.clientSecret with
      | none => Prog.fail (.oauth 500 "server_error" "internal error hashing secret")
      | some hash => do
        let client := registeredClient body draws.clientId hash now
        orRefuse serverError (saveClient client)
        return (client, draws.clientSecret)

/-! Authorization -/

def trimEndMatches (c : Char) (s : String) : String :=
  String.ofList (s.toList.reverse.dropWhile (· = c)).reverse

def resourceMatchesMcp (requested expected : String) : Bool :=
  trimEndMatches '/' requested = trimEndMatches '/' expected

/-- The scheme a trusted proxy names, on the host of the request. -/
def derivePublicBase (host forwardedProto : Option String) (trustForwarded : Bool) : String :=
  let scheme :=
    match forwardedProto with
    | some proto => if trustForwarded ∧ proto ≠ "" then proto else "http"
    | none => "http"
  scheme ++ "://" ++ host.getD "localhost:8080"

def loopbackNormalize [Platform] (uri : String) : Option String :=
  match Platform.parseUrl uri with
  | .error _ => none
  | .ok parsed =>
    if parsed.scheme ≠ "http" then none
    else
      match parsed.host with
      | none => none
      | some host =>
        if host ∈ loopbackHosts then some ("http://" ++ host ++ parsed.path) else none

def redirectUriMatches [Platform] (registered : List String) (provided : String) : Bool :=
  registered.any fun reg =>
    reg = provided ||
      match loopbackNormalize reg, loopbackNormalize provided with
      | some a, some b => a = b
      | _, _ => false

structure AuthorizeQuery where
  responseType : Option String
  clientId : Option String
  redirectUri : Option String
  state : Option String
  scope : Option String
  codeChallenge : Option String
  codeChallengeMethod : Option String
  resource : Option String
  deriving DecidableEq

/-- The session of a browser and the base URL it reaches the host under. -/
structure Browser where
  sessions : Option Nat
  cookie : Option String
  host : Option String
  forwardedProto : Option String
  trustForwarded : Bool

def wrongResource (expected requested : String) : String :=
  "This server's MCP endpoint is " ++ expected ++ ". Your client requested a token for " ++
    requested ++ ", which is not a valid MCP endpoint here. Reconfigure the client with " ++
    expected ++ " and try again."

/-- The parameters an authorization request must have. -/
structure AuthorizeParams where
  clientId : String
  redirectUri : String
  codeChallenge : String
  codeChallengeMethod : String

def checkAuthorize (q : AuthorizeQuery) (base : String) : Except Refusal AuthorizeParams :=
  if q.responseType ≠ some "code" then
    .error (.plain 400 "missing or unsupported response_type (must be \"code\")")
  else
    match q.clientId, q.redirectUri, q.codeChallenge with
    | none, _, _ => .error (.plain 400 "missing client_id")
    | some _, none, _ => .error (.plain 400 "missing redirect_uri")
    | some _, some _, none => .error (.plain 400 "PKCE code_challenge is required (S256 only)")
    | some clientId, some redirectUri, some codeChallenge =>
      let method := q.codeChallengeMethod.getD "S256"
      if method ≠ "S256" then .error (.plain 400 "code_challenge_method must be S256")
      else
        match q.resource with
        | none => .ok ⟨clientId, redirectUri, codeChallenge, method⟩
        | some requested =>
          let expected := base ++ "/api/mcp"
          if requested = "" ∨ resourceMatchesMcp requested expected then
            .ok ⟨clientId, redirectUri, codeChallenge, method⟩
          else .error (.plain 400 (wrongResource expected requested))

def authorizingClient (clientId : String) : Flow OAuthClient := do
  match ← orRefuse internalError (loadClient clientId) with
  | none => Prog.fail (.plain 401 "unknown client_id")
  | some client =>
    if client.revokedAt.isSome then Prog.fail (.plain 401 "client is revoked")
    else return client

def newPending (client : OAuthClient) (params : AuthorizeParams) (q : AuthorizeQuery) (now : Time) :
    PendingAuthorization where
  clientId := client.clientId
  redirectUri := params.redirectUri
  codeChallenge := params.codeChallenge
  codeChallengeMethod := params.codeChallengeMethod
  scope := q.scope.getD "*"
  originalState := q.state
  createdAt := now

/-- The browser goes on to the consent page of the nonce that is answered. -/
def authorize [Platform] (browser : Browser) (q : AuthorizeQuery) (nonce : String) (now : Time) :
    Flow String := do
  let base := derivePublicBase browser.host browser.forwardedProto browser.trustForwarded
  let params ← Prog.ofExcept (checkAuthorize q base)
  let client ← authorizingClient params.clientId
  if ¬ redirectUriMatches client.redirectUris params.redirectUri then
    Prog.fail (.plain 400 "redirect_uri does not match any registered URI")
  else do
    let valid ← sessionIsValid browser.sessions browser.cookie now
    if ¬ valid then Prog.fail .login
    else do
      orRefuse internalError (savePending nonce (newPending client params q now))
      return nonce

/-! Consent -/

/-- A redirect target with the query parameters that are appended to it. -/
structure Redirect where
  base : String
  params : List (String × String)
  deriving DecidableEq

def buildRedirectWithParams [Platform] (base : String) (params : List (String × String)) :
    Redirect :=
  match Platform.parseUrl base with
  | .error _ => ⟨base, []⟩
  | .ok _ => ⟨base, params.filter (fun p => p.2 ≠ "")⟩

structure ConsentForm where
  state : String
  action : String
  deriving DecidableEq

def newCode (pending : PendingAuthorization) (userId code : String) (now : Time) :
    AuthorizationCode where
  code := code
  clientId := pending.clientId
  userId := userId
  redirectUri := pending.redirectUri
  scope := pending.scope
  codeChallenge := pending.codeChallenge
  codeChallengeMethod := pending.codeChallengeMethod
  createdAt := now
  usedAt := none

/-- What becomes of a request that awaited consent, once it is consumed. -/
def decideConsent [Platform] (pending : PendingAuthorization) (action userId code : String)
    (now : Time) : Flow Redirect :=
  let originalState := pending.originalState.getD ""
  if action = "deny" then
    return buildRedirectWithParams pending.redirectUri [("error", "access_denied"),
      ("error_description", "user denied the authorization request"), ("state", originalState)]
  else if action ≠ "approve" then Prog.fail (.plain 400 "invalid action")
  else do
    orRefuse internalError (saveAuthorizationCode (newCode pending userId code now))
    return buildRedirectWithParams pending.redirectUri [("code", code), ("state", originalState)]

def consentSubmit [Platform] (sessions : Option Nat) (cookie : Option String) (form : ConsentForm)
    (code : String) (now : Time) : Flow Redirect := do
  match ← resolveSessionUser sessions cookie now with
  | none => Prog.fail .login
  | some userId =>
    match ← orRefuse internalError (consumePending form.state) with
    | none => Prog.fail (.plain 400 "consent request expired or already handled")
    | some pending => decideConsent pending form.action userId code now

/-! Tokens -/

structure TokenForm where
  grantType : String
  code : Option String
  redirectUri : Option String
  codeVerifier : Option String
  refreshToken : Option String
  clientId : Option String
  clientSecret : Option String

structure ClientAuth where
  clientId : String
  clientSecret : String

def stripPrefix (start s : String) : Option String :=
  if start.toList.isPrefixOf s.toList then some
    (String.ofList (s.toList.drop start.length)) else none

/-- Client credentials from the header, else from the form. -/
def extractClientAuth [Platform] (authorization : Option String) (form : TokenForm) :
    Option ClientAuth :=
  match ((authorization.bind (stripPrefix "Basic ")).bind Platform.basicText).bind
      (splitOnce ':') with
  | some (id, secret) => some ⟨id, secret⟩
  | none =>
    match form.clientId, form.clientSecret with
    | some id, some secret => some ⟨id, secret⟩
    | _, _ => none

def authenticateClient [Platform] (authorization : Option String) (form : TokenForm) :
    Flow OAuthClient :=
  match extractClientAuth authorization form with
  | none => Prog.fail (.oauth 401 "invalid_client" "missing client credentials")
  | some auth => do
    match ← Prog.outcome (loadClient auth.clientId) with
    | .ok (some client) =>
      if client.revokedAt.isSome then
        Prog.fail (.oauth 401 "invalid_client" "unknown or revoked client")
      else if ¬ Platform.verifyPassword client.clientSecretHash auth.clientSecret then
        Prog.fail (.oauth 401 "invalid_client" "client authentication failed")
      else return client
    | _ => Prog.fail (.oauth 401 "invalid_client" "unknown or revoked client")

structure TokenDraws where
  accessToken : String
  refreshToken : String
  consumedAt : Time
  now : Time
  savedAt : Time

structure TokenResponse where
  accessToken : String
  tokenType : String
  expiresIn : Nat
  scope : String
  refreshToken : Option String
  deriving DecidableEq, Repr

def newAccessToken [Digest] (clientId userId scope : String) (draws : TokenDraws) :
    AccessToken where
  tokenHash := Digest.sha256Hex draws.accessToken
  clientId := clientId
  userId := userId
  scope := scope
  createdAt := draws.now
  expiresAt := draws.now + accessTokenTtlSeconds

def newRefreshToken [Digest] (clientId userId scope : String) (draws : TokenDraws) :
    RefreshToken where
  tokenHash := Digest.sha256Hex draws.refreshToken
  clientId := clientId
  userId := userId
  scope := scope
  createdAt := draws.now
  usedAt := none
  revokedAt := none

def issueTokens [Digest] (clientId userId scope : String) (draws : TokenDraws) :
    Flow TokenResponse := do
  let access := newAccessToken clientId userId scope draws
  orRefuse serverError (saveAccessToken access (access.expiresAt - draws.savedAt))
  orRefuse serverError (saveRefreshToken (newRefreshToken clientId userId scope draws))
  return ⟨draws.accessToken, "Bearer", accessTokenTtlSeconds, scope, some draws.refreshToken⟩

def verifyPkce [Digest] (challenge verifier : String) : Bool :=
  Digest.challenge verifier = challenge

/-- Why a consumed code is of no use to the client that presents it. -/
def codeRefused [Digest] (consumed : AuthorizationCode) (clientId redirectUri verifier : String) :
    Option Refusal :=
  if consumed.clientId ≠ clientId then
    some (.oauth 400 "invalid_grant" "code does not belong to this client")
  else if consumed.redirectUri ≠ redirectUri then
    some (.oauth 400 "invalid_grant" "redirect_uri does not match the code's binding")
  else if ¬ verifyPkce consumed.codeChallenge verifier then
    some (.oauth 400 "invalid_grant" "PKCE verifier does not match challenge")
  else none

structure CodeParams where
  code : String
  redirectUri : String
  verifier : String

def codeParams (form : TokenForm) : Except Refusal CodeParams :=
  match form.code, form.redirectUri, form.codeVerifier with
  | none, _, _ => .error (.oauth 400 "invalid_request" "missing `code`")
  | some _, none, _ => .error (.oauth 400 "invalid_request" "missing `redirect_uri`")
  | some _, some _, none =>
    .error (.oauth 400 "invalid_request" "missing PKCE `code_verifier`")
  | some code, some redirectUri, some verifier => .ok ⟨code, redirectUri, verifier⟩

def handleAuthorizationCodeGrant [Digest] (client : OAuthClient) (form : TokenForm)
    (draws : TokenDraws) : Flow TokenResponse := do
  let params ← Prog.ofExcept (codeParams form)
  match ← orRefuse serverError (consumeAuthorizationCode params.code draws.consumedAt) with
  | none =>
    Prog.fail (.oauth 400 "invalid_grant" "authorization code not found, already used, or expired")
  | some consumed =>
    match codeRefused consumed client.clientId params.redirectUri params.verifier with
    | some refusal => Prog.fail refusal
    | none => issueTokens client.clientId consumed.userId consumed.scope draws

def refreshParam (form : TokenForm) : Except Refusal String :=
  match form.refreshToken with
  | none => .error (.oauth 400 "invalid_request" "missing `refresh_token`")
  | some token => .ok token

def handleRefreshTokenGrant [Digest] (client : OAuthClient) (form : TokenForm)
    (draws : TokenDraws) : Flow TokenResponse := do
  let token ← Prog.ofExcept (refreshParam form)
  match ← orRefuse serverError
      (consumeRefreshToken (Digest.sha256Hex token) draws.consumedAt) with
  | none =>
    Prog.fail (.oauth 400 "invalid_grant"
      "refresh token not found, already used, revoked, or expired")
  | some consumed =>
    if consumed.clientId ≠ client.clientId then
      Prog.fail (.oauth 400 "invalid_grant" "refresh token does not belong to this client")
    else issueTokens consumed.clientId consumed.userId consumed.scope draws

def token [Platform] (authorization : Option String) (form : TokenForm) (draws : TokenDraws) :
    Flow TokenResponse := do
  let client ← authenticateClient authorization form
  if form.grantType = "authorization_code" then handleAuthorizationCodeGrant client form draws
  else if form.grantType = "refresh_token" then handleRefreshTokenGrant client form draws
  else Prog.fail (.oauth 400 "unsupported_grant_type"
    ("unsupported grant_type " ++ debugText form.grantType))

/-! Revocation -/

structure RevokeForm where
  token : String
  clientId : Option String
  clientSecret : Option String

def RevokeForm.auth (form : RevokeForm) : TokenForm where
  grantType := "_revoke_"
  code := none
  redirectUri := none
  codeVerifier := none
  refreshToken := none
  clientId := form.clientId
  clientSecret := form.clientSecret

def revokeRefresh (clientId hash : String) (now : Time) : Flow Unit := do
  match ← Prog.outcome (loadRefreshToken hash) with
  | .ok (some refresh) =>
    if refresh.clientId = clientId ∧ refresh.revokedAt.isNone then do
      let _ ← Prog.outcome (saveRefreshToken { refresh with revokedAt := some now })
      return ()
    else return ()
  | _ => return ()

/-- Whatever the token is, the answer is the same once the client is authenticated. -/
def revoke [Platform] (authorization : Option String) (form : RevokeForm) (now : Time) :
    Flow Unit := do
  let client ← authenticateClient authorization form.auth
  let hash := Digest.sha256Hex form.token
  match ← Prog.outcome (loadAccessToken hash) with
  | .ok (some access) =>
    if access.clientId = client.clientId then do
      let _ ← Prog.outcome (deleteAccessToken hash)
      return ()
    else return ()
  | _ => revokeRefresh client.clientId hash now

namespace Sample

def clientId : String := "wmc_AAAAAAAAAAAAAAAAAAAAAA"
def clientSecret : String := "wmcs_AAAAAAAAAAAAAAAAAAAAAAAAAAAAAAAAAAAAAAAAAAA"
def salt : String := "T30kl9EL8WUbZXoaHwzMvA"
def secretHash : String :=
  "$argon2id$v=19$m=19456,t=2,p=1$T30kl9EL8WUbZXoaHwzMvA$jT5qYbFzs6Y/7WMp4Zw8t+8dXfycuX7/0kLCwFkS7n8"
def redirect : String := "http://127.0.0.1:7777/callback"
def nonce : String := "NNNNNNNNNNNNNNNNNNNNNNNNNNNNNNNNNNNNNNNNNNA"
def code : String := "CCCCCCCCCCCCCCCCCCCCCCCCCCCCCCCCCCCCCCCCCCA"
def sessionToken : String := "AAAAAAAAAAAAAAAAAAAAAAAAAAAAAAAAAAAAAAAAAAA"

/-- The libraries on the texts of the runs below: the secret of the deployment is 32 zero bytes. -/
scoped instance platform : Platform where
  sha256Hex := digest.sha256Hex
  challenge := digest.challenge
  signature token :=
    if token = sessionToken then "WKmJlMEAT8cArQAJgF6oCb1TRLWf_odUROPCibeDiIg" else "?" ++ token
  hashPassword mixed password :=
    if mixed = salt ∧ password = clientSecret then some secretHash else none
  verifyPassword hash password := hash = secretHash ∧ password = clientSecret
  basicText _ := none
  parseUrl uri :=
    if uri = redirect then .ok ⟨"http", some "127.0.0.1", "/callback"⟩
    else .error "relative URL without a base"

end Sample

end WireMirage
