import WireMirage.Auth.Writes
import WireMirage.OAuth.Operations

/-!
What the operations of the OAuth server read and leave behind when nothing runs
in between.
-/
namespace WireMirage
open Prog

def recordAt (s : AdminStore) (k : AdminKey) : Option AdminVal := (s.hashAt k).lookup "data"

def recorded (s : AdminStore) (k : AdminKey) (v : AdminVal) : AdminStore :=
  s.putHash k ((s.hashAt k).insert "data" v)

theorem wellKinded_recorded {s : AdminStore} (wk : s.WellKinded) {k : AdminKey}
    (family : k.family = some .hash) (v : AdminVal) : (recorded s k v).WellKinded :=
  Storage.wellKinded_putHash wk family _

section Records
variable (s : AdminStore) (k k' : AdminKey)

@[simp] theorem recordAt_recorded (v : AdminVal) :
    recordAt (recorded s k v) k' = if k' = k then some v else recordAt s k' := by
  unfold recordAt recorded
  by_cases same : k' = k
  · subst same
    simp
  · simp [same]

@[simp] theorem recordAt_arm (ends : Option Nat) : recordAt (s.arm k ends) k' = recordAt s k' := by
  simp [recordAt]

@[simp] theorem recordAt_erase :
    recordAt (s.erase k) k' = if k' = k then none else recordAt s k' := by
  unfold recordAt
  by_cases same : k' = k
  · simp [same]
  · simp [same]

@[simp] theorem recordAt_addMember (x : String) :
    recordAt (s.addMember k x) k' = if k' = k then none else recordAt s k' := by
  unfold recordAt
  by_cases same : k' = k
  · simp [same]
  · simp [same]

theorem recordAt_of_entry {t : AdminStore} (same : t.entry k = s.entry k) :
    recordAt t k = recordAt s k := by
  unfold recordAt
  rw [Storage.hashAt_of_entry same]

theorem recordAt_advance (seconds : Nat) :
    recordAt (s.advance seconds) k = none ∨ recordAt (s.advance seconds) k = recordAt s k := by
  unfold recordAt
  rw [Storage.hashAt_advance]
  split
  · exact .inl rfl
  · exact .inr rfl

end Records

section Leads
variable {Err : Type} [FromStoreError AdminKey Err] {s : AdminStore} {k : AdminKey}

theorem leads_record {v : AdminVal} (family : k.family = some .hash) :
    Leads Storage.WellKinded (writeJsonHash k v) s () (recorded s k v) :=
  leads_hashSet family

theorem leads_setTtl {ttl : Nat} (positive : ttl ≠ 0) :
    Leads Storage.WellKinded (Bucket.setTtl k ttl : Prog AdminStore Err Unit) s ()
      (s.arm k (some (s.clock + ttl))) :=
  fun wk => ⟨run_setTtl positive, Storage.wellKinded_arm wk _⟩

theorem leads_orRefuse {A : Type} {p : OAuthProg A} {refusal : Refusal} {a : A} {t : AdminStore}
    (leads : Leads Storage.WellKinded p s a t) :
    Leads Storage.WellKinded (orRefuse refusal p) s a t := by
  intro wk
  obtain ⟨ran, kinded⟩ := leads wk
  unfold orRefuse
  rw [run_mapError, ran]
  exact ⟨rfl, kinded⟩

end Leads

/-! Saving -/

def pendingSaved (s : AdminStore) (state : String) (pending : PendingAuthorization) : AdminStore :=
  (recorded s (.pending state) (.pending pending)).arm (.pending state)
    (some ((recorded s (.pending state) (.pending pending)).clock + pendingAuthTtlSeconds))

def codeSaved (s : AdminStore) (code : AuthorizationCode) : AdminStore :=
  (recorded s (.code code.code) (.code code)).arm (.code code.code)
    (some ((recorded s (.code code.code) (.code code)).clock + authCodeTtlSeconds))

def accessSaved (s : AdminStore) (token : AccessToken) (ttl : Nat) : AdminStore :=
  (recorded s (.access token.tokenHash) (.access token)).arm (.access token.tokenHash)
    (some ((recorded s (.access token.tokenHash) (.access token)).clock + max ttl 1))

def refreshSaved (s : AdminStore) (token : RefreshToken) : AdminStore :=
  ((recorded s (.refresh token.tokenHash) (.refresh token)).arm (.refresh token.tokenHash)
    (some ((recorded s (.refresh token.tokenHash) (.refresh token)).clock +
      refreshTokenTtlSeconds))).addMember (.refreshByUser token.userId) token.tokenHash

section Saving
variable {s : AdminStore}

theorem leads_savePending (state : String) (pending : PendingAuthorization) :
    Leads Storage.WellKinded (savePending state pending) s () (pendingSaved s state pending) :=
  (leads_record rfl).bind (leads_setTtl (by decide))

theorem leads_saveAuthorizationCode (code : AuthorizationCode) :
    Leads Storage.WellKinded (saveAuthorizationCode code) s () (codeSaved s code) :=
  (leads_record rfl).bind (leads_setTtl (by decide))

theorem leads_saveAccessToken (token : AccessToken) (ttl : Nat) :
    Leads Storage.WellKinded (saveAccessToken token ttl) s () (accessSaved s token ttl) :=
  (leads_record rfl).bind (leads_setTtl (by omega))

theorem leads_saveRefreshToken (token : RefreshToken) :
    Leads Storage.WellKinded (saveRefreshToken token) s () (refreshSaved s token) :=
  (leads_record rfl).bind <| (leads_setTtl (by decide)).bind (leads_setAdd rfl)

variable (s) (k : AdminKey)

theorem recordAt_pendingSaved (state : String) (pending : PendingAuthorization) :
    recordAt (pendingSaved s state pending) k =
      if k = .pending state then some (.pending pending) else recordAt s k := by
  simp [pendingSaved]

theorem recordAt_codeSaved (code : AuthorizationCode) :
    recordAt (codeSaved s code) k =
      if k = .code code.code then some (.code code) else recordAt s k := by
  simp [codeSaved]

theorem recordAt_accessSaved (token : AccessToken) (ttl : Nat) :
    recordAt (accessSaved s token ttl) k =
      if k = .access token.tokenHash then some (.access token) else recordAt s k := by
  simp [accessSaved]

theorem recordAt_refreshSaved (token : RefreshToken) (family : k.family = some .hash) :
    recordAt (refreshSaved s token) k =
      if k = .refresh token.tokenHash then some (.refresh token) else recordAt s k := by
  have other : k ≠ .refreshByUser token.userId := by
    rintro rfl
    cases family
  simp [refreshSaved, other]

end Saving

/-! Reading -/

section Reading
variable {s : AdminStore} (wk : s.WellKinded)
include wk

/-- A record that is read is the stored one. -/
theorem run_readJsonHash {A : Type} (decode : AdminVal → Option A) {k : AdminKey}
    (family : k.family = some .hash) : ∃ answer, run (readJsonHash decode k) s = (answer, s) ∧
      ∀ r, answer = .ok (some r) → ∃ v, recordAt s k = some v ∧ decode v = some r := by
  unfold readJsonHash
  rw [run_bind, run_hashGet wk family, andThen_ok]
  unfold recordAt
  rcases (s.hashAt k).lookup "data" with _ | v
  · exact ⟨_, rfl, by simp⟩
  · dsimp only
    cases decoded : decode v with
    | none => exact ⟨_, rfl, by simp⟩
    | some r =>
      refine ⟨_, rfl, ?_⟩
      intro r' same
      cases same
      exact ⟨v, rfl, decoded⟩

omit wk in
theorem client_of_asClient {v : AdminVal} {r : OAuthClient} (decoded : v.asClient = some r) :
    v = .client r := by
  cases v <;> simp_all [AdminVal.asClient]

omit wk in
theorem pending_of_asPending {v : AdminVal} {r : PendingAuthorization}
    (decoded : v.asPending = some r) : v = .pending r := by
  cases v <;> simp_all [AdminVal.asPending]

omit wk in
theorem code_of_asCode {v : AdminVal} {r : AuthorizationCode} (decoded : v.asCode = some r) :
    v = .code r := by
  cases v <;> simp_all [AdminVal.asCode]

omit wk in
theorem refresh_of_asRefresh {v : AdminVal} {r : RefreshToken} (decoded : v.asRefresh = some r) :
    v = .refresh r := by
  cases v <;> simp_all [AdminVal.asRefresh]

theorem run_loadClient (clientId : String) : ∃ answer, run (loadClient clientId) s = (answer, s) ∧
    ∀ r, answer = .ok (some r) → recordAt s (.client clientId) = some (.client r) := by
  obtain ⟨answer, ran, stored⟩ := run_readJsonHash wk AdminVal.asClient (k := .client clientId) rfl
  refine ⟨answer, ran, ?_⟩
  intro r same
  obtain ⟨v, found, decoded⟩ := stored r same
  rw [found, client_of_asClient decoded]

theorem run_loadRefreshToken (hash : String) : ∃ answer,
    run (loadRefreshToken hash) s = (answer, s) ∧
    ∀ r, answer = .ok (some r) → recordAt s (.refresh hash) = some (.refresh r) := by
  obtain ⟨answer, ran, stored⟩ := run_readJsonHash wk AdminVal.asRefresh (k := .refresh hash) rfl
  refine ⟨answer, ran, ?_⟩
  intro r same
  obtain ⟨v, found, decoded⟩ := stored r same
  rw [found, refresh_of_asRefresh decoded]

/-- A client that is let in is a registered one, with the credentials of the request. -/
theorem run_authenticateClient [Platform] (authorization : Option String) (form : TokenForm) :
    (∃ e, run (authenticateClient authorization form) s = (.error e, s)) ∨
    ∃ auth client, extractClientAuth authorization form = some auth ∧
      recordAt s (.client auth.clientId) = some (.client client) ∧
      run (authenticateClient authorization form) s = (.ok client, s) := by
  unfold authenticateClient
  cases extractClientAuth authorization form with
  | none => exact .inl ⟨_, rfl⟩
  | some auth =>
    obtain ⟨answer, ran, stored⟩ := run_loadClient wk auth.clientId
    simp only [run_bind, run_outcome, ran, andThen_ok]
    rcases answer with e | (_ | client)
    · exact .inl ⟨_, rfl⟩
    · exact .inl ⟨_, rfl⟩
    · simp only [run_ite]
      split
      · exact .inl ⟨_, rfl⟩
      · split
        · exact .inl ⟨_, rfl⟩
        · exact .inr ⟨auth, client, rfl, stored client rfl, rfl⟩

/-! Consuming -/

theorem run_consumePending (state : String) :
    (∃ e, run (consumePending state) s = (.error e, s)) ∨
    run (consumePending state) s = (.ok none, s) ∨
    ∃ r, recordAt s (.pending state) = some (.pending r) ∧
      run (consumePending state) s = (.ok (some r), s.erase (.pending state)) := by
  obtain ⟨answer, ran, stored⟩ := run_readJsonHash wk AdminVal.asPending (k := .pending state) rfl
  unfold consumePending
  rw [run_bind, ran]
  rcases answer with e | (_ | r)
  · exact .inl ⟨e, rfl⟩
  · exact .inr (.inl rfl)
  · obtain ⟨v, found, decoded⟩ := stored r rfl
    rw [pending_of_asPending decoded] at found
    refine .inr (.inr ⟨r, found, ?_⟩)
    show run (Bucket.delete _ >>= fun _ => pure (some r)) s = _
    rw [run_bind, run_delete]
    rfl

theorem run_consumeAuthorizationCode (code : String) (now : Time) :
    (∃ e, run (consumeAuthorizationCode code now) s = (.error e, s)) ∨
    run (consumeAuthorizationCode code now) s = (.ok none, s) ∨
    ∃ r, recordAt s (.code code) = some (.code r) ∧ r.usedAt = none ∧
      run (consumeAuthorizationCode code now) s = (.ok (some { r with usedAt := some now }),
        recorded s (.code code) (.code { r with usedAt := some now })) := by
  obtain ⟨answer, ran, stored⟩ := run_readJsonHash wk AdminVal.asCode (k := .code code) rfl
  unfold consumeAuthorizationCode
  rw [run_bind, ran]
  rcases answer with e | (_ | r)
  · exact .inl ⟨e, rfl⟩
  · exact .inr (.inl rfl)
  · obtain ⟨v, found, decoded⟩ := stored r rfl
    rw [code_of_asCode decoded] at found
    simp only [andThen_ok]
    by_cases used : r.usedAt.isSome = true
    · rw [if_pos used]
      exact .inr (.inl rfl)
    · rw [if_neg used]
      refine .inr (.inr ⟨r, found, by simpa using used, ?_⟩)
      rw [run_bind, (leads_record (k := .code code) rfl).run_eq wk]
      rfl

theorem run_consumeRefreshToken (hash : String) (now : Time) :
    (∃ e, run (consumeRefreshToken hash now) s = (.error e, s)) ∨
    run (consumeRefreshToken hash now) s = (.ok none, s) ∨
    ∃ r, recordAt s (.refresh hash) = some (.refresh r) ∧
      run (consumeRefreshToken hash now) s = (.ok (some { r with usedAt := some now }),
        recorded s (.refresh hash) (.refresh { r with usedAt := some now })) := by
  obtain ⟨answer, ran, stored⟩ := run_loadRefreshToken wk hash
  unfold consumeRefreshToken
  rw [run_bind, ran]
  rcases answer with e | (_ | r)
  · exact .inl ⟨e, rfl⟩
  · exact .inr (.inl rfl)
  · have found := stored r rfl
    simp only [andThen_ok]
    by_cases spent : r.usedAt.isSome = true ∨ r.revokedAt.isSome = true
    · rw [if_pos spent]
      exact .inr (.inl rfl)
    · rw [if_neg spent]
      refine .inr (.inr ⟨r, found, ?_⟩)
      rw [run_bind, (leads_record (k := .refresh hash) rfl).run_eq wk]
      rfl

end Reading

/-! Sessions -/

def AdminKey.isSession : AdminKey → Bool
  | .session _ => true
  | _ => false

/-- A store that may differ from another in its sessions, and in nothing else. -/
def OnlySessions (s t : AdminStore) : Prop :=
  t.WellKinded ∧ ∀ k : AdminKey, k.isSession = false → t.entry k = s.entry k

theorem OnlySessions.refl {s : AdminStore} (wk : s.WellKinded) : OnlySessions s s :=
  ⟨wk, fun _ _ => rfl⟩

theorem OnlySessions.trans {s t u : AdminStore} (one : OnlySessions s t) (two : OnlySessions t u) :
    OnlySessions s u :=
  ⟨two.1, fun k other => (two.2 k other).trans (one.2 k other)⟩

theorem OnlySessions.recordAt_eq {s t : AdminStore} (same : OnlySessions s t) {k : AdminKey}
    (other : k.isSession = false) : recordAt t k = recordAt s k :=
  recordAt_of_entry s k (same.2 k other)

theorem onlySessions_of_acts {Err A : Type} {p : Prog AdminStore Err A}
    (acts : Acts (fun c => c.key.isSession = true) p) {s : AdminStore} (wk : s.WellKinded) :
    OnlySessions s (run p s).2 := by
  obtain ⟨kinded, same⟩ := entry_of_acts (fun k => k.isSession = true) acts wk
  exact ⟨kinded, fun k other => same k (by simp [other])⟩

section Sessions
variable [Signing]

omit [Signing] in
theorem acts_liveSession (token : String) (now : Time) :
    Acts (fun c => c.key.isSession = true) (liveSession token now) := by
  apply acts_bind
  · apply acts_bind _ _ (acts_get rfl)
    rintro (_ | v)
    · trivial
    · cases v <;> trivial
  · intro session
    split
    · exact acts_bind _ _ (acts_attempt _ (acts_delete rfl)) (fun _ => trivial)
    · trivial

theorem acts_touch (ttlSeconds : Nat) (cookie : String) (now : Time) :
    Acts (fun c => c.key.isSession = true) (touch ttlSeconds cookie now) :=
  acts_bind _ _ (acts_ofExcept _) fun _ => acts_bind _ _ (acts_liveSession _ _) fun _ =>
    acts_bind _ _ (acts_setWithTtl rfl rfl) (fun _ => trivial)

theorem acts_createSession (params : NewSession) (ttlSeconds : Nat) (token id : String)
    (now : Time) :
    Acts (fun c => c.key.isSession = true) (createSession params ttlSeconds token id now) :=
  acts_bind _ _ (acts_setWithTtl rfl rfl) (fun _ => trivial)

omit [Signing] in
theorem acts_deleteByCookie (cookie : String) :
    Acts (fun c => c.key.isSession = true) (deleteByCookie cookie) := by
  unfold deleteByCookie
  split
  · trivial
  · exact acts_delete rfl

omit [Signing] in
theorem acts_sessionUser (session : Session) :
    Acts (fun c => c.key.isSession = true) (sessionUser session) := by
  apply acts_bind _ _ (acts_outcome _ (acts_getUserById _))
  rintro (e | user)
  · trivial
  · show Acts _ (if _ then _ else _)
    split <;> trivial

theorem acts_sessionIsValid (sessions : Option Nat) (cookie : Option String) (now : Time) :
    Acts (fun c => c.key.isSession = true) (sessionIsValid sessions cookie now) := by
  unfold sessionIsValid
  split
  · exact acts_bind _ _ (acts_outcome _ (acts_touch _ _ _)) (fun _ => trivial)
  · trivial

theorem acts_resolveSessionUser (sessions : Option Nat) (cookie : Option String) (now : Time) :
    Acts (fun c => c.key.isSession = true) (resolveSessionUser sessions cookie now) := by
  unfold resolveSessionUser
  split
  · apply acts_bind _ _ (acts_outcome _ (acts_touch _ _ _))
    rintro (e | session)
    · trivial
    · exact acts_sessionUser session
  · trivial

end Sessions

theorem acts_readJsonHash {A : Type} {ok : Command AdminKey AdminVal → Prop}
    (decode : AdminVal → Option A) {k : AdminKey} (family : k.family = some .hash) :
    Acts ok (readJsonHash decode k) := by
  apply acts_bind _ _ (acts_hashGet family "data")
  rintro (_ | v)
  · trivial
  · dsimp only
    cases decode v <;> trivial

theorem acts_authenticateClient [Platform] {ok : Command AdminKey AdminVal → Prop}
    (authorization : Option String) (form : TokenForm) :
    Acts ok (authenticateClient authorization form) := by
  unfold authenticateClient
  split
  · trivial
  · apply acts_bind _ _ (acts_outcome _ (acts_readJsonHash _ rfl))
    rintro (e | (_ | client))
    · trivial
    · trivial
    · show Acts ok (if _ then _ else if _ then _ else _)
      split
      · trivial
      · split <;> trivial

/-! Endpoints -/

section Endpoints
variable [Platform] {s : AdminStore} (wk : s.WellKinded)
include wk

omit [Platform] in
theorem run_authorizingClient (clientId : String) :
    (∃ e, run (authorizingClient clientId) s = (.error e, s)) ∨
    ∃ client, recordAt s (.client clientId) = some (.client client) ∧
      run (authorizingClient clientId) s = (.ok client, s) := by
  obtain ⟨answer, ran, stored⟩ := run_loadClient wk clientId
  unfold authorizingClient orRefuse
  rw [run_bind, run_mapError, ran]
  rcases answer with e | (_ | client)
  · exact .inl ⟨_, rfl⟩
  · exact .inl ⟨_, rfl⟩
  · simp only [Except.mapError, andThen_ok, run_ite]
    split
    · exact .inl ⟨_, rfl⟩
    · exact .inr ⟨client, stored client rfl, rfl⟩

/-- An authorization that is answered has left a request of the client that awaits consent. -/
theorem run_authorize (browser : Browser) (q : AuthorizeQuery) (nonce : String) (now : Time) :
    (∃ e t, run (authorize browser q nonce now) s = (.error e, t) ∧ OnlySessions s t) ∨
    ∃ base params client t, checkAuthorize q base = .ok params ∧
      recordAt s (.client params.clientId) = some (.client client) ∧ OnlySessions s t ∧
      run (authorize browser q nonce now) s =
        (.ok nonce, pendingSaved t nonce (newPending client params q now)) := by
  unfold authorize
  rw [run_bind, run_ofExcept]
  cases checked : checkAuthorize q
      (derivePublicBase browser.host browser.forwardedProto browser.trustForwarded) with
  | error e => exact .inl ⟨e, s, rfl, .refl wk⟩
  | ok params =>
    rw [andThen_ok, run_bind]
    rcases run_authorizingClient wk params.clientId with ⟨e, ran⟩ | ⟨client, stored, ran⟩
    · exact .inl ⟨e, s, by rw [ran, andThen_error], .refl wk⟩
    · rw [ran, andThen_ok, run_ite]
      split
      · exact .inl ⟨_, s, rfl, .refl wk⟩
      · have sessions := onlySessions_of_acts
          (acts_sessionIsValid browser.sessions browser.cookie now) wk
        rw [run_bind]
        rcases touched : run (sessionIsValid browser.sessions browser.cookie now) s with
          ⟨e | valid, t⟩
        · rw [touched] at sessions
          exact .inl ⟨e, t, rfl, sessions⟩
        · rw [touched] at sessions
          rw [andThen_ok, run_ite]
          split
          · exact .inl ⟨_, t, rfl, sessions⟩
          · refine .inr ⟨_, params, client, t, checked, stored, sessions, ?_⟩
            rw [run_bind, (leads_orRefuse (leads_savePending _ _)).run_eq sessions.1]
            rfl

theorem run_decideConsent (pending : PendingAuthorization) (action userId code : String)
    (now : Time) :
    (action ≠ "approve" ∧ ∃ answer, run (decideConsent pending action userId code now) s =
      (answer, s)) ∨
    (action = "approve" ∧ ∃ target, run (decideConsent pending action userId code now) s =
      (.ok target, codeSaved s (newCode pending userId code now))) := by
  unfold decideConsent
  by_cases denied : action = "deny"
  · subst denied
    exact .inl ⟨by decide, _, rfl⟩
  · simp only [if_neg denied]
    by_cases approved : action = "approve"
    · refine .inr ⟨approved, buildRedirectWithParams pending.redirectUri
        [("code", code), ("state", pending.originalState.getD "")], ?_⟩
      rw [if_neg (by simp [approved]), run_bind,
        (leads_orRefuse (leads_saveAuthorizationCode _)).run_eq wk]
      rfl
    · rw [if_pos approved]
      exact .inl ⟨approved, _, rfl⟩

/-- A consent that is not refused was given for a stored request, which it consumes. -/
theorem run_consentSubmit (sessions : Option Nat) (cookie : Option String) (form : ConsentForm)
    (code : String) (now : Time) :
    (∃ e t, run (consentSubmit sessions cookie form code now) s = (.error e, t) ∧
      OnlySessions s t) ∨
    ∃ userId pending t, run (resolveSessionUser sessions cookie now) s = (.ok (some userId), t) ∧
      OnlySessions s t ∧ recordAt s (.pending form.state) = some (.pending pending) ∧
      run (consentSubmit sessions cookie form code now) s =
        run (decideConsent pending form.action userId code now)
          (t.erase (.pending form.state)) := by
  have only := onlySessions_of_acts (acts_resolveSessionUser sessions cookie now) wk
  unfold consentSubmit
  rw [run_bind]
  rcases resolved : run (resolveSessionUser sessions cookie now) s with ⟨e | (_ | userId), t⟩
  · rw [resolved] at only
    exact .inl ⟨e, t, rfl, only⟩
  · rw [resolved] at only
    exact .inl ⟨_, t, rfl, only⟩
  · rw [resolved] at only
    simp only [andThen_ok, run_bind, orRefuse, run_mapError]
    rcases run_consumePending only.1 form.state with ⟨e, ran⟩ | ran | ⟨pending, found, ran⟩
    · exact .inl ⟨_, t, by rw [ran]; rfl, only⟩
    · exact .inl ⟨_, t, by rw [ran]; rfl, only⟩
    · rw [only.recordAt_eq rfl] at found
      exact .inr ⟨userId, pending, t, rfl, only, found, by rw [ran]; rfl⟩

end Endpoints

/-! Tokens -/

section Tokens
variable [Platform]

def tokensSaved (s : AdminStore) (clientId userId scope : String) (draws : TokenDraws) :
    AdminStore :=
  refreshSaved (accessSaved s (newAccessToken clientId userId scope draws)
    ((newAccessToken clientId userId scope draws).expiresAt - draws.savedAt))
    (newRefreshToken clientId userId scope draws)

def tokensAnswered (scope : String) (draws : TokenDraws) : TokenResponse :=
  ⟨draws.accessToken, "Bearer", accessTokenTtlSeconds, scope, some draws.refreshToken⟩

theorem leads_issueTokens (s : AdminStore) (clientId userId scope : String) (draws : TokenDraws) :
    Leads Storage.WellKinded (issueTokens clientId userId scope draws) s
      (tokensAnswered scope draws) (tokensSaved s clientId userId scope draws) :=
  (leads_orRefuse (leads_saveAccessToken _ _)).bind <|
    (leads_orRefuse (leads_saveRefreshToken _)).bind Leads.pure

theorem recordAt_tokensSaved (s : AdminStore) (clientId userId scope : String)
    (draws : TokenDraws) (k : AdminKey) (family : k.family = some .hash) :
    recordAt (tokensSaved s clientId userId scope draws) k =
      if k = .refresh (Digest.sha256Hex draws.refreshToken) then
        some (.refresh (newRefreshToken clientId userId scope draws))
      else if k = .access (Digest.sha256Hex draws.accessToken) then
        some (.access (newAccessToken clientId userId scope draws))
      else recordAt s k := by
  unfold tokensSaved
  rw [recordAt_refreshSaved _ _ _ family, recordAt_accessSaved]
  rfl

/-- What a token request can come to: refused before or after it consumed what it
    presents, or answered with new tokens. -/
inductive TokenOutcome (s : AdminStore) (authorization : Option String) (form : TokenForm)
    (draws : TokenDraws) : Except Refusal TokenResponse × AdminStore → Prop where
  | refused (e : Refusal) : TokenOutcome s authorization form draws (.error e, s)
  | codeWasted (e : Refusal) (code : String) (r : AuthorizationCode)
      (stored : recordAt s (.code code) = some (.code r)) :
      TokenOutcome s authorization form draws (.error e,
        recorded s (.code code) (.code { r with usedAt := some draws.consumedAt }))
  | refreshWasted (e : Refusal) (hash : String) (r : RefreshToken)
      (stored : recordAt s (.refresh hash) = some (.refresh r)) :
      TokenOutcome s authorization form draws (.error e,
        recorded s (.refresh hash) (.refresh { r with usedAt := some draws.consumedAt }))
  | exchanged (auth : ClientAuth) (client : OAuthClient) (params : CodeParams)
      (r : AuthorizationCode) (credentials : extractClientAuth authorization form = some auth)
      (known : recordAt s (.client auth.clientId) = some (.client client))
      (grant : form.grantType = "authorization_code") (complete : codeParams form = .ok params)
      (stored : recordAt s (.code params.code) = some (.code r))
      (accepted : codeRefused r client.clientId params.redirectUri params.verifier = none) :
      TokenOutcome s authorization form draws (.ok (tokensAnswered r.scope draws),
        tokensSaved (recorded s (.code params.code)
          (.code { r with usedAt := some draws.consumedAt })) client.clientId r.userId
            r.scope draws)
  | rotated (auth : ClientAuth) (client : OAuthClient) (presented : String) (r : RefreshToken)
      (credentials : extractClientAuth authorization form = some auth)
      (known : recordAt s (.client auth.clientId) = some (.client client))
      (grant : form.grantType = "refresh_token") (complete : refreshParam form = .ok presented)
      (stored : recordAt s (.refresh (Digest.sha256Hex presented)) = some (.refresh r))
      (accepted : r.clientId = client.clientId) :
      TokenOutcome s authorization form draws (.ok (tokensAnswered r.scope draws),
        tokensSaved (recorded s (.refresh (Digest.sha256Hex presented))
          (.refresh { r with usedAt := some draws.consumedAt })) r.clientId r.userId r.scope draws)

theorem token_outcome {s : AdminStore} (wk : s.WellKinded) (authorization : Option String)
    (form : TokenForm) (draws : TokenDraws) :
    TokenOutcome s authorization form draws (run (token authorization form draws) s) := by
  unfold token
  rw [run_bind]
  rcases run_authenticateClient wk authorization form with
    ⟨e, ran⟩ | ⟨auth, client, credentials, known, ran⟩
  · rw [ran]
    exact .refused e
  · rw [ran, andThen_ok]
    by_cases exchange : form.grantType = "authorization_code"
    · rw [if_pos exchange]
      unfold handleAuthorizationCodeGrant
      rw [run_bind, run_ofExcept]
      cases complete : codeParams form with
      | error e => exact .refused e
      | ok params =>
        simp only [andThen_ok, run_bind, orRefuse, run_mapError]
        rcases run_consumeAuthorizationCode wk params.code draws.consumedAt with
          ⟨e, consumed⟩ | consumed | ⟨r, stored, unused, consumed⟩
        · rw [consumed]
          exact .refused _
        · rw [consumed]
          exact .refused _
        · rw [consumed]
          simp only [Except.mapError, andThen_ok]
          have same : codeRefused { r with usedAt := some draws.consumedAt } client.clientId
              params.redirectUri params.verifier =
              codeRefused r client.clientId params.redirectUri params.verifier := rfl
          rw [same]
          cases accepted : codeRefused r client.clientId params.redirectUri params.verifier with
          | some e => exact .codeWasted e params.code r stored
          | none =>
            have kinded := wellKinded_recorded wk (k := .code params.code) rfl
              (.code { r with usedAt := some draws.consumedAt })
            simp only
            rw [(leads_issueTokens _ _ _ _ draws).run_eq kinded]
            exact .exchanged auth client params r credentials known exchange complete
              stored accepted
    · rw [if_neg exchange]
      by_cases rotate : form.grantType = "refresh_token"
      · rw [if_pos rotate]
        unfold handleRefreshTokenGrant
        rw [run_bind, run_ofExcept]
        cases complete : refreshParam form with
        | error e => exact .refused e
        | ok presented =>
          simp only [andThen_ok, run_bind, orRefuse, run_mapError]
          rcases run_consumeRefreshToken wk (Digest.sha256Hex presented) draws.consumedAt with
            ⟨e, consumed⟩ | consumed | ⟨r, stored, consumed⟩
          · rw [consumed]
            exact .refused _
          · rw [consumed]
            exact .refused _
          · rw [consumed]
            simp only [Except.mapError, andThen_ok, run_ite]
            by_cases foreign : r.clientId ≠ client.clientId
            · rw [if_pos foreign]
              exact .refreshWasted _ _ r stored
            · have kinded := wellKinded_recorded wk (k := .refresh (Digest.sha256Hex presented)) rfl
                (.refresh { r with usedAt := some draws.consumedAt })
              rw [if_neg foreign, (leads_issueTokens _ _ _ _ draws).run_eq kinded]
              exact .rotated auth client presented r credentials known rotate complete stored
                (by simpa using foreign)
      · rw [if_neg rotate]
        exact .refused _

end Tokens

end WireMirage
