import WireMirage.OAuth.OneShot

/-!
What a refused token request burns. The code or refresh token is marked as used before it is
checked whose it is, so a request that is refused afterwards has spent it.
-/
namespace WireMirage
open Prog

/-! Records of any store, well-kinded or not -/

section Records
variable {s : AdminStore} {k : AdminKey}

theorem run_readRecord {A : Type} (decode : AdminVal → Option A) :
    ∃ answer, run (readJsonHash decode k) s = (answer, s) ∧
      ∀ a, answer = .ok (some a) ↔ (recordAt s k).bind decode = some a := by
  unfold readJsonHash Bucket.hashGet recordAt Storage.hashAt
  rw [run_bind, run_command, Storage.hashGet]
  rcases s.lookup k with _ | v
  · exact ⟨_, rfl, by simp [Storage.asHash]⟩
  · cases v with
    | hash h =>
      simp only [Except.mapError, andThen_ok, Storage.asHash]
      cases h.lookup "data" with
      | none => exact ⟨_, rfl, by simp⟩
      | some v =>
        simp only [Option.bind_some]
        cases decode v with
        | none => exact ⟨_, rfl, by simp⟩
        | some r => exact ⟨_, rfl, by simp⟩
    | _ => exact ⟨_, rfl, by simp [Storage.asHash]⟩

theorem run_writeRecord {old : AdminVal} (stored : recordAt s k = some old) (v : AdminVal) :
    run (writeJsonHash k v) s = (.ok (), recorded s k v) := by
  unfold writeJsonHash Bucket.hashSet recorded Storage.putHash
  unfold recordAt at stored
  rw [run_command, Storage.hashSet]
  unfold Storage.hashAt at stored ⊢
  cases found : s.lookup k with
  | none => simp [found, Storage.asHash] at stored
  | some held =>
    cases held with
    | hash h => rfl
    | _ => simp [found, Storage.asHash] at stored

/-- A record that is marked as it is taken, unless it is spent. -/
def consumeOnce {A : Type} (decode : AdminVal → Option A) (encode : A → AdminVal)
    (spent : A → Bool) (mark : A → A) (k : AdminKey) : OAuthProg (Option A) := do
  match ← readJsonHash decode k with
  | none => return none
  | some record =>
    if spent record then return none
    else do
      writeJsonHash k (encode (mark record))
      return some (mark record)

section Consuming
variable {A : Type} {decode : AdminVal → Option A} (encode : A → AdminVal) {spent : A → Bool}
  (mark : A → A)

theorem run_consumeOnce {r : A} (stored : (recordAt s k).bind decode = some r)
    (unspent : spent r = false) : run (consumeOnce decode encode spent mark k) s =
      (.ok (some (mark r)), recorded s k (encode (mark r))) := by
  obtain ⟨answer, ran, reads⟩ := run_readRecord (s := s) (k := k) decode
  obtain ⟨old, found, _⟩ := Option.bind_eq_some_iff.mp stored
  unfold consumeOnce
  rw [run_bind, ran, (reads r).mpr stored, andThen_ok]
  simp only [unspent, Bool.false_eq_true, if_false]
  rw [run_bind, run_writeRecord found, andThen_ok]
  rfl

theorem run_consumeOnce_idle
    (idle : ∀ r, (recordAt s k).bind decode = some r → spent r = true) :
    ∃ answer, run (consumeOnce decode encode spent mark k) s = (answer, s) ∧
      ∀ r, answer ≠ .ok (some r) := by
  obtain ⟨answer, ran, reads⟩ := run_readRecord (s := s) (k := k) decode
  unfold consumeOnce
  rw [run_bind, ran]
  rcases answer with e | (_ | r)
  · exact ⟨.error e, rfl, by simp⟩
  · exact ⟨.ok none, rfl, by simp⟩
  · have used := idle r ((reads r).mp rfl)
    simp only [andThen_ok, used, if_true]
    exact ⟨.ok none, rfl, by simp⟩

end Consuming

theorem consumeAuthorizationCode_eq (code : String) (now : Time) :
    consumeAuthorizationCode code now = consumeOnce AdminVal.asCode .code
      (fun r => r.usedAt.isSome) (fun r => { r with usedAt := some now }) (.code code) := by
  unfold consumeAuthorizationCode consumeOnce
  congr 1
  funext found
  cases found <;> rfl

theorem consumeRefreshToken_eq (hash : String) (now : Time) :
    consumeRefreshToken hash now = consumeOnce AdminVal.asRefresh .refresh
      (fun r => r.usedAt.isSome || r.revokedAt.isSome)
      (fun r => { r with usedAt := some now }) (.refresh hash) := by
  unfold consumeRefreshToken consumeOnce loadRefreshToken
  congr 1
  funext found
  cases found with
  | none => rfl
  | some record => simp only [Bool.or_eq_true]

end Records

/-! Refusals -/

/-- `invalid_request` and `invalid_grant`. -/
def Refusal.Invalid : Refusal → Prop
  | .oauth _ error _ => error = "invalid_request" ∨ error = "invalid_grant"
  | _ => False

def AdminKey.isGrant : AdminKey → Bool
  | .code _ => true
  | .refresh _ => true
  | _ => false

theorem invalid_grant (status : Nat) (description : String) :
    (Refusal.oauth status "invalid_grant" description).Invalid := .inr rfl

theorem orRefuse_error {A : Type} {refusal e : Refusal} {p : OAuthProg A} {s : AdminStore}
    (failed : (run (orRefuse refusal p) s).1 = .error e) : e = refusal := by
  unfold orRefuse at failed
  rw [run_mapError] at failed
  cases read : (run p s).1 with
  | error inner =>
    rw [read] at failed
    exact (Except.error.inj failed).symm
  | ok a =>
    rw [read] at failed
    cases failed

theorem serverError_not_invalid : ¬ serverError.Invalid := by
  unfold Refusal.Invalid serverError
  decide

section Requests
variable [Platform]

/-- A request that is refused for what it presents leaves every stored code and refresh token,
    and every request that would have been answered with tokens still is. -/
def BurnsNothing (s : AdminStore) (reply : Except Refusal TokenResponse × AdminStore) : Prop :=
  ∀ e, reply.1 = .error e → e.Invalid →
    (∀ k : AdminKey, k.isGrant = true → reply.2.entry k = s.entry k) ∧
    ∀ authorization form draws response,
      (run (token authorization form draws) s).1 = .ok response →
      (run (token authorization form draws) reply.2).1 = .ok response

/-- A stored credential that is not spent is presented by a client it was not issued to, or
    without what it is bound to. -/
inductive Misuses (client : OAuthClient) (form : TokenForm) (s : AdminStore) : Prop
  | code (params : CodeParams) (r : AuthorizationCode) :
      form.grantType = "authorization_code" → codeParams form = .ok params →
      recordAt s (.code params.code) = some (.code r) → r.usedAt = none →
      r.clientId ≠ client.clientId ∨ r.redirectUri ≠ params.redirectUri ∨
        verifyPkce r.codeChallenge params.verifier = false → Misuses client form s
  | refresh (presented : String) (r : RefreshToken) :
      form.grantType = "refresh_token" → refreshParam form = .ok presented →
      recordAt s (.refresh (Digest.sha256Hex presented)) = some (.refresh r) →
      r.usedAt = none → r.revokedAt = none → r.clientId ≠ client.clientId →
      Misuses client form s

section Replies
variable {s : AdminStore} {reply : Except Refusal TokenResponse × AdminStore}

theorem burnsNothing_same (same : reply.2 = s) : BurnsNothing s reply := by
  intro e _ _
  rw [same]
  exact ⟨fun _ _ => rfl, fun _ _ _ _ answered => answered⟩

theorem burnsNothing_other (other : ∀ e, reply.1 = .error e → e = serverError) :
    BurnsNothing s reply := by
  intro e failed invalid
  rw [other e failed] at invalid
  exact absurd invalid serverError_not_invalid

theorem burns_recorded {e : Refusal} {k : AdminKey} {v : AdminVal} (invalid : e.Invalid)
    (grant : k.isGrant = true) (changed : recordAt s k ≠ some v) :
    ¬ BurnsNothing s (.error e, recorded s k v) := by
  intro nothing
  have kept := (nothing e rfl invalid).1 k grant
  have read := recordAt_of_entry s k kept
  rw [recordAt_recorded, if_pos rfl] at read
  exact changed read.symm

end Replies

theorem issueTokens_error {clientId userId scope : String} {draws : TokenDraws} {e : Refusal}
    {s : AdminStore} (failed : (run (issueTokens clientId userId scope draws) s).1 = .error e) :
    e = serverError := by
  unfold issueTokens at failed
  rw [run_bind] at failed
  rcases first : run (orRefuse serverError (saveAccessToken
      (newAccessToken clientId userId scope draws)
      ((newAccessToken clientId userId scope draws).expiresAt - draws.savedAt))) s with
    ⟨e' | _, t⟩
  · rw [first, andThen_error] at failed
    rw [← Except.error.inj failed]
    exact orRefuse_error (congrArg Prod.fst first)
  · rw [first, andThen_ok, run_bind] at failed
    rcases second : run (orRefuse serverError
        (saveRefreshToken (newRefreshToken clientId userId scope draws))) t with ⟨e' | _, u⟩
    · rw [second, andThen_error] at failed
      rw [← Except.error.inj failed]
      exact orRefuse_error (congrArg Prod.fst second)
    · rw [second, andThen_ok] at failed
      cases failed

/-! The two grants -/

theorem authenticateClient_still (authorization : Option String) (form : TokenForm)
    (s : AdminStore) : (run (authenticateClient authorization form) s).2 = s := by
  unfold authenticateClient
  cases extractClientAuth authorization form with
  | none => rfl
  | some auth =>
    obtain ⟨answer, ran, _⟩ := run_readRecord (s := s) (k := .client auth.clientId)
      AdminVal.asClient
    have loaded : run (loadClient auth.clientId) s = (answer, s) := ran
    simp only [run_bind, run_outcome, loaded, andThen_ok]
    rcases answer with e | (_ | found)
    · rfl
    · rfl
    · simp only [run_ite]
      split
      · rfl
      · split <;> rfl

/-- What is taken before it is checked is burned exactly when the check then fails. -/
theorem taking_burns_iff {A : Type} (s : AdminStore) (decode : AdminVal → Option A)
    (encode : A → AdminVal) (spent : A → Bool) (mark : A → A) (k : AdminKey)
    (next : A → Flow TokenResponse) (wrong : A → Prop) (missing : Refusal)
    (grant : k.isGrant = true)
    (marked : ∀ r v, decode v = some r → spent r = false → v ≠ encode (mark r))
    (refuses : ∀ r t, wrong r → ∃ e : Refusal, e.Invalid ∧ run (next (mark r)) t = (.error e, t))
    (issues : ∀ r t e, ¬ wrong r → (run (next (mark r)) t).1 = .error e → e = serverError) :
    BurnsNothing s (run (orRefuse serverError (consumeOnce decode encode spent mark k) >>=
      fun found => found.elim (Prog.fail missing) next) s) ↔
      ¬ ∃ r, (recordAt s k).bind decode = some r ∧ spent r = false ∧ wrong r := by
  rw [run_bind, orRefuse, run_mapError]
  by_cases held : ∃ r, (recordAt s k).bind decode = some r ∧ spent r = false
  · obtain ⟨r, stored, unspent⟩ := held
    rw [run_consumeOnce encode mark stored unspent]
    simp only [Except.mapError, andThen_ok, Option.elim_some]
    by_cases bad : wrong r
    · obtain ⟨e, invalid, failed⟩ := refuses r (recorded s k (encode (mark r))) bad
      obtain ⟨v, found, decoded⟩ := Option.bind_eq_some_iff.mp stored
      have changed : recordAt s k ≠ some (encode (mark r)) := by
        rw [found]
        intro same
        exact marked r v decoded unspent (Option.some.inj same)
      rw [failed]
      exact iff_of_false (burns_recorded invalid grant changed)
        (not_not_intro ⟨r, stored, unspent, bad⟩)
    · refine iff_of_true (burnsNothing_other (fun e => issues r _ e bad)) ?_
      rintro ⟨r', stored', _, bad'⟩
      cases stored.symm.trans stored'
      exact bad bad'
  · have idle : ∀ r, (recordAt s k).bind decode = some r → spent r = true := by
      intro r stored
      cases used : spent r with
      | true => rfl
      | false => exact absurd ⟨r, stored, used⟩ held
    obtain ⟨answer, ran, nothing⟩ := run_consumeOnce_idle encode mark idle
    rw [ran]
    refine iff_of_true (burnsNothing_same ?_) ?_
    · rcases answer with e | (_ | r)
      · rfl
      · rfl
      · exact absurd rfl (nothing r)
    · rintro ⟨r, stored, unspent, _⟩
      exact held ⟨r, stored, unspent⟩

/-- A code that does not go with the request. -/
def CodeMismatch (client : OAuthClient) (params : CodeParams) (r : AuthorizationCode) : Prop :=
  r.clientId ≠ client.clientId ∨ r.redirectUri ≠ params.redirectUri ∨
    verifyPkce r.codeChallenge params.verifier = false

theorem codeRefused_cases (client : OAuthClient) (params : CodeParams) (r : AuthorizationCode) :
    (CodeMismatch client params r ∧ ∃ e : Refusal, e.Invalid ∧
      codeRefused r client.clientId params.redirectUri params.verifier = some e) ∨
    (¬ CodeMismatch client params r ∧
      codeRefused r client.clientId params.redirectUri params.verifier = none) := by
  unfold codeRefused CodeMismatch
  by_cases own : r.clientId = client.clientId
  · rw [if_neg (not_not_intro own)]
    by_cases bound : r.redirectUri = params.redirectUri
    · rw [if_neg (not_not_intro bound)]
      cases proof : verifyPkce r.codeChallenge params.verifier with
      | false => exact .inl ⟨.inr (.inr rfl), _, invalid_grant _ _, rfl⟩
      | true => exact .inr ⟨by simp [own, bound], rfl⟩
    · rw [if_pos bound]
      exact .inl ⟨.inr (.inl bound), _, invalid_grant _ _, rfl⟩
  · rw [if_pos own]
    exact .inl ⟨.inl own, _, invalid_grant _ _, rfl⟩

/-- What becomes of a code that was taken. -/
def redeemCode (client : OAuthClient) (params : CodeParams) (draws : TokenDraws)
    (consumed : AuthorizationCode) : Flow TokenResponse :=
  (codeRefused consumed client.clientId params.redirectUri params.verifier).elim
    (issueTokens client.clientId consumed.userId consumed.scope draws) Prog.fail

theorem codeGrant_eq {form : TokenForm} {params : CodeParams}
    (complete : codeParams form = .ok params) (client : OAuthClient) (draws : TokenDraws) :
    handleAuthorizationCodeGrant client form draws =
      (orRefuse serverError (consumeOnce AdminVal.asCode .code (fun r => r.usedAt.isSome)
          (fun r => { r with usedAt := some draws.consumedAt }) (.code params.code)) >>=
        fun found => found.elim (Prog.fail (.oauth 400 "invalid_grant"
          "authorization code not found, already used, or expired"))
          (redeemCode client params draws)) := by
  unfold handleAuthorizationCodeGrant
  rw [complete, ← consumeAuthorizationCode_eq]
  show (orRefuse _ _ >>= _) = (orRefuse _ _ >>= _)
  congr 1
  funext found
  rcases found with _ | consumed
  · rfl
  · simp only [Option.elim_some, redeemCode]
    cases codeRefused consumed client.clientId params.redirectUri params.verifier <;> rfl

theorem code_burns_nothing_iff (client : OAuthClient) (form : TokenForm) (draws : TokenDraws)
    (s : AdminStore) (grant : form.grantType = "authorization_code") :
    BurnsNothing s (run (handleAuthorizationCodeGrant client form draws) s) ↔
      ¬ Misuses client form s := by
  cases complete : codeParams form with
  | error e =>
    unfold handleAuthorizationCodeGrant
    rw [complete]
    refine iff_of_true (burnsNothing_same rfl) ?_
    rintro (⟨params, r, _, complete', _⟩ | ⟨_, _, grant', _⟩)
    · rw [complete] at complete'
      cases complete'
    · rw [grant] at grant'
      exact absurd grant' (by decide)
  | ok params =>
    rw [codeGrant_eq complete, taking_burns_iff s AdminVal.asCode .code _ _ (.code params.code)
      (redeemCode client params draws) (CodeMismatch client params) _ rfl]
    · apply not_congr
      constructor
      · rintro ⟨r, stored, unspent, bad⟩
        obtain ⟨v, found, decoded⟩ := Option.bind_eq_some_iff.mp stored
        rw [code_of_asCode decoded] at found
        exact .code params r grant complete found (by simpa using unspent) bad
      · rintro (⟨params', r, _, complete', found, unused, bad⟩ | ⟨_, _, grant', _⟩)
        · cases complete.symm.trans complete'
          exact ⟨r, by rw [found]; rfl, by simp [unused], bad⟩
        · rw [grant] at grant'
          exact absurd grant' (by decide)
    · intro r v decoded unspent same
      rw [code_of_asCode decoded] at same
      have marked := congrArg AuthorizationCode.usedAt (AdminVal.code.inj same)
      rw [marked] at unspent
      cases unspent
    · intro r t bad
      have same : codeRefused { r with usedAt := some draws.consumedAt } client.clientId
          params.redirectUri params.verifier =
          codeRefused r client.clientId params.redirectUri params.verifier := rfl
      rcases codeRefused_cases client params r with ⟨_, e, invalid, refused⟩ | ⟨good, _⟩
      · refine ⟨e, invalid, ?_⟩
        rw [redeemCode, same, refused]
        rfl
      · exact absurd bad good
    · intro r t e good failed
      have same : codeRefused { r with usedAt := some draws.consumedAt } client.clientId
          params.redirectUri params.verifier =
          codeRefused r client.clientId params.redirectUri params.verifier := rfl
      rcases codeRefused_cases client params r with ⟨bad, _⟩ | ⟨_, accepted⟩
      · exact absurd bad good
      · rw [redeemCode, same, accepted] at failed
        exact issueTokens_error failed

/-- What becomes of a refresh token that was taken. -/
def redeemRefresh (client : OAuthClient) (draws : TokenDraws) (consumed : RefreshToken) :
    Flow TokenResponse :=
  if consumed.clientId ≠ client.clientId then
    Prog.fail (.oauth 400 "invalid_grant" "refresh token does not belong to this client")
  else issueTokens consumed.clientId consumed.userId consumed.scope draws

theorem refreshGrant_eq {form : TokenForm} {presented : String}
    (complete : refreshParam form = .ok presented) (client : OAuthClient) (draws : TokenDraws) :
    handleRefreshTokenGrant client form draws =
      (orRefuse serverError (consumeOnce AdminVal.asRefresh .refresh
          (fun r => r.usedAt.isSome || r.revokedAt.isSome)
          (fun r => { r with usedAt := some draws.consumedAt })
          (.refresh (Digest.sha256Hex presented))) >>=
        fun found => found.elim (Prog.fail (.oauth 400 "invalid_grant"
          "refresh token not found, already used, revoked, or expired"))
          (redeemRefresh client draws)) := by
  unfold handleRefreshTokenGrant
  rw [complete, ← consumeRefreshToken_eq]
  show (orRefuse _ _ >>= _) = (orRefuse _ _ >>= _)
  congr 1
  funext found
  rcases found with _ | consumed <;> rfl

theorem refresh_burns_nothing_iff (client : OAuthClient) (form : TokenForm) (draws : TokenDraws)
    (s : AdminStore) (grant : form.grantType = "refresh_token") :
    BurnsNothing s (run (handleRefreshTokenGrant client form draws) s) ↔
      ¬ Misuses client form s := by
  cases complete : refreshParam form with
  | error e =>
    unfold handleRefreshTokenGrant
    rw [complete]
    refine iff_of_true (burnsNothing_same rfl) ?_
    rintro (⟨_, _, grant', _⟩ | ⟨presented, r, _, complete', _⟩)
    · rw [grant] at grant'
      exact absurd grant' (by decide)
    · rw [complete] at complete'
      cases complete'
  | ok presented =>
    rw [refreshGrant_eq complete, taking_burns_iff s AdminVal.asRefresh .refresh _ _
      (.refresh (Digest.sha256Hex presented)) (redeemRefresh client draws)
      (fun r => r.clientId ≠ client.clientId) _ rfl]
    · apply not_congr
      constructor
      · rintro ⟨r, stored, unspent, foreign⟩
        obtain ⟨v, found, decoded⟩ := Option.bind_eq_some_iff.mp stored
        rw [refresh_of_asRefresh decoded] at found
        rw [Bool.or_eq_false_iff] at unspent
        exact .refresh presented r grant complete found (by simpa using unspent.1)
          (by simpa using unspent.2) foreign
      · rintro (⟨_, _, grant', _⟩ | ⟨presented', r, _, complete', found, unused, live, foreign⟩)
        · rw [grant] at grant'
          exact absurd grant' (by decide)
        · cases complete.symm.trans complete'
          exact ⟨r, by rw [found]; rfl, by simp [unused, live], foreign⟩
    · intro r v decoded unspent same
      rw [refresh_of_asRefresh decoded] at same
      have marked := congrArg RefreshToken.usedAt (AdminVal.refresh.inj same)
      rw [marked] at unspent
      cases unspent
    · intro r t foreign
      rw [redeemRefresh, if_pos foreign]
      exact ⟨_, invalid_grant _ _, rfl⟩
    · intro r t e own failed
      rw [redeemRefresh, if_neg own] at failed
      exact issueTokens_error failed

/-! Any token request -/

theorem refused_request_burns_nothing_iff (s : AdminStore) (authorization : Option String)
    (form : TokenForm) (draws : TokenDraws) (client : OAuthClient)
    (authenticated : (run (authenticateClient authorization form) s).1 = .ok client) :
    BurnsNothing s (run (token authorization form draws) s) ↔ ¬ Misuses client form s := by
  have let_in : run (authenticateClient authorization form) s = (.ok client, s) :=
    Prod.ext authenticated (authenticateClient_still authorization form s)
  unfold token
  rw [run_bind, let_in, andThen_ok]
  by_cases code : form.grantType = "authorization_code"
  · rw [if_pos code]
    exact code_burns_nothing_iff client form draws s code
  · rw [if_neg code]
    by_cases refresh : form.grantType = "refresh_token"
    · rw [if_pos refresh]
      exact refresh_burns_nothing_iff client form draws s refresh
    · rw [if_neg refresh]
      refine iff_of_true (burnsNothing_same rfl) ?_
      rintro (⟨_, _, grant, _⟩ | ⟨_, _, grant, _⟩)
      · exact code grant
      · exact refresh grant

end Requests

namespace Sample

def rivalId : String := "wmc_BBBBBBBBBBBBBBBBBBBBBA"

/-- Another client is registered while the code is held. -/
def rivalry : AdminStore :=
  recorded codeHeld.shared (.client rivalId) (.client { desktop with clientId := rivalId })

def theft : TokenForm := { exchange with clientId := some rivalId }

/-- The client's own exchange, without what its challenge is compared with. -/
def unverified : TokenForm := { exchange with codeVerifier := none }

def theftDraws : TokenDraws := ⟨accessToken, refreshToken, 3, 3, 3⟩

end Sample

open Sample in
/-- A request without a verifier is refused, and the code it presents is still good. -/
theorem refused_request_burns_nothing_code :
    (run (token none unverified theftDraws) rivalry).1 =
        .error (.oauth 400 "invalid_request" "missing PKCE `code_verifier`") ∧
      BurnsNothing rivalry (run (token none unverified theftDraws) rivalry) ∧
      (run (token none exchange theftDraws)
        (run (token none unverified theftDraws) rivalry).2).1 =
          .ok (tokensAnswered "*" theftDraws) := by
  have authenticated : (run (authenticateClient none unverified) rivalry).1 = .ok desktop := by
    decide +kernel
  have refused : (run (token none unverified theftDraws) rivalry).1 =
      .error (.oauth 400 "invalid_request" "missing PKCE `code_verifier`") := by
    decide +kernel
  have before : (run (token none exchange theftDraws) rivalry).1 =
      .ok (tokensAnswered "*" theftDraws) := by
    decide +kernel
  have apt : ¬ Misuses desktop unverified rivalry := by
    rintro (⟨params, r, _, complete, _⟩ | ⟨_, _, grant, _⟩)
    · cases complete
    · revert grant
      decide
  have nothing := (refused_request_burns_nothing_iff rivalry none unverified theftDraws desktop
    authenticated).mpr apt
  exact ⟨refused, nothing, (nothing _ refused (.inl rfl)).2 none exchange theftDraws _ before⟩

open Sample in
/-- A client that presents another one's code is refused, and the other one is refused then. -/
theorem refused_request_burns_code :
    (run (authenticateClient none theft) rivalry).1 =
        .ok { desktop with clientId := rivalId } ∧
      ¬ BurnsNothing rivalry (run (token none theft theftDraws) rivalry) := by
  refine ⟨by decide +kernel, ?_⟩
  intro nothing
  have refused : (run (token none theft theftDraws) rivalry).1 =
      .error (.oauth 400 "invalid_grant" "code does not belong to this client") := by
    decide +kernel
  have before : (run (token none exchange theftDraws) rivalry).1 =
      .ok (tokensAnswered "*" theftDraws) := by
    decide +kernel
  have after := (nothing _ refused (invalid_grant _ _)).2 none exchange theftDraws _ before
  revert after
  decide +kernel

end WireMirage
