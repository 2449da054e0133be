import WireMirage.Auth.Deletion
import WireMirage.OAuth.Specs

/-!
Where tokens come from. Beside the store, what was asked of the endpoints and answered
is kept; every token that was handed out leads back through it to one approval.
-/
namespace WireMirage
open Prog StepMachine

/-! What clients and users have done -/

/-- An approval of a request by the user of a session, and the code it minted. -/
structure Approval where
  user : String
  state : String
  code : String
  deriving DecidableEq

inductive Presented where
  | code (code redirectUri verifier : String)
  | refresh (token : String)
  deriving DecidableEq

/-- An answered token request: who asked, with what, the answer and the records it left. -/
structure Issue where
  client : Option String
  presented : Option Presented
  response : TokenResponse
  access : Option AdminVal
  refresh : Option AdminVal
  deriving DecidableEq

structure FlowState where
  store : AdminStore
  drawn : List String
  asked : List (String × AuthorizeQuery)
  approved : List Approval
  issued : List Issue

inductive FlowAction where
  | register (body : RegisterBody) (draws : ClientDraws) (now : Time)
  | authorize (browser : Browser) (query : AuthorizeQuery) (nonce : String) (now : Time)
  | consentSubmit (sessions : Option Nat) (cookie : Option String) (form : ConsentForm)
      (code : String) (now : Time)
  | token (authorization : Option String) (form : TokenForm) (draws : TokenDraws)
  | revoke (authorization : Option String) (form : RevokeForm) (now : Time)
  | revokeGrants (userId clientId : String) (now : Time)
  | revokeClient (clientId : String) (now : Time)
  | createSession (params : NewSession) (ttlSeconds : Nat) (token id : String) (now : Time)
  | deleteSession (cookie : String)
  | account (a : AccountAction)
  | wait (seconds : Nat)

def presentedBy (form : TokenForm) : Option Presented :=
  if form.grantType = "authorization_code" then
    (codeParams form).toOption.map (fun p => .code p.code p.redirectUri p.verifier)
  else (refreshParam form).toOption.map .refresh

/-- What a token request that was answered adds to the tokens handed out. -/
def issuedBy [Platform] (authorization : Option String) (form : TokenForm) :
    Except Refusal TokenResponse × AdminStore → List Issue
  | (.ok response, t) =>
    [{ client := (extractClientAuth authorization form).map ClientAuth.clientId
       presented := presentedBy form
       response := response
       access := recordAt t (.access (Digest.sha256Hex response.accessToken))
       refresh := response.refreshToken.bind fun plaintext =>
         recordAt t (.refresh (Digest.sha256Hex plaintext)) }]
  | (.error _, _) => []

namespace FlowAction

def draws : FlowAction → List String
  | register _ draws _ => [draws.clientId, draws.clientSecret]
  | authorize _ _ nonce _ => [nonce]
  | consentSubmit _ _ _ code _ => [code]
  | token _ _ draws => [draws.accessToken, draws.refreshToken]
  | _ => []

variable [Platform] (s : AdminStore)

def change [DateText] : FlowAction → AdminStore
  | register body draws now => (run (WireMirage.register body draws now) s).2
  | authorize browser query nonce now => (run (WireMirage.authorize browser query nonce now) s).2
  | consentSubmit sessions cookie form code now =>
      (run (WireMirage.consentSubmit sessions cookie form code now) s).2
  | token authorization form draws => (run (WireMirage.token authorization form draws) s).2
  | revoke authorization form now => (run (WireMirage.revoke authorization form now) s).2
  | revokeGrants userId clientId now => (run (revokeGrantsForClient userId clientId now) s).2
  | revokeClient clientId now => (run (WireMirage.revokeClient clientId now) s).2
  | createSession params ttl secret id now =>
      (run (WireMirage.createSession params ttl secret id now) s).2
  | deleteSession cookie => (run (deleteByCookie cookie) s).2
  | account a => a.change s
  | wait seconds => s.advance seconds

def asks : FlowAction → List (String × AuthorizeQuery)
  | authorize browser query nonce now =>
      match (run (WireMirage.authorize browser query nonce now) s).1 with
      | .ok state => [(state, query)]
      | .error _ => []
  | _ => []

def approves : FlowAction → List Approval
  | consentSubmit sessions cookie form code now =>
      match (run (resolveSessionUser sessions cookie now) s).1,
        (run (WireMirage.consentSubmit sessions cookie form code now) s).1 with
      | .ok (some user), .ok _ =>
        if form.action = "approve" then [⟨user, form.state, code⟩] else []
      | _, _ => []
  | _ => []

def issues : FlowAction → List Issue
  | token authorization form draws =>
      issuedBy authorization form (run (WireMirage.token authorization form draws) s)
  | _ => []

/-- Tokens are written by the endpoints alone. -/
def allowed : FlowAction → Bool
  | account (.saveAccessToken _ _ _) => false
  | _ => true

end FlowAction

/-- The endpoints one request after another, with sessions and accounts around them, from any
    store without records of the OAuth server. -/
def flows [Platform] [DateText] : Machine FlowState FlowAction where
  start s := s.store.WellKinded ∧ (∀ k, recordAt s.store k = none) ∧ s.asked = [] ∧
    s.approved = [] ∧ s.issued = []
  step s a :=
    if a.allowed ∧ a.draws.Nodup ∧ ∀ x ∈ a.draws, x ∉ s.drawn then
      some ⟨a.change s.store, a.draws ++ s.drawn, a.asks s.store ++ s.asked,
        a.approves s.store ++ s.approved, a.issues s.store ++ s.issued⟩
    else none

/-! Where a token leads -/

/-- Tokens that were refreshed from other tokens, back to those that a code was exchanged for,
    where all of the answers on the way are as `every` says. -/
inductive Chain (issued : List Issue) (every : Issue → Prop) : Issue → Issue → Prop where
  | root {i : Issue} (member : i ∈ issued) (here : every i) : Chain issued every i i
  | next {i j k : Issue} {token : String} (before : Chain issued every i j) (member : k ∈ issued)
      (here : every k) (rotated : k.presented = some (.refresh token))
      (handed : j.response.refreshToken = some token) : Chain issued every i k

/-- The tokens of an answer are for a user, a client and a scope: so say both records. -/
structure Issue.IsFor [Platform] (i : Issue) (user client scope : String) : Prop where
  accessFor : ∃ r : AccessToken, i.access = some (.access r) ∧ r.userId = user ∧
    r.clientId = client ∧ r.scope = scope ∧
    r.tokenHash = Digest.sha256Hex i.response.accessToken
  refreshFor : ∃ (token : String) (r : RefreshToken), i.response.refreshToken = some token ∧
    i.refresh = some (.refresh r) ∧ r.userId = user ∧ r.clientId = client ∧ r.scope = scope ∧
    r.tokenHash = Digest.sha256Hex token
  asker : i.client = some client
  answered : i.response.scope = scope

/-- An answer leads to an approval and the request that it approved. -/
structure TracesTo (s : FlowState) (i root : Issue) (a : Approval) (q : AuthorizeQuery) : Prop where
  chain : Chain s.issued (fun _ => True) root i
  exchanged : ∃ redirectUri verifier, root.presented = some (.code a.code redirectUri verifier)
  approved : a ∈ s.approved
  asked : (a.state, q) ∈ s.asked

/-- The approval allows just the tokens: it is of a request by the client for the scope, the
    code was presented by the client as the request demands, and all tokens in between
    are for the same user, client and scope. -/
structure Allows [Platform] (issued : List Issue) (i root : Issue) (a : Approval)
    (q : AuthorizeQuery) (user client scope : String) : Prop where
  approver : a.user = user
  requester : q.clientId = some client
  requested : q.scope.getD "*" = scope
  presented : ∃ redirectUri verifier, root.presented = some (.code a.code redirectUri verifier) ∧
    q.redirectUri = some redirectUri ∧ q.codeChallenge = some (Digest.challenge verifier)
  preserved : Chain issued (fun j => j.IsFor user client scope) root i

structure Provenance [Platform] (s : FlowState) (i : Issue)
    (user client scope : String) : Prop where
  isFor : i.IsFor user client scope
  allowed : ∃ root a q, TracesTo s i root a q ∧ Allows s.issued i root a q user client scope
  once : ∀ root a q root' a' q', TracesTo s i root a q → TracesTo s i root' a' q' →
    root = root' ∧ a = a' ∧ q = q'

/-! What each record rests on -/

/-- A record without the marks that using or revoking it leaves. -/
def AdminVal.unmarked : AdminVal → AdminVal
  | .client r => .client { r with revokedAt := none }
  | .code r => .code { r with usedAt := none }
  | .refresh r => .refresh { r with usedAt := none, revokedAt := none }
  | v => v

/-- The keys of the records of the OAuth server. -/
def AdminKey.ofFlows : AdminKey → Bool
  | .client _ => true
  | .pending _ => true
  | .code _ => true
  | .refresh _ => true
  | .access _ => true
  | _ => false

/-- A later store whose records are records of an earlier one, up to their marks. -/
structure Derived (s t : AdminStore) : Prop where
  kinded : t.WellKinded
  old : ∀ k v, k.ofFlows = true → recordAt t k = some v →
    ∃ w, recordAt s k = some w ∧ w.unmarked = v.unmarked

structure AuthorizeQuery.Asks (q : AuthorizeQuery) (client redirectUri challenge scope : String) :
    Prop where
  client : q.clientId = some client
  redirectUri : q.redirectUri = some redirectUri
  challenge : q.codeChallenge = some challenge
  scope : q.scope.getD "*" = scope

/-- Every record has a reason in what was asked, approved and issued before. -/
structure Backed [Platform] (asked : List (String × AuthorizeQuery)) (approved : List Approval)
    (issued : List Issue) (s : AdminStore) : Prop where
  kinded : s.WellKinded
  client : ∀ id r, recordAt s (.client id) = some (.client r) → r.clientId = id
  pending : ∀ state r, recordAt s (.pending state) = some (.pending r) →
    ∃ q, (state, q) ∈ asked ∧ q.Asks r.clientId r.redirectUri r.codeChallenge r.scope
  code : ∀ code r, recordAt s (.code code) = some (.code r) → ∃ a q, a ∈ approved ∧
    a.code = code ∧ a.user = r.userId ∧ (a.state, q) ∈ asked ∧
    q.Asks r.clientId r.redirectUri r.codeChallenge r.scope
  refresh : ∀ hash r, recordAt s (.refresh hash) = some (.refresh r) → r.tokenHash = hash ∧
    ∃ i token, i ∈ issued ∧ i.response.refreshToken = some token ∧
      Digest.sha256Hex token = hash ∧ i.IsFor r.userId r.clientId r.scope

theorem Derived.refl {s : AdminStore} (wk : s.WellKinded) : Derived s s :=
  ⟨wk, fun _ v _ found => ⟨v, found, rfl⟩⟩

theorem Derived.trans {s t u : AdminStore} (one : Derived s t) (two : Derived t u) :
    Derived s u := by
  refine ⟨two.kinded, ?_⟩
  intro k v other found
  obtain ⟨w, before, same⟩ := two.old k v other found
  obtain ⟨x, first, alike⟩ := one.old k w other before
  exact ⟨x, first, alike.trans same⟩

theorem derived_of_entries {s t : AdminStore} (kinded : t.WellKinded)
    (same : ∀ k : AdminKey, k.ofFlows = true → t.entry k = s.entry k) : Derived s t := by
  refine ⟨kinded, ?_⟩
  intro k v ours found
  rw [recordAt_of_entry s k (same k ours)] at found
  exact ⟨v, found, rfl⟩

theorem derived_of_sessions {s t : AdminStore} (only : OnlySessions s t) : Derived s t := by
  apply derived_of_entries only.1
  intro k ours
  cases k <;> first | exact only.2 _ rfl | cases ours

theorem derived_advance {s : AdminStore} (wk : s.WellKinded) (seconds : Nat) :
    Derived s (s.advance seconds) := by
  refine ⟨Storage.wellKinded_advance wk seconds, ?_⟩
  intro k v other found
  rcases recordAt_advance s k seconds with gone | same
  · rw [gone] at found
    cases found
  · rw [same] at found
    exact ⟨v, found, rfl⟩

theorem derived_erase {s : AdminStore} (wk : s.WellKinded) (k : AdminKey) :
    Derived s (s.erase k) := by
  refine ⟨Storage.wellKinded_erase wk, ?_⟩
  intro k' v other found
  rw [recordAt_erase] at found
  split at found
  · cases found
  · exact ⟨v, found, rfl⟩

/-- Marking a record that is stored. -/
theorem derived_recorded {s : AdminStore} (wk : s.WellKinded) {k : AdminKey}
    (family : k.family = some .hash) {v w : AdminVal} (stored : recordAt s k = some w)
    (marked : w.unmarked = v.unmarked) : Derived s (recorded s k v) := by
  refine ⟨wellKinded_recorded wk family v, ?_⟩
  intro k' x other found
  rw [recordAt_recorded] at found
  split at found
  · rename_i same
    cases found
    exact ⟨w, same ▸ stored, marked⟩
  · exact ⟨x, found, rfl⟩

theorem derived_refreshSaved {s : AdminStore} (wk : s.WellKinded) {r r' : RefreshToken}
    (stored : recordAt s (.refresh r'.tokenHash) = some (.refresh r))
    (marked : (AdminVal.refresh r).unmarked = (AdminVal.refresh r').unmarked) :
    Derived s (refreshSaved s r') := by
  refine ⟨(leads_saveRefreshToken r' wk).2, ?_⟩
  intro k v other found
  by_cases index : k = .refreshByUser r'.userId
  · subst index
    simp [refreshSaved] at found
  · rw [refreshSaved, recordAt_addMember, if_neg index, recordAt_arm, recordAt_recorded] at found
    split at found
    · rename_i same
      cases found
      exact ⟨_, same ▸ stored, marked⟩
    · exact ⟨v, found, rfl⟩

section Backing
variable [Platform] {asked : List (String × AuthorizeQuery)} {approved : List Approval}
  {issued : List Issue} {s t : AdminStore}

theorem Backed.more (backed : Backed asked approved issued s)
    (moreAsked : List (String × AuthorizeQuery)) (moreApproved : List Approval)
    (moreIssued : List Issue) :
    Backed (moreAsked ++ asked) (moreApproved ++ approved) (moreIssued ++ issued) s where
  kinded := backed.kinded
  client := backed.client
  pending := by
    intro state r found
    obtain ⟨q, member, asks⟩ := backed.pending state r found
    exact ⟨q, List.mem_append_right _ member, asks⟩
  code := by
    intro code r found
    obtain ⟨a, q, member, same, user, request, asks⟩ := backed.code code r found
    exact ⟨a, q, List.mem_append_right _ member, same, user, List.mem_append_right _ request, asks⟩
  refresh := by
    intro hash r found
    obtain ⟨named, i, token, member, handed, same, isFor⟩ := backed.refresh hash r found
    exact ⟨named, i, token, List.mem_append_right _ member, handed, same, isFor⟩

theorem Backed.derived (backed : Backed asked approved issued s) (derived : Derived s t) :
    Backed asked approved issued t where
  kinded := derived.kinded
  client := by
    intro id r found
    obtain ⟨w, before, same⟩ := derived.old _ _ rfl found
    cases w <;> simp only [AdminVal.unmarked, reduceCtorEq] at same
    rename_i r'
    simp only [AdminVal.client.injEq, OAuthClient.mk.injEq] at same
    exact same.1.symm.trans (backed.client id r' before)
  pending := by
    intro state r found
    obtain ⟨w, before, same⟩ := derived.old _ _ rfl found
    cases w <;> simp only [AdminVal.unmarked, reduceCtorEq] at same
    cases same
    exact backed.pending state r before
  code := by
    intro code r found
    obtain ⟨w, before, same⟩ := derived.old _ _ rfl found
    cases w <;> simp only [AdminVal.unmarked, reduceCtorEq] at same
    rename_i r'
    simp only [AdminVal.code.injEq, AuthorizationCode.mk.injEq] at same
    obtain ⟨_, client, user, redirect, scope, challenge, _, _, _⟩ := same
    rw [← client, ← user, ← redirect, ← scope, ← challenge]
    exact backed.code code r' before
  refresh := by
    intro hash r found
    obtain ⟨w, before, same⟩ := derived.old _ _ rfl found
    cases w <;> simp only [AdminVal.unmarked, reduceCtorEq] at same
    rename_i r'
    simp only [AdminVal.refresh.injEq, RefreshToken.mk.injEq] at same
    obtain ⟨name, client, user, scope, _, _, _⟩ := same
    rw [← name, ← client, ← user, ← scope]
    exact backed.refresh hash r' before

end Backing

/-! What only marks records -/

section Marking
variable {s : AdminStore} {asked : List (String × AuthorizeQuery)} {approved : List Approval}
  {issued : List Issue}

theorem derived_revokeClient (wk : s.WellKinded) (clientId : String) (now : Time) :
    Derived s (run (revokeClient clientId now) s).2 := by
  obtain ⟨answer, ran, stored⟩ := run_loadClient wk clientId
  unfold revokeClient
  rw [run_bind, ran]
  rcases answer with e | (_ | client)
  · exact .refl wk
  · exact .refl wk
  · simp only [andThen_ok, run_ite]
    split
    · exact .refl wk
    · rw [run_bind, (leads_record (k := .client clientId) rfl).run_eq wk]
      exact derived_recorded wk rfl (stored client rfl) rfl

variable [Platform]

theorem maintains_revokeGrant (backed : Backed asked approved issued s) (clientId : String)
    (now : Time) (hash : String) : Maintains (Derived s) (revokeGrant clientId now hash) := by
  intro t derived
  obtain ⟨answer, ran, stored⟩ := run_loadRefreshToken derived.kinded hash
  unfold revokeGrant
  rw [run_bind, ran]
  rcases answer with e | (_ | r)
  · exact derived
  · exact derived
  · simp only [andThen_ok, run_ite]
    split
    · exact derived
    · split
      · exact derived
      · have found := stored r rfl
        have named := ((backed.derived derived).refresh hash r found).1
        rw [run_bind, (leads_saveRefreshToken _).run_eq derived.kinded]
        exact derived.trans (derived_refreshSaved derived.kinded (r := r)
          (by rw [named]; exact found) rfl)

theorem derived_revokeGrants (backed : Backed asked approved issued s) (userId clientId : String)
    (now : Time) : Derived s (run (revokeGrantsForClient userId clientId now) s).2 := by
  unfold revokeGrantsForClient
  rw [run_bind, run_setMembers backed.kinded (k := .refreshByUser userId) rfl, andThen_ok]
  have each := maintains_collect (s.setAt (.refreshByUser userId))
    (fun hash => maintains_revokeGrant backed clientId now hash)
  refine maintains_bind each ?_ s (.refl backed.kinded)
  intro revoked t hold
  exact hold

theorem derived_revokeRefresh (backed : Backed asked approved issued s) (clientId hash : String)
    (now : Time) : Derived s (run (revokeRefresh clientId hash now) s).2 := by
  obtain ⟨answer, ran, stored⟩ := run_loadRefreshToken backed.kinded hash
  unfold revokeRefresh
  rw [run_bind, run_outcome, ran]
  rcases answer with e | (_ | r)
  · exact .refl backed.kinded
  · exact .refl backed.kinded
  · simp only [andThen_ok, run_ite]
    split
    · have found := stored r rfl
      have named := (backed.refresh hash r found).1
      rw [run_bind, run_outcome, (leads_saveRefreshToken _).run_eq backed.kinded]
      exact derived_refreshSaved backed.kinded (r := r) (by rw [named]; exact found) rfl
    · exact .refl backed.kinded

theorem derived_revoke (backed : Backed asked approved issued s) (authorization : Option String)
    (form : RevokeForm) (now : Time) : Derived s (run (revoke authorization form now) s).2 := by
  have wk := backed.kinded
  unfold revoke
  rw [run_bind]
  rcases run_authenticateClient wk authorization form.auth with
    ⟨e, ran⟩ | ⟨auth, client, _, _, ran⟩
  · rw [ran]
    exact .refl wk
  · rw [ran, andThen_ok, run_bind, run_outcome]
    have loaded : (run (loadAccessToken (Digest.sha256Hex form.token)) s).2 = s := by
      unfold loadAccessToken
      rw [run_bind, run_hashGet wk rfl, andThen_ok]
      split <;> rfl
    rw [loaded, andThen_ok]
    split
    · simp only [run_ite]
      split
      · rw [run_bind, run_outcome]
        show Derived s (run (deleteAccessToken _) s).2
        unfold deleteAccessToken
        rw [run_delete]
        exact derived_erase wk _
      · exact .refl wk
    · exact derived_revokeRefresh backed _ _ now

end Marking

/-! What is none of the OAuth server's business -/

theorem derived_of_acts {Err A : Type} {p : Prog AdminStore Err A}
    (acts : Acts (fun c => c.key.ofFlows = false) p) {s : AdminStore} (wk : s.WellKinded) :
    Derived s (run p s).2 := by
  obtain ⟨kinded, same⟩ := entry_of_acts (fun k => k.ofFlows = false) acts wk
  exact derived_of_entries kinded (fun k ours => same k (by simp [ours]))

theorem account_elsewhere (c : Command AdminKey AdminVal) (account : c.key.account) :
    c.key.ofFlows = false := by
  cases key : c.key <;> simp_all [AdminKey.account, AdminKey.ofFlows]

theorem derived_account [Digest] [DateText] {s : AdminStore} (wk : s.WellKinded) {a : AccountAction}
    (elsewhere : ∀ plaintext token ttl, a ≠ .saveAccessToken plaintext token ttl) :
    Derived s (a.change s) := by
  have few : ∀ c : Command AdminKey AdminVal, c.key.account → SparesUsers c →
      c.key.ofFlows = false := fun c account _ => account_elsewhere c account
  cases a with
  | bootstrapAdmin email plaintext id tokenId now =>
    exact derived_of_acts (acts_bootstrapAdmin account_elsewhere email plaintext id tokenId now) wk
  | createUser email isAdmin id now =>
    exact derived_of_acts (acts_writeNewUser account_elsewhere _ isAdmin id now) wk
  | upsertLocalUser email isAdmin id now =>
    exact derived_of_acts (acts_upsertLocalUser account_elsewhere email isAdmin id now) wk
  | upsertOauthUser provider subject email isAdmin id now =>
    exact derived_of_acts
      (acts_upsertOauthUser account_elsewhere provider subject email isAdmin id now) wk
  | getUserByEmail email => exact derived_of_acts (acts_findUserByEmail few _) wk
  | setUserAdmin id isAdmin => exact derived_of_acts (acts_setUserAdmin few id isAdmin) wk
  | bumpSessionEpoch id => exact derived_of_acts (acts_bumpSessionEpoch few id) wk
  | deleteUser id => exact derived_of_acts (acts_deletes few (acts_deleteUser id)) wk
  | createToken ownerId name plaintext ttl id now =>
    exact derived_of_acts (acts_createToken few ownerId name plaintext ttl id now) wk
  | renameToken ownerId oldName newName =>
    exact derived_of_acts (acts_renameToken few ownerId oldName newName) wk
  | revokeTokenByName ownerId name =>
    exact derived_of_acts (acts_revokeTokenByName few ownerId name) wk
  | authenticate plaintext now => exact derived_of_acts (acts_authenticate few plaintext now) wk
  | saveAccessToken plaintext token ttl => exact absurd rfl (elsewhere plaintext token ttl)
  | wait seconds => exact derived_advance wk seconds

/-! Chains -/

section Chains
variable {issued more : List Issue} {every : Issue → Prop}

theorem Chain.mono {weaker : Issue → Prop} (included : issued ⊆ more)
    (weaken : ∀ i, every i → weaker i) {i j : Issue} (chain : Chain issued every i j) :
    Chain more weaker i j := by
  induction chain with
  | root member here => exact .root (included member) (weaken _ here)
  | next before member here rotated handed ih =>
    exact .next ih (included member) (weaken _ here) rotated handed

theorem Chain.last {i j : Issue} (chain : Chain issued every i j) : j ∈ issued := by
  cases chain with
  | root member here => exact member
  | next before member here rotated handed => exact member

/-- Where no refresh token is handed out twice, the exchange behind a token is determined. -/
theorem Chain.root_unique (apart : (issued.map (fun i => i.response.refreshToken)).Nodup)
    {i i' j : Issue} (one : Chain issued every i j) (two : Chain issued every i' j)
    {code redirectUri verifier code' redirectUri' verifier' : String}
    (first : i.presented = some (.code code redirectUri verifier))
    (second : i'.presented = some (.code code' redirectUri' verifier')) : i = i' := by
  induction one with
  | root member here =>
    cases two with
    | root => rfl
    | next before member here rotated handed =>
      rw [first] at rotated
      cases rotated
  | next before member here rotated handed ih =>
    cases two with
    | root =>
      rw [second] at rotated
      cases rotated
    | next before' member' here' rotated' handed' =>
      rw [rotated] at rotated'
      cases rotated'
      have same := List.inj_on_of_nodup_map apart before.last before'.last
        (handed.trans handed'.symm)
      subst same
      exact ih before'

end Chains

/-! What holds of every run -/

/-- No nonce, code or refresh token is used twice, and all are drawn. -/
structure DrawnApart (drawn : List String) (asked : List (String × AuthorizeQuery))
    (approved : List Approval) (issued : List Issue) : Prop where
  nonces : (asked.map Prod.fst).Nodup
  noncesDrawn : ∀ p ∈ asked, p.1 ∈ drawn
  codes : (approved.map Approval.code).Nodup
  codesDrawn : ∀ a ∈ approved, a.code ∈ drawn
  tokens : (issued.map (fun i => i.response.refreshToken)).Nodup
  tokensDrawn : ∀ i ∈ issued, ∃ token, i.response.refreshToken = some token ∧ token ∈ drawn

theorem DrawnApart.more {drawn : List String} {asked : List (String × AuthorizeQuery)}
    {approved : List Approval} {issued : List Issue}
      (apart : DrawnApart drawn asked approved issued)
    (draws : List String) : DrawnApart (draws ++ drawn) asked approved issued where
  nonces := apart.nonces
  noncesDrawn := fun p member => List.mem_append_right _ (apart.noncesDrawn p member)
  codes := apart.codes
  codesDrawn := fun a member => List.mem_append_right _ (apart.codesDrawn a member)
  tokens := apart.tokens
  tokensDrawn := by
    intro i member
    obtain ⟨token, handed, known⟩ := apart.tokensDrawn i member
    exact ⟨token, handed, List.mem_append_right _ known⟩

section Tracing
variable [Platform]

structure Traced (asked : List (String × AuthorizeQuery)) (approved : List Approval)
    (issued : List Issue) (i : Issue) (user client scope : String) : Prop where
  isFor : i.IsFor user client scope
  allowed : ∃ root a q, a ∈ approved ∧ (a.state, q) ∈ asked ∧
    Allows issued i root a q user client scope

structure Accountable (s : FlowState) : Prop where
  backed : Backed s.asked s.approved s.issued s.store
  apart : DrawnApart s.drawn s.asked s.approved s.issued
  traced : ∀ i ∈ s.issued, ∃ user client scope,
    Traced s.asked s.approved s.issued i user client scope

theorem Traced.more {asked : List (String × AuthorizeQuery)} {approved : List Approval}
    {issued : List Issue} {i : Issue} {user client scope : String}
    (traced : Traced asked approved issued i user client scope)
    (moreAsked : List (String × AuthorizeQuery)) (moreApproved : List Approval)
    (moreIssued : List Issue) : Traced (moreAsked ++ asked) (moreApproved ++ approved)
      (moreIssued ++ issued) i user client scope := by
  obtain ⟨isFor, root, a, q, member, request, allows⟩ := traced
  refine ⟨isFor, root, a, q, List.mem_append_right _ member, List.mem_append_right _ request,
    allows.approver, allows.requester, allows.requested, allows.presented, ?_⟩
  exact allows.preserved.mono (fun _ kept => List.mem_append_right _ kept) (fun _ kept => kept)

theorem Issue.IsFor.unique {i : Issue} {user client scope user' client' scope' : String}
    (one : i.IsFor user client scope) (two : i.IsFor user' client' scope') :
    user' = user ∧ client' = client ∧ scope' = scope := by
  obtain ⟨r, stored, rfl, rfl, rfl, _⟩ := one.accessFor
  obtain ⟨r', stored', rfl, rfl, rfl, _⟩ := two.accessFor
  rw [stored, Option.some.injEq, AdminVal.access.injEq] at stored'
  subst stored'
  exact ⟨rfl, rfl, rfl⟩

theorem provenance_of_accountable {s : FlowState} (accountable : Accountable s) {i : Issue}
    (member : i ∈ s.issued) : ∃ user client scope, Provenance s i user client scope := by
  obtain ⟨user, client, scope, isFor, root, a, q, approved, asked, allows⟩ :=
    accountable.traced i member
  obtain ⟨redirectUri, verifier, presented, _, _⟩ := allows.presented
  refine ⟨user, client, scope, isFor, ⟨root, a, q, ⟨?_, ⟨redirectUri, verifier, presented⟩,
    approved, asked⟩, allows⟩, ?_⟩
  · exact allows.preserved.mono (fun _ kept => kept) (fun _ _ => trivial)
  · intro root a q root' a' q' one two
    obtain ⟨redirect, verifier, exchanged⟩ := one.exchanged
    obtain ⟨redirect', verifier', exchanged'⟩ := two.exchanged
    have sameRoot := Chain.root_unique accountable.apart.tokens one.chain two.chain
        exchanged exchanged'
    subst sameRoot
    rw [exchanged, Option.some.injEq, Presented.code.injEq] at exchanged'
    have sameApproval := List.inj_on_of_nodup_map accountable.apart.codes one.approved two.approved
      exchanged'.1
    subst sameApproval
    have samePair := List.inj_on_of_nodup_map accountable.apart.nonces one.asked two.asked rfl
    exact ⟨rfl, rfl, (Prod.mk.inj samePair).2⟩

theorem code_accepted {r : AuthorizationCode} {clientId redirectUri verifier : String}
    (accepted : codeRefused r clientId redirectUri verifier = none) :
    r.clientId = clientId ∧ r.redirectUri = redirectUri ∧
      r.codeChallenge = Digest.challenge verifier := by
  unfold codeRefused at accepted
  split at accepted
  · cases accepted
  · rename_i client
    split at accepted
    · cases accepted
    · rename_i redirect
      split at accepted
      · cases accepted
      · rename_i pkce
        simp only [ne_eq, Decidable.not_not] at client redirect
        simp only [verifyPkce, decide_eq_true_eq, Decidable.not_not] at pkce
        exact ⟨client, redirect, pkce.symm⟩

omit [Platform] in
/-- What an authorization request must name, it names. -/
theorem authorize_params {q : AuthorizeQuery} {base : String} {params : AuthorizeParams}
    (checked : checkAuthorize q base = .ok params) : q.clientId = some params.clientId ∧
      q.redirectUri = some params.redirectUri ∧ q.codeChallenge = some params.codeChallenge := by
  unfold checkAuthorize at checked
  split at checked
  · cases checked
  · split at checked
    · cases checked
    · cases checked
    · cases checked
    · rename_i id redirect challenge
      simp only at checked
      split at checked
      · cases checked
      · split at checked
        · cases checked
          exact ⟨id, redirect, challenge⟩
        · split at checked
          · cases checked
            exact ⟨id, redirect, challenge⟩
          · cases checked

/-! New records, each with its reason -/

section Backing
variable {asked : List (String × AuthorizeQuery)} {approved : List Approval}
  {issued : List Issue} {s : AdminStore} (backed : Backed asked approved issued s)
include backed

theorem backed_client {r : OAuthClient} :
    Backed asked approved issued (recorded s (.client r.clientId) (.client r)) := by
  refine ⟨wellKinded_recorded backed.kinded rfl _, ?_, ?_, ?_, ?_⟩
  · intro id r' found
    rw [recordAt_recorded] at found
    split at found
    · rename_i same
      cases same
      cases found
      rfl
    · exact backed.client id r' found
  all_goals simp only [recordAt_recorded, reduceCtorEq, if_false]
  · exact backed.pending
  · exact backed.code
  · exact backed.refresh

theorem backed_pending {state : String} {r : PendingAuthorization} {q : AuthorizeQuery}
    (asks : q.Asks r.clientId r.redirectUri r.codeChallenge r.scope) :
    Backed ((state, q) :: asked) approved issued (pendingSaved s state r) := by
  have more := backed.more [(state, q)] [] []
  refine ⟨(leads_savePending state r backed.kinded).2, ?_, ?_, ?_, ?_⟩
  · simpa [recordAt_pendingSaved] using more.client
  · intro state' r' found
    rw [recordAt_pendingSaved] at found
    split at found
    · rename_i same
      cases same
      cases found
      exact ⟨q, List.mem_cons_self, asks⟩
    · exact more.pending state' r' found
  · simpa [recordAt_pendingSaved] using more.code
  · simpa [recordAt_pendingSaved] using more.refresh

theorem backed_code {r : AuthorizationCode} {a : Approval} {q : AuthorizeQuery}
    (code : a.code = r.code) (user : a.user = r.userId) (request : (a.state, q) ∈ asked)
    (asks : q.Asks r.clientId r.redirectUri r.codeChallenge r.scope) :
    Backed asked (a :: approved) issued (codeSaved s r) := by
  have more := backed.more [] [a] []
  refine ⟨(leads_saveAuthorizationCode r backed.kinded).2, ?_, ?_, ?_, ?_⟩
  · simpa [recordAt_codeSaved] using more.client
  · simpa [recordAt_codeSaved] using more.pending
  · intro code' r' found
    rw [recordAt_codeSaved] at found
    split at found
    · rename_i same
      cases same
      cases found
      exact ⟨a, q, List.mem_cons_self, code, user, request, asks⟩
    · exact more.code code' r' found
  · simpa [recordAt_codeSaved] using more.refresh

theorem backed_tokens {user client scope : String} (draws : TokenDraws) {i : Issue}
    (handed : i.response.refreshToken = some draws.refreshToken)
    (isFor : i.IsFor user client scope) :
    Backed asked approved (i :: issued) (tokensSaved s client user scope draws) := by
  have more := backed.more [] [] [i]
  refine ⟨(leads_issueTokens s client user scope draws backed.kinded).2, ?_, ?_, ?_, ?_⟩
  · intro id r found
    rw [recordAt_tokensSaved _ _ _ _ _ _ rfl] at found
    exact more.client id r (by simpa using found)
  · intro state r found
    rw [recordAt_tokensSaved _ _ _ _ _ _ rfl] at found
    exact more.pending state r (by simpa using found)
  · intro code r found
    rw [recordAt_tokensSaved _ _ _ _ _ _ rfl] at found
    exact more.code code r (by simpa using found)
  · intro hash r found
    rw [recordAt_tokensSaved _ _ _ _ _ _ rfl] at found
    split at found
    · rename_i same
      cases same
      cases found
      exact ⟨rfl, i, draws.refreshToken, List.mem_cons_self, handed, rfl, isFor⟩
    · exact more.refresh hash r (by simpa using found)

end Backing

/-! One request after another -/

section Steps
variable {s : FlowState} (accountable : Accountable s)
include accountable

/-- A request that only draws, and derives its records from the ones before. -/
theorem accountable_derived {t : AdminStore} (derived : Derived s.store t) (draws : List String) :
    Accountable ⟨t, draws ++ s.drawn, s.asked, s.approved, s.issued⟩ :=
  ⟨accountable.backed.derived derived, accountable.apart.more draws, accountable.traced⟩

theorem accountable_register (body : RegisterBody) (draws : ClientDraws) (now : Time)
    (drawn : List String) : Accountable ⟨(run (register body draws now) s.store).2,
      drawn ++ s.drawn, s.asked, s.approved, s.issued⟩ := by
  have wk := accountable.backed.kinded
  have unchanged := accountable_derived accountable (.refl wk) drawn
  unfold register
  rw [run_ite]
  split
  · exact unchanged
  · cases body.redirectUris.mapM validateRedirectUriAtRegistration with
    | error msg => exact unchanged
    | ok _ =>
      simp only
      cases Platform.hashPassword draws.salt draws.clientSecret with
      | none => exact unchanged
      | some hash =>
        have saved : run (orRefuse serverError
            (saveClient (registeredClient body draws.clientId hash now)))
            s.store = (.ok (), recorded s.store (.client draws.clientId)
              (.client (registeredClient body draws.clientId hash now))) :=
          (leads_orRefuse (leads_record (k := .client draws.clientId) rfl)).run_eq wk
        have backed := backed_client accountable.backed
            (r := registeredClient body draws.clientId hash now)
        simp only
        rw [run_bind, saved]
        exact ⟨backed, unchanged.apart, unchanged.traced⟩

theorem accountable_authorize (browser : Browser) (q : AuthorizeQuery) (nonce : String)
    (now : Time) (unused : nonce ∉ s.drawn) :
    Accountable ⟨(run (authorize browser q nonce now) s.store).2, nonce :: s.drawn,
      (FlowAction.authorize browser q nonce now).asks s.store ++ s.asked, s.approved,
        s.issued⟩ := by
  rcases run_authorize accountable.backed.kinded browser q nonce now with
    ⟨e, t, ran, only⟩ | ⟨base, params, client, t, checked, stored, only, ran⟩
  · have quiet := accountable_derived accountable (derived_of_sessions only) [nonce]
    simpa [FlowAction.asks, ran] using quiet
  · have quiet := accountable_derived accountable (derived_of_sessions only) [nonce]
    have asks : q.Asks client.clientId params.redirectUri params.codeChallenge
        (q.scope.getD "*") := by
      have named := accountable.backed.client params.clientId client stored
      obtain ⟨id, redirect, challenge⟩ := authorize_params checked
      exact ⟨by rw [id, named], redirect, challenge, rfl⟩
    have apart := accountable.apart.more [nonce]
    simp only [FlowAction.asks, ran, List.cons_append, List.nil_append]
    refine ⟨backed_pending quiet.backed asks, { apart with nonces := ?_, noncesDrawn := ?_ }, ?_⟩
    · refine List.nodup_cons.mpr ⟨?_, accountable.apart.nonces⟩
      intro member
      obtain ⟨p, known, same⟩ := List.mem_map.mp member
      have drawn := accountable.apart.noncesDrawn p known
      rw [same] at drawn
      exact unused drawn
    · intro p member
      rcases List.mem_cons.mp member with rfl | old
      · exact List.mem_cons_self
      · exact apart.noncesDrawn p old
    · intro i member
      obtain ⟨user, client, scope, traced⟩ := accountable.traced i member
      exact ⟨user, client, scope, traced.more [_] [] []⟩

theorem accountable_consentSubmit (sessions : Option Nat) (cookie : Option String)
    (form : ConsentForm) (code : String) (now : Time) (unused : code ∉ s.drawn) :
    Accountable ⟨(run (consentSubmit sessions cookie form code now) s.store).2, code :: s.drawn,
      s.asked, (FlowAction.consentSubmit sessions cookie form code now).approves s.store
        ++ s.approved,
      s.issued⟩ := by
  rcases run_consentSubmit accountable.backed.kinded sessions cookie form code now with
    ⟨e, t, ran, only⟩ | ⟨userId, pending, t, resolved, only, stored, ran⟩
  · have quiet := accountable_derived accountable (derived_of_sessions only) [code]
    have none : (FlowAction.consentSubmit sessions cookie form code now).approves s.store = [] := by
      simp only [FlowAction.approves, ran]
      split <;> simp_all
    simpa [none, ran] using quiet
  · have consumed := (derived_of_sessions only).trans (derived_erase only.1 (.pending form.state))
    have quiet := accountable_derived accountable consumed [code]
    rcases run_decideConsent consumed.kinded pending form.action userId code now with
      ⟨other, answer, decided⟩ | ⟨approve, target, decided⟩
    · rw [decided] at ran
      have none : (FlowAction.consentSubmit sessions cookie form code now).approves
          s.store = [] := by
        simp only [FlowAction.approves, ran, resolved, if_neg other]
        split <;> rfl
      simpa [none, ran] using quiet
    · rw [decided] at ran
      have one : (FlowAction.consentSubmit sessions cookie form code now).approves s.store =
          [⟨userId, form.state, code⟩] := by
        simp only [FlowAction.approves, ran, resolved, if_pos approve]
      obtain ⟨q, request, asks⟩ := accountable.backed.pending form.state pending stored
      have apart := accountable.apart.more [code]
      have backed := backed_code quiet.backed (r := newCode pending userId code now)
        (a := ⟨userId, form.state, code⟩) rfl rfl request asks
      rw [one, ran]
      refine ⟨backed, { apart with codes := ?_, codesDrawn := ?_ }, ?_⟩
      · refine List.nodup_cons.mpr ⟨?_, accountable.apart.codes⟩
        intro member
        obtain ⟨a, known, same⟩ := List.mem_map.mp member
        have drawn := accountable.apart.codesDrawn a known
        rw [same] at drawn
        exact unused drawn
      · intro a member
        rcases List.mem_cons.mp member with rfl | old
        · exact List.mem_cons_self
        · exact apart.codesDrawn a old
      · intro i member
        obtain ⟨user, client, scope, traced⟩ := accountable.traced i member
        exact ⟨user, client, scope, traced.more [] [_] []⟩

omit accountable in
/-- What a token request leaves, and what it answers, are for one user, client and scope. -/
theorem isFor_issued {clientId : String} (userId scope : String) (draws : TokenDraws)
    (u : AdminStore) {client : Option String} (presented : Option Presented)
      (asker : client = some clientId) :
    Issue.IsFor
      { client := client
        presented := presented
        response := tokensAnswered scope draws
        access := recordAt (tokensSaved u clientId userId scope draws)
          (.access (Digest.sha256Hex (tokensAnswered scope draws).accessToken))
        refresh := (tokensAnswered scope draws).refreshToken.bind fun plaintext =>
          recordAt (tokensSaved u clientId userId scope draws)
            (.refresh (Digest.sha256Hex plaintext)) } userId clientId scope where
  accessFor := by
    refine ⟨newAccessToken clientId userId scope draws, ?_, rfl, rfl, rfl, rfl⟩
    show recordAt (tokensSaved u clientId userId scope draws)
      (.access (Digest.sha256Hex draws.accessToken)) = _
    rw [recordAt_tokensSaved _ _ _ _ _ _ rfl, if_neg (by simp), if_pos rfl]
  refreshFor := by
    refine ⟨draws.refreshToken, newRefreshToken clientId userId scope draws, rfl, ?_, rfl, rfl, rfl,
      rfl⟩
    show recordAt (tokensSaved u clientId userId scope draws) _ = _
    rw [recordAt_tokensSaved _ _ _ _ _ _ rfl, if_pos rfl]
  asker := asker
  answered := rfl

theorem apart_issued {draws : TokenDraws} {i : Issue}
    (handed : i.response.refreshToken = some draws.refreshToken)
    (unused : draws.refreshToken ∉ s.drawn) :
    DrawnApart (draws.accessToken :: draws.refreshToken :: s.drawn) s.asked s.approved
      (i :: s.issued) := by
  have apart := accountable.apart.more [draws.accessToken, draws.refreshToken]
  refine { apart with tokens := ?_, tokensDrawn := ?_ }
  · refine List.nodup_cons.mpr ⟨?_, accountable.apart.tokens⟩
    intro member
    obtain ⟨j, known, same⟩ := List.mem_map.mp member
    obtain ⟨token, handed', drawn⟩ := accountable.apart.tokensDrawn j known
    have agree : token = draws.refreshToken :=
      Option.some.inj (handed'.symm.trans (same.trans handed))
    exact unused (agree ▸ drawn)
  · intro j member
    rcases List.mem_cons.mp member with rfl | old
    · exact ⟨_, handed, by simp⟩
    · exact apart.tokensDrawn j old

theorem accountable_token (injective : Function.Injective (Digest.sha256Hex : String → String))
    (authorization : Option String) (form : TokenForm) (draws : TokenDraws)
    (unused : draws.refreshToken ∉ s.drawn) :
    Accountable ⟨(run (token authorization form draws) s.store).2,
      draws.accessToken :: draws.refreshToken :: s.drawn, s.asked, s.approved,
      issuedBy authorization form (run (token authorization form draws) s.store) ++ s.issued⟩ := by
  have wk := accountable.backed.kinded
  have quiet : ∀ {t}, Derived s.store t → Accountable ⟨t,
      draws.accessToken :: draws.refreshToken :: s.drawn, s.asked, s.approved, s.issued⟩ :=
    fun derived => accountable_derived accountable derived [draws.accessToken, draws.refreshToken]
  have outcome := token_outcome wk authorization form draws
  generalize run (token authorization form draws) s.store = result at outcome
  cases outcome with
  | refused e => exact quiet (.refl wk)
  | codeWasted e code r stored => exact quiet (derived_recorded wk rfl stored rfl)
  | refreshWasted e hash r stored => exact quiet (derived_recorded wk rfl stored rfl)
  | exchanged auth client params r credentials known grant complete stored accepted =>
    have marked := derived_recorded wk (k := .code params.code) rfl stored
      (v := .code { r with usedAt := some draws.consumedAt }) rfl
    have named := accountable.backed.client auth.clientId client known
    obtain ⟨a, q, approved, code, user, request, asks⟩ := accountable.backed.code
        params.code r stored
    obtain ⟨sameClient, sameRedirect, pkce⟩ := code_accepted accepted
    have asker : (extractClientAuth authorization form).map ClientAuth.clientId =
        some client.clientId := by rw [credentials, named]; rfl
    have presented : presentedBy form =
        some (.code params.code params.redirectUri params.verifier) := by
      simp [presentedBy, grant, complete, Except.toOption]
    have isFor := isFor_issued r.userId r.scope draws
      (recorded s.store (.code params.code) (.code { r with usedAt := some draws.consumedAt }))
      (presentedBy form) asker
    have backed := backed_tokens (accountable.backed.derived marked) draws rfl isFor
    refine ⟨backed, apart_issued accountable rfl unused, ?_⟩
    intro i member
    rcases List.mem_cons.mp member with rfl | old
    · refine ⟨r.userId, client.clientId, r.scope, isFor, _, a, q, approved, request, user, ?_,
        asks.scope, ⟨params.redirectUri, params.verifier, ?_, ?_, ?_⟩,
        .root List.mem_cons_self isFor⟩
      · rw [asks.client, sameClient]
      · rw [code]
        exact presented
      · rw [asks.redirectUri, sameRedirect]
      · rw [asks.challenge, pkce]
    · obtain ⟨user', client', scope', traced⟩ := accountable.traced i old
      exact ⟨user', client', scope', traced.more [] [] [_]⟩
  | rotated auth client presented r credentials known grant complete stored accepted =>
    have marked := derived_recorded wk (k := .refresh (Digest.sha256Hex presented)) rfl stored
      (v := .refresh { r with usedAt := some draws.consumedAt }) rfl
    have named := accountable.backed.client auth.clientId client known
    obtain ⟨_, j, token, before, handed, sameHash, forOld⟩ :=
      accountable.backed.refresh _ r stored
    have sameToken := injective sameHash
    subst sameToken
    have asker : (extractClientAuth authorization form).map ClientAuth.clientId =
        some r.clientId := by rw [credentials, accepted, named]; rfl
    have presents : presentedBy form = some (.refresh token) := by
      simp [presentedBy, grant, complete, Except.toOption]
    have isFor := isFor_issued r.userId r.scope draws
      (recorded s.store (.refresh (Digest.sha256Hex token))
        (.refresh { r with usedAt := some draws.consumedAt })) (presentedBy form) asker
    have backed := backed_tokens (accountable.backed.derived marked) draws rfl isFor
    refine ⟨backed, apart_issued accountable rfl unused, ?_⟩
    intro i member
    rcases List.mem_cons.mp member with rfl | old
    · obtain ⟨user, client', scope, isForJ, root, a, q, approved, request, allows⟩ :=
        accountable.traced j before
      obtain ⟨rfl, rfl, rfl⟩ := isForJ.unique forOld
      refine ⟨_, _, _, isFor, root, a, q, approved, request, allows.approver, allows.requester,
        allows.requested, allows.presented, ?_⟩
      exact .next (allows.preserved.mono (List.subset_cons_self _ _) (fun _ kept => kept))
        List.mem_cons_self isFor presents handed
    · obtain ⟨user', client', scope', traced⟩ := accountable.traced i old
      exact ⟨user', client', scope', traced.more [] [] [_]⟩

end Steps

theorem accountable_step [DateText]
    (injective : Function.Injective (Digest.sha256Hex : String → String))
    {s t : FlowState} {a : FlowAction} (accountable : Accountable s)
    (next : flows.step s a = some t) : Accountable t := by
  simp only [flows, Option.ite_none_right_eq_some, Option.some.injEq] at next
  obtain ⟨⟨allowed, _, unused⟩, rfl⟩ := next
  have wk := accountable.backed.kinded
  cases a with
  | register body draws now => exact accountable_register accountable body draws now _
  | authorize browser query nonce now =>
    exact accountable_authorize accountable browser query nonce now
      (unused nonce (by simp [FlowAction.draws]))
  | consentSubmit sessions cookie form code now =>
    exact accountable_consentSubmit accountable sessions cookie form code now
      (unused code (by simp [FlowAction.draws]))
  | token authorization form draws =>
    exact accountable_token accountable injective authorization form draws
      (unused draws.refreshToken (by simp [FlowAction.draws]))
  | revoke authorization form now =>
    exact accountable_derived accountable
      (derived_revoke accountable.backed authorization form now) []
  | revokeGrants userId clientId now =>
    exact accountable_derived accountable
      (derived_revokeGrants accountable.backed userId clientId now) []
  | revokeClient clientId now =>
    exact accountable_derived accountable (derived_revokeClient wk clientId now) []
  | createSession params ttl token id now =>
    exact accountable_derived accountable
      (derived_of_sessions (onlySessions_of_acts
        (acts_createSession params ttl token id now) wk)) []
  | deleteSession cookie =>
    exact accountable_derived accountable
      (derived_of_sessions (onlySessions_of_acts (acts_deleteByCookie cookie) wk)) []
  | account a =>
    have elsewhere : ∀ plaintext token ttl, a ≠ .saveAccessToken plaintext token ttl := by
      rintro plaintext token ttl rfl
      cases allowed
    exact accountable_derived accountable (derived_account wk elsewhere) []
  | wait seconds => exact accountable_derived accountable (derived_advance wk seconds) []

theorem accountable_start [DateText] {s : FlowState} (start : flows.start s) : Accountable s := by
  obtain ⟨kinded, empty, asked, approved, issued⟩ := start
  refine ⟨⟨kinded, ?_, ?_, ?_, ?_⟩, ?_, ?_⟩
  all_goals simp [empty, asked, approved, issued]
  constructor <;> simp

/-- Every token that was handed out is for one user, client and scope, and leads back to
    exactly one approval, which allows it. -/
theorem oauth_provenance [DateText]
    (injective : Function.Injective (Digest.sha256Hex : String → String))
    (s : FlowState) (reached : Reached flows (fun _ _ => True) s) :
    ∀ i ∈ s.issued, ∃ user client scope, Provenance s i user client scope := by
  intro i member
  have accountable := reached_invariant (fun s start => accountable_start start)
    (fun s a t hold _ next => accountable_step injective hold next) reached
  exact provenance_of_accountable accountable member

end Tracing

namespace Sample

/-- A table of digests that are apart, and any other text behind a mark they do not have. -/
theorem marked_injective (table : List (String × String)) (apart : (table.map Prod.snd).Nodup)
    (unmarked : ∀ p ∈ table, p.2.toList.head? ≠ some '?') :
    Function.Injective (fun s => (table.lookup s).getD ("?" ++ s)) := by
  have found : ∀ s v, table.lookup s = some v → (s, v) ∈ table := by
    intro s v known
    obtain ⟨before, after, rfl, _⟩ := List.lookup_eq_some_iff.mp known
    simp
  intro s t same
  simp only at same
  cases known : table.lookup s with
  | none =>
    cases known' : table.lookup t with
    | none => simpa [known, known'] using same
    | some w =>
      simp only [known, known', Option.getD_none, Option.getD_some] at same
      have clean := unmarked _ (found t w known')
      simp [← same] at clean
  | some v =>
    cases known' : table.lookup t with
    | none =>
      simp only [known, known', Option.getD_none, Option.getD_some] at same
      have clean := unmarked _ (found s v known)
      simp [same] at clean
    | some w =>
      simp only [known, known', Option.getD_some] at same
      subst same
      have agree := List.inj_on_of_nodup_map apart (found s v known) (found t v known') rfl
      exact (Prod.mk.inj agree).1

def browser : Browser :=
  ⟨some 86400, some (sessionToken ++ "." ++ "WKmJlMEAT8cArQAJgF6oCb1TRLWf_odUROPCibeDiIg"),
    some "mirage.test", none, false⟩

def query : AuthorizeQuery where
  responseType := some "code"
  clientId := some clientId
  redirectUri := some redirect
  state := some "xyz"
  scope := none
  codeChallenge := some "E9Melhoa2OwvFrEMTJguCHaoeK1t8URWbuGJSstw-cM"
  codeChallengeMethod := some "S256"
  resource := none

def exchange : TokenForm where
  grantType := "authorization_code"
  code := some code
  redirectUri := some redirect
  codeVerifier := some verifier
  refreshToken := none
  clientId := some clientId
  clientSecret := some clientSecret

def rotation : TokenForm where
  grantType := "refresh_token"
  code := none
  redirectUri := none
  codeVerifier := none
  refreshToken := some refreshToken
  clientId := some clientId
  clientSecret := some clientSecret

/-- A client is registered, a user logs in and approves its request, and the tokens it gets
    for the code are refreshed. -/
def connected : List FlowAction :=
  [.register ⟨some "Desktop", [redirect], none, none, none⟩ ⟨clientId, clientSecret, salt⟩ 0,
    .account (.upsertOauthUser "github" "42" "ann@shop.test" false ann 0),
    .createSession ⟨ann, "github", "127.0.0.1", "browser", 0⟩ 86400 sessionToken tokenId 0,
    .authorize browser query nonce 1,
    .consentSubmit browser.sessions browser.cookie ⟨nonce, "approve"⟩ code 2,
    .token none exchange ⟨accessToken, refreshToken, 3, 3, 3⟩,
    .token none rotation ⟨laterAccessToken, laterRefreshToken, 4, 4, 4⟩]

end Sample

open Sample in
theorem oauth_provenance_ann : ∃ s : FlowState, Reached flows (fun _ _ => True) s ∧
    s.issued.length = 2 ∧
    ∀ i ∈ s.issued, ∃ user client scope, Provenance s i user client scope := by
  have ran : ((exec flows ⟨Storage.empty .valkey, [], [], [], []⟩ connected).map
      (fun s => s.issued.length)) = some 2 := by
    decide +kernel
  obtain ⟨s, done, two⟩ := Option.map_eq_some_iff.mp ran
  have empty : ∀ k, recordAt (Storage.empty .valkey) k = none := by
    intro k
    rfl
  have reached := reached_of_exec (m := flows) connected
    ⟨Storage.wellKinded_empty .valkey, empty, rfl, rfl, rfl⟩ done
  have injective := marked_injective digests (by decide +kernel) (by decide +kernel)
  exact ⟨s, reached, two, oauth_provenance injective s reached⟩

end WireMirage
