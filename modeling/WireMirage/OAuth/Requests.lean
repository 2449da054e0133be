import WireMirage.Library.Pool
import WireMirage.Store.Commands
import WireMirage.OAuth.Specs

/-!
Requests that present a credential, one storage step at a time: a token request with a
code or a refresh token, and the consent to a request that awaits it. Each finds out
who asks, reads the credential, spends it, and writes what it then grants.
-/
namespace WireMirage
open Prog StepMachine

/-! Credentials -/

def AdminKey.credential : AdminKey → Bool
  | .pending _ => true
  | .code _ => true
  | .refresh _ => true
  | _ => false

/-- The command that spends a stored credential, unless it is spent. -/
def spend (now : Time) : AdminKey → AdminVal → Option (Command AdminKey AdminVal)
  | .pending state, .pending _ => some (.erase (.pending state))
  | .code code, .code r =>
    if r.usedAt.isSome then none
    else some (.setField (.code code) "data" (.code { r with usedAt := some now }))
  | .refresh hash, .refresh r =>
    if r.usedAt.isSome ∨ r.revokedAt.isSome then none
    else some (.setField (.refresh hash) "data" (.refresh { r with usedAt := some now }))
  | _, _ => none

def codeCommands (code : AuthorizationCode) : List (Command AdminKey AdminVal) :=
  [.setField (.code code.code) "data" (.code code), .arm (.code code.code) authCodeTtlSeconds]

def accessTokenCommands (token : AccessToken) (ttl : Nat) : List (Command AdminKey AdminVal) :=
  [.setField (.access token.tokenHash) "data" (.access token),
    .arm (.access token.tokenHash) (max ttl 1)]

def refreshTokenCommands (token : RefreshToken) : List (Command AdminKey AdminVal) :=
  [.setField (.refresh token.tokenHash) "data" (.refresh token),
    .arm (.refresh token.tokenHash) refreshTokenTtlSeconds,
    .addMember (.refreshByUser token.userId) token.tokenHash]

def tokenCommands [Digest] (clientId userId scope : String) (draws : TokenDraws) :
    List (Command AdminKey AdminVal) :=
  let access := newAccessToken clientId userId scope draws
  accessTokenCommands access (access.expiresAt - draws.savedAt) ++
    refreshTokenCommands (newRefreshToken clientId userId scope draws)

inductive CredentialRequest where
  | token (authorization : Option String) (form : TokenForm) (draws : TokenDraws)
  | consent (sessions : Option Nat) (cookie : Option String) (form : ConsentForm) (code : String)
      (now : Time)

instance : FromStoreError AdminKey Refusal := ⟨fun _ => serverError⟩

namespace CredentialRequest
variable [Platform]

/-- Where what a token request presents is stored. -/
def presentedKey (form : TokenForm) : Except Refusal AdminKey :=
  if form.grantType = "authorization_code" then
    (codeParams form).map (fun params => .code params.code)
  else if form.grantType = "refresh_token" then
    (refreshParam form).map (fun presented => .refresh (Digest.sha256Hex presented))
  else .error (.oauth 400 "unsupported_grant_type"
    ("unsupported grant_type " ++ debugText form.grantType))

/-- Where the credential that a request presents is stored. -/
def presented : CredentialRequest → Option AdminKey
  | token _ form _ => (presentedKey form).toOption
  | consent _ _ form _ _ => some (.pending form.state)

/-- All that comes before the credential is read: who asks, and with what. -/
def opening : CredentialRequest → Flow (String × AdminKey)
  | token authorization form _ => do
    let client ← authenticateClient authorization form
    let key ← Prog.ofExcept (presentedKey form)
    return (client.clientId, key)
  | consent sessions cookie form _ now => do
    match ← resolveSessionUser sessions cookie now with
    | none => Prog.fail .login
    | some userId => return (userId, .pending form.state)

def spentAt : CredentialRequest → Time
  | token _ _ draws => draws.consumedAt
  | consent _ _ _ _ now => now

/-- What is written once the credential is spent; nothing where the request is refused. -/
def grants : CredentialRequest → String → AdminVal → List (Command AdminKey AdminVal)
  | token _ form draws, clientId, .code r =>
    match codeParams form with
    | .error _ => []
    | .ok params =>
      match codeRefused r clientId params.redirectUri params.verifier with
      | some _ => []
      | none => tokenCommands clientId r.userId r.scope draws
  | token _ _ draws, clientId, .refresh r =>
    if r.clientId ≠ clientId then [] else tokenCommands r.clientId r.userId r.scope draws
  | consent _ _ form code now, userId, .pending r =>
    if form.action = "approve" then codeCommands (newCode r userId code now) else []
  | _, _, _ => []

/-- The key of the credential that a request may mint. -/
def mints : CredentialRequest → AdminKey
  | token _ _ draws => .refresh (Digest.sha256Hex draws.refreshToken)
  | consent _ _ _ code _ => .code code

def program : CredentialRequest → Flow Unit
  | token authorization form draws => settle (WireMirage.token authorization form draws)
  | consent sessions cookie form code now => settle (consentSubmit sessions cookie form code now)

end CredentialRequest

/-! Positions -/

inductive CredentialPosition where
  | opening (effect : AdminStore → AdminStore) (next : AdminStore → Flow (String × AdminKey))
  | reading (who : String) (key : AdminKey)
  | spending (who : String) (key : AdminKey) (v : AdminVal)
  | spent (who : String) (key : AdminKey) (v : AdminVal) (left : List (Command AdminKey AdminVal))
  | refused

structure CredentialTask where
  request : CredentialRequest
  position : CredentialPosition

/-- A request goes on to the credential as soon as it is known who asks. -/
def CredentialPosition.opened : Flow (String × AdminKey) → CredentialPosition
  | .done (who, key) => .reading who key
  | .fail _ => .refused
  | .act effect next => .opening effect next

section Tasks
variable [Platform]

def CredentialRequest.launch (r : CredentialRequest) : CredentialTask := ⟨r, .opened r.opening⟩

/-- The read of a credential, and the step after it. -/
def readCredential (r : CredentialRequest) (who : String) (key : AdminKey) (s : AdminStore) :
    CredentialPosition :=
  match (run (Bucket.hashGet key "data" : Flow (Option AdminVal)) s).1 with
  | .ok (some v) => if (spend r.spentAt key v).isSome then .spending who key v else .refused
  | _ => .refused

def CredentialTask.step (t : CredentialTask) (s : AdminStore) :
    Option (CredentialTask × AdminStore) :=
  match t.position with
  | .opening effect next => some ({ t with position := .opened (next s) }, effect s)
  | .reading who key =>
    some ({ t with position := readCredential t.request who key s },
      (run (Bucket.hashGet key "data" : Flow (Option AdminVal)) s).2)
  | .spending who key v =>
    (spend t.request.spentAt key v).map fun c =>
      match run (c.prog : Flow Unit) s with
      | (.ok _, s') =>
        ({ t with position := .spent who key v (t.request.grants who v) }, s')
      | (.error _, s') => ({ t with position := .refused }, s')
  | .spent who key v left =>
    (drain left s).map (fun b => ({ t with position := .spent who key v b.1 }, b.2))
  | .refused => none

/-! What a request can be at -/

/-- A position that a request comes to, whatever the others do meanwhile. -/
def CredentialTask.Formed (t : CredentialTask) : Prop :=
  match t.position with
  | .opening effect next =>
    Acts (fun c => c.key.isSession = true) (.act effect next : Flow (String × AdminKey)) ∧
      Yields (fun a => t.request.presented = some a.2) (.act effect next : Flow (String × AdminKey))
  | .reading _ key => t.request.presented = some key
  | .spending _ key v =>
    t.request.presented = some key ∧ (spend t.request.spentAt key v).isSome
  | .spent who key v left =>
    t.request.presented = some key ∧ (spend t.request.spentAt key v).isSome ∧
      left <:+ t.request.grants who v
  | .refused => True

theorem formed_opened {r : CredentialRequest} {p : Flow (String × AdminKey)}
    (acts : Acts (fun c => c.key.isSession = true) p)
    (yields : Yields (fun a => r.presented = some a.2) p) :
    CredentialTask.Formed ⟨r, .opened p⟩ := by
  cases p with
  | done a => exact yields
  | fail e => trivial
  | act effect next => exact ⟨acts, yields⟩

theorem yields_opening (r : CredentialRequest) :
    Yields (fun a => r.presented = some a.2) r.opening := by
  cases r with
  | token authorization form draws =>
    apply yields_bind
    intro client
    show Yields _ (Prog.ofExcept (CredentialRequest.presentedKey form) >>= fun key =>
      pure (client.clientId, key))
    cases read : CredentialRequest.presentedKey form with
    | error e => trivial
    | ok key => exact congrArg Except.toOption read
  | consent sessions cookie form code now =>
    apply yields_bind
    rintro (_ | userId)
    · trivial
    · rfl

theorem acts_opening (r : CredentialRequest) :
    Acts (fun c => c.key.isSession = true) r.opening := by
  cases r with
  | token authorization form draws =>
    apply acts_bind _ _ (acts_authenticateClient authorization form)
    intro client
    exact acts_bind _ _ (acts_ofExcept _) (fun _ => trivial)
  | consent sessions cookie form code now =>
    apply acts_bind _ _ (acts_resolveSessionUser sessions cookie now)
    rintro (_ | userId)
    · trivial
    · trivial

theorem formed_launch (r : CredentialRequest) : r.launch.Formed :=
  formed_opened (acts_opening r) (yields_opening r)

/-- Everything one step of a request can be. -/
inductive CredentialStep (r : CredentialRequest) (s : AdminStore) :
    CredentialPosition → CredentialPosition → AdminStore → Prop
  | opens {effect next t} (only : OnlySessions s t) :
    CredentialStep r s (.opening effect next) (.opened (next s)) t
  | refuses {who key} : CredentialStep r s (.reading who key) .refused s
  | reads {who key v} (stored : recordAt s key = some v) :
    CredentialStep r s (.reading who key) (.spending who key v) s
  | spends {who key v c} (spends : spend r.spentAt key v = some c) :
    CredentialStep r s (.spending who key v) (.spent who key v (r.grants who v)) (c.apply s)
  | drains {who key v c rest} :
    CredentialStep r s (.spent who key v (c :: rest)) (.spent who key v rest) (c.apply s)

/-! The commands of a request -/

omit [Platform] in
theorem spend_cases {now : Time} {key : AdminKey} {v : AdminVal} {c : Command AdminKey AdminVal}
    (spends : spend now key v = some c) : key.credential = true ∧
      (c = .erase key ∨ ∃ w, c = .setField key "data" w ∧ ∀ later, spend later key w = none) := by
  unfold spend at spends
  split at spends
  · cases spends
    exact ⟨rfl, .inl rfl⟩
  · split at spends
    · cases spends
    · cases spends
      refine ⟨rfl, .inr ⟨_, rfl, ?_⟩⟩
      intro later
      simp [spend]
  · split at spends
    · cases spends
    · cases spends
      refine ⟨rfl, .inr ⟨_, rfl, ?_⟩⟩
      intro later
      simp [spend]
  · cases spends

omit [Platform] in
theorem credential_family {key : AdminKey} (credential : key.credential = true) :
    key.family = some .hash := by
  cases key <;> first | rfl | cases credential

/-- The credentials that commands write. -/
def minted : List (Command AdminKey AdminVal) → List AdminKey
  | [] => []
  | .setField k _ _ :: rest => if k.credential then k :: minted rest else minted rest
  | _ :: rest => minted rest

theorem minted_grants (r : CredentialRequest) (who : String) (v : AdminVal) :
    minted (r.grants who v) = [] ∨ minted (r.grants who v) = [r.mints] := by
  unfold CredentialRequest.grants
  split
  · split
    · exact .inl rfl
    · split
      · exact .inl rfl
      · exact .inr rfl
  · split
    · exact .inl rfl
    · exact .inr rfl
  · split
    · exact .inr rfl
    · exact .inl rfl
  · exact .inl rfl

/-- A command that a request issues once its credential is spent. -/
def Granting : Command AdminKey AdminVal → Prop
  | .setField k field _ => k.family = some .hash ∧ field = "data"
  | .arm _ _ => True
  | .addMember k _ => ∃ user, k = .refreshByUser user
  | _ => False

theorem granting_tokens (clientId userId scope : String) (draws : TokenDraws) :
    ∀ c ∈ tokenCommands clientId userId scope draws, Granting c := by
  intro c member
  simp only [tokenCommands, accessTokenCommands, refreshTokenCommands, List.cons_append,
    List.nil_append, List.mem_cons, List.not_mem_nil, or_false] at member
  rcases member with rfl | rfl | rfl | rfl | rfl
  · exact ⟨rfl, rfl⟩
  · trivial
  · exact ⟨rfl, rfl⟩
  · trivial
  · exact ⟨_, rfl⟩

omit [Platform] in
theorem granting_code (code : AuthorizationCode) : ∀ c ∈ codeCommands code, Granting c := by
  intro c member
  simp only [codeCommands, List.mem_cons, List.not_mem_nil, or_false] at member
  rcases member with rfl | rfl
  · exact ⟨rfl, rfl⟩
  · trivial

theorem granting_grants (r : CredentialRequest) (who : String) (v : AdminVal) :
    ∀ c ∈ r.grants who v, Granting c := by
  have nothing : ∀ c ∈ ([] : List (Command AdminKey AdminVal)), Granting c := by simp
  unfold CredentialRequest.grants
  split
  · split
    · exact nothing
    · split
      · exact nothing
      · exact granting_tokens _ _ _ _
  · split
    · exact nothing
    · exact granting_tokens _ _ _ _
  · split
    · exact granting_code _
    · exact nothing
  · exact nothing

omit [Platform] in
theorem typed_granting {c : Command AdminKey AdminVal} (granting : Granting c) : c.Typed := by
  cases c with
  | setField k field v => exact granting.1
  | arm k ttl => trivial
  | addMember k x =>
    obtain ⟨user, rfl⟩ := granting
    rfl
  | _ => exact granting.elim

omit [Platform] in
theorem typed_spend {now : Time} {key : AdminKey} {v : AdminVal} {c : Command AdminKey AdminVal}
    (spends : spend now key v = some c) : c.Typed := by
  obtain ⟨credential, rfl | ⟨w, rfl, _⟩⟩ := spend_cases spends
  · trivial
  · exact credential_family credential

theorem presented_credential {r : CredentialRequest} {key : AdminKey}
    (presents : r.presented = some key) : key.credential = true := by
  cases r with
  | token authorization form draws =>
    have read : CredentialRequest.presentedKey form = .ok key := by
      cases answer : CredentialRequest.presentedKey form with
      | error e => simp [CredentialRequest.presented, answer, Except.toOption] at presents
      | ok other => simpa [CredentialRequest.presented, answer, Except.toOption] using presents
    unfold CredentialRequest.presentedKey at read
    split at read
    · cases params : codeParams form with
      | error e =>
        rw [params] at read
        cases read
      | ok p =>
        rw [params] at read
        cases read
        rfl
    · split at read
      · cases param : refreshParam form with
        | error e =>
          rw [param] at read
          cases read
        | ok p =>
          rw [param] at read
          cases read
          rfl
      · cases read
  | consent sessions cookie form code now =>
    cases presents
    rfl

/-- The steps of a request from a position it comes to. -/
theorem credential_step {t u : CredentialTask} {s s' : AdminStore} (wk : s.WellKinded)
    (formed : t.Formed) (taken : t.step s = some (u, s')) :
    ∃ position, u = ⟨t.request, position⟩ ∧ u.Formed ∧ s'.WellKinded ∧
      CredentialStep t.request s t.position position s' := by
  obtain ⟨r, position⟩ := t
  cases position with
  | opening effect next =>
    simp only [CredentialTask.step, Option.some.injEq, Prod.mk.injEq] at taken
    obtain ⟨rfl, rfl⟩ := taken
    obtain ⟨acts, yields⟩ := formed
    have only : OnlySessions s (effect s) := by
      rcases (acts s wk).1 with same | ⟨c, session, typed, same⟩
      · rw [same]
        exact .refl wk
      · rw [same]
        refine ⟨c.wellKinded_apply typed wk, ?_⟩
        intro k other
        apply c.entry_apply
        rintro rfl
        simp [session] at other
    exact ⟨_, rfl, formed_opened (acts s wk).2 (yields s), only.1, .opens only⟩
  | reading who key =>
    have presents : r.presented = some key := formed
    have family := credential_family (presented_credential presents)
    simp only [CredentialTask.step, readCredential, run_hashGet wk family, Option.some.injEq,
      Prod.mk.injEq] at taken
    obtain ⟨rfl, rfl⟩ := taken
    cases stored : (s.hashAt key).lookup "data" with
    | none => exact ⟨_, rfl, trivial, wk, .refuses⟩
    | some v =>
      simp only
      by_cases spendable : (spend r.spentAt key v).isSome
      · simp only [spendable, if_true]
        exact ⟨_, rfl, ⟨presents, spendable⟩, wk, .reads stored⟩
      · simp only [spendable]
        exact ⟨_, rfl, trivial, wk, .refuses⟩
  | spending who key v =>
    obtain ⟨presents, spendable⟩ := formed
    obtain ⟨c, spends⟩ := Option.isSome_iff_exists.mp spendable
    have typed := typed_spend spends
    have leads : Leads _ (c.prog : Flow Unit) s () (c.apply s) := c.leads_prog typed s
    simp only [CredentialTask.step, spends, Option.map_some, leads.run_eq wk, Option.some.injEq,
      Prod.mk.injEq] at taken
    obtain ⟨rfl, rfl⟩ := taken
    exact ⟨_, rfl, ⟨presents, spendable, List.suffix_rfl⟩, (leads wk).2, .spends spends⟩
  | spent who key v left =>
    cases left with
    | nil => cases taken
    | cons c rest =>
      obtain ⟨presents, spendable, suffix⟩ := formed
      have typed := typed_granting (granting_grants r who v c (suffix.subset List.mem_cons_self))
      simp only [CredentialTask.step, drain_typed typed rest wk, Option.map_some,
        Option.some.injEq, Prod.mk.injEq] at taken
      obtain ⟨rfl, rfl⟩ := taken
      exact ⟨_, rfl, ⟨presents, spendable, (List.suffix_cons c rest).trans suffix⟩,
        c.wellKinded_apply typed wk, .drains⟩
  | refused => cases taken

/-! The positions are those of the programs -/

def spendProgram (r : CredentialRequest) (who : String) (key : AdminKey) (v : AdminVal) :
    Flow Unit :=
  match spend r.spentAt key v with
  | none => pure ()
  | some c => do
    c.prog
    forEach (r.grants who v) Command.prog

def readProgram (r : CredentialRequest) (who : String) (key : AdminKey) : Flow Unit := do
  match ← Bucket.hashGet key "data" with
  | none => pure ()
  | some v => spendProgram r who key v

/-- The program that a task is a position of. -/
def CredentialTask.code (t : CredentialTask) : Flow Unit :=
  match t.position with
  | .opening effect next =>
    settle (.act effect next >>= fun a => readProgram t.request a.1 a.2)
  | .reading who key => settle (readProgram t.request who key)
  | .spending who key v => settle (spendProgram t.request who key v)
  | .spent _ _ _ left => drained left
  | .refused => .done ()

theorem code_opened (r : CredentialRequest) (p : Flow (String × AdminKey)) :
    CredentialTask.code ⟨r, .opened p⟩ = settle (p >>= fun a => readProgram r a.1 a.2) := by
  cases p <;> rfl

theorem code_read (r : CredentialRequest) (who : String) (key : AdminKey) (v : AdminVal) :
    CredentialTask.code ⟨r, if (spend r.spentAt key v).isSome then .spending who key v
      else .refused⟩ = settle (spendProgram r who key v) := by
  unfold spendProgram
  cases spends : spend r.spentAt key v with
  | none => rfl
  | some c =>
    rw [if_pos Option.isSome_some]
    simp only [CredentialTask.code, spendProgram, spends]

theorem credential_task_step (t : CredentialTask) (s : AdminStore) :
    Prog.step t.code s = (t.step s).map (fun b => (b.1.code, b.2)) := by
  obtain ⟨r, position⟩ := t
  cases position with
  | opening effect next =>
    show some (settle (next s >>= fun a => readProgram r a.1 a.2), effect s) =
      some (CredentialTask.code ⟨r, .opened (next s)⟩, effect s)
    rw [code_opened]
  | reading who key =>
    show step (settle (readProgram r who key)) s =
        some (CredentialTask.code ⟨r, readCredential r who key s⟩, _)
    unfold readProgram readCredential
    have one : Single (Bucket.hashGet key "data" : Flow (Option AdminVal)) := single_atomic _
    rcases ran : run (Bucket.hashGet key "data" : Flow (Option AdminVal)) s with ⟨e | (_ | v), s'⟩
    · rw [step_settle_error one _ ran]
      rfl
    · rw [step_settle_ok one _ ran]
      rfl
    · rw [step_settle_ok one _ ran]
      exact congrArg (fun c => some (c, s')) (code_read r who key v).symm
  | spending who key v =>
    show step (settle (spendProgram r who key v)) s = _
    unfold spendProgram CredentialTask.step
    cases spends : spend r.spentAt key v with
    | none =>
      simp only [spends, Option.map_none]
      rfl
    | some c =>
      simp only [spends, Option.map_some]
      rcases ran : run (c.prog : Flow Unit) s with ⟨e | u, s'⟩
      · rw [step_settle_error c.single_prog _ ran]
        rfl
      · rw [step_settle_ok c.single_prog _ ran]
        rfl
  | spent who key v left =>
    show step (drained left) s = _
    rw [step_drained]
    unfold CredentialTask.step
    rw [Option.map_map]
    rfl
  | refused => rfl

/-! The programs are those of the endpoints -/

section Settling
variable {A B : Type}

omit [Platform] in
/-- How an endpoint reports the errors of a command does not matter once it is settled. -/
theorem settle_command (refusal : Refusal)
    (f : AdminStore → Storage.Reply AdminKey AdminVal A) (k : A → Flow B) :
    settle (orRefuse refusal (Bucket.command f) >>= k) =
      settle ((Bucket.command f : Flow A) >>= k) := by
  unfold orRefuse Bucket.command
  rw [mapError_atomic]
  apply settle_atomic_bind
  · intro s
    rfl
  · intro s
    cases (f s).1 <;> rfl

omit [Platform] in
theorem settle_readJsonHash (refusal : Refusal) (decode : AdminVal → Option A) (key : AdminKey)
    (k : Option A → Flow B) :
    settle (orRefuse refusal (readJsonHash decode key) >>= k) =
      settle (Bucket.hashGet key "data" >>= fun o =>
        match o with
        | none => k none
        | some v => match decode v with
          | none => Prog.fail refusal
          | some r => k (some r)) := by
  unfold readJsonHash orRefuse
  rw [mapError_bind, bind_assoc]
  refine (settle_command refusal (Storage.hashGet key "data") _).trans (settle_bind _ ?_)
  intro o
  cases o with
  | none => rfl
  | some v =>
    simp only
    cases decode v <;> rfl

omit [Platform] in
theorem settle_prog (refusal : Refusal) (c : Command AdminKey AdminVal) (k : Unit → Flow B) :
    settle (orRefuse refusal c.prog >>= k) = settle ((c.prog : Flow Unit) >>= k) := by
  cases c with
  | setField key field v => exact settle_command refusal (Storage.hashSet key field v) k
  | dropField key field => exact settle_command refusal (Storage.hashDelete key field) k
  | put key v => exact settle_command refusal (Storage.set key v) k
  | putTtl key v ttl => exact settle_command refusal (Storage.setWithTtl key v ttl) k
  | erase key => exact settle_command refusal (Storage.delete key) k
  | addMember key x => exact settle_command refusal (Storage.setAdd key x) k
  | dropMember key x => exact settle_command refusal (Storage.setRemove key x) k
  | arm key ttl =>
    show settle (orRefuse refusal (Bucket.armTtl key ttl) >>= k) =
      settle (Bucket.armTtl key ttl >>= k)
    unfold Bucket.armTtl
    split
    · exact settle_command refusal (Storage.clearTtl key) k
    · exact settle_command refusal (Storage.setTtl key ttl) k

omit [Platform] in
theorem settle_commands (refusal : Refusal) (cs : List (Command AdminKey AdminVal))
    (k : Unit → Flow B) :
    settle (orRefuse refusal (forEach cs Command.prog) >>= k) =
      settle (forEach cs Command.prog >>= k) := by
  induction cs with
  | nil => rfl
  | cons c rest ih =>
    show settle (orRefuse refusal (c.prog >>= fun _ => forEach rest Command.prog) >>= k) =
      settle ((c.prog >>= fun _ => forEach rest Command.prog) >>= k)
    have opens : orRefuse refusal (c.prog >>= fun _ => forEach rest Command.prog) =
        orRefuse refusal c.prog >>= fun _ => orRefuse refusal (forEach rest Command.prog) :=
      mapError_bind _ _ _
    rw [opens, bind_assoc, bind_assoc, settle_prog]
    exact settle_bind _ (fun _ => ih)

end Settling

omit [Platform] in
theorem saveAuthorizationCode_commands (code : AuthorizationCode) :
    saveAuthorizationCode code = forEach (codeCommands code) Command.prog := by
  have arms : (Command.arm (AdminKey.code code.code) authCodeTtlSeconds).prog >>=
      (fun _ => pure ()) = (Bucket.setTtl (.code code.code) authCodeTtlSeconds : OAuthProg Unit) :=
    bind_pure _
  exact congrArg (fun p => writeJsonHash (.code code.code) (.code code) >>= fun _ => p) arms.symm

omit [Platform] in
theorem saveAccessToken_commands (token : AccessToken) (ttl : Nat) :
    saveAccessToken token ttl = forEach (accessTokenCommands token ttl) Command.prog := by
  have arms : (Command.arm (AdminKey.access token.tokenHash) (max ttl 1)).prog >>=
      (fun _ => pure ()) = (Bucket.setTtl (.access token.tokenHash) (max ttl 1) :
        OAuthProg Unit) := by
    have positive : max ttl 1 ≠ 0 := by omega
    rw [bind_pure, Command.prog, Bucket.armTtl, if_neg positive]
  exact congrArg (fun p => writeJsonHash (.access token.tokenHash) (.access token) >>= fun _ => p)
    arms.symm

omit [Platform] in
theorem saveRefreshToken_commands (token : RefreshToken) :
    saveRefreshToken token = forEach (refreshTokenCommands token) Command.prog := by
  have adds : (Command.addMember (AdminKey.refreshByUser token.userId) token.tokenHash).prog >>=
      (fun _ => pure ()) =
      (Bucket.setAdd (.refreshByUser token.userId) token.tokenHash : OAuthProg Unit) := bind_pure _
  exact congrArg (fun p => writeJsonHash (.refresh token.tokenHash) (.refresh token) >>= fun _ =>
    Bucket.setTtl (.refresh token.tokenHash) refreshTokenTtlSeconds >>= fun _ => p) adds.symm

theorem settle_issueTokens (clientId userId scope : String) (draws : TokenDraws) :
    settle (issueTokens clientId userId scope draws) =
      drained (tokenCommands clientId userId scope draws) := by
  unfold issueTokens drained tokenCommands
  simp only
  rw [saveAccessToken_commands, saveRefreshToken_commands, settle_commands, forEach_append]
  apply settle_bind
  intro _
  rw [settle_commands]
  exact settle_bind_pure _ _

theorem settle_decideConsent (pending : PendingAuthorization) (action userId code : String)
    (now : Time) : settle (decideConsent pending action userId code now) =
      drained (if action = "approve" then codeCommands
        (newCode pending userId code now) else []) := by
  unfold decideConsent
  simp only
  by_cases approves : action = "approve"
  · subst approves
    rw [if_neg (by decide), if_neg (by decide), if_pos rfl, saveAuthorizationCode_commands,
      settle_commands]
    exact settle_bind_pure _ _
  · rw [if_neg approves]
    split
    · rfl
    · rfl

/-- What follows the read of a record of one kind, once it has settled. -/
theorem settle_consume {A B R : Type} (refusal : Refusal) (decode : AdminVal → Option R)
    (key : AdminKey) (f : Option R → OAuthProg A) (k : A → Flow B) (r : CredentialRequest)
    (who : String) (absent : settle (orRefuse refusal (f none) >>= k) = .done ())
    (other : ∀ v, decode v = none → spendProgram r who key v = pure ())
    (found : ∀ v a, decode v = some a →
      settle (spendProgram r who key v) = settle (orRefuse refusal (f (some a)) >>= k)) :
    settle (readProgram r who key) =
      settle (orRefuse refusal (readJsonHash decode key >>= f) >>= k) := by
  have opens : orRefuse refusal (readJsonHash decode key >>= f) =
      orRefuse refusal (readJsonHash decode key) >>= fun o => orRefuse refusal (f o) :=
    mapError_bind _ _ _
  rw [opens, bind_assoc, settle_readJsonHash]
  apply settle_bind
  rintro (_ | v)
  · exact absent.symm
  · show settle (spendProgram r who key v) = settle (match decode v with | none => _ | some r => _)
    cases decoded : decode v with
    | none =>
      rw [other v decoded]
      rfl
    | some a => exact found v a decoded

omit [Platform] in
theorem settle_spent {A B C : Type} (refusal : Refusal) (c : Command AdminKey AdminVal) (a : A)
    (k : A → Flow B) {rest : Flow C} (alike : settle rest = settle (k a)) :
    settle (c.prog >>= fun _ => rest) =
      settle (orRefuse refusal (c.prog >>= fun _ => pure a) >>= k) := by
  have opens : orRefuse refusal (c.prog >>= fun _ => pure a) =
      orRefuse refusal c.prog >>= fun _ => orRefuse refusal (pure a) := mapError_bind _ _ _
  rw [opens, bind_assoc, settle_prog]
  exact settle_bind _ (fun _ => alike)

theorem spendProgram_none {r : CredentialRequest} {who : String} {key : AdminKey} {v : AdminVal}
    (spent : spend r.spentAt key v = none) : spendProgram r who key v = pure () := by
  simp only [spendProgram, spent]

theorem spendProgram_some {r : CredentialRequest} {who : String} {key : AdminKey} {v : AdminVal}
    {c : Command AdminKey AdminVal} (spends : spend r.spentAt key v = some c) :
    spendProgram r who key v = c.prog >>= fun _ => forEach (r.grants who v) Command.prog := by
  simp only [spendProgram, spends]

section Grants
variable (authorization : Option String) (form : TokenForm) (draws : TokenDraws)
  (client : OAuthClient)

theorem settle_code_grant {params : CodeParams} (read : codeParams form = .ok params) :
    settle (readProgram (.token authorization form draws) client.clientId (.code params.code)) =
      settle (handleAuthorizationCodeGrant client form draws) := by
  unfold handleAuthorizationCodeGrant
  rw [read]
  refine settle_consume serverError AdminVal.asCode (.code params.code) _ _ _ _ rfl ?_ ?_
  · intro v other
    cases v with
    | code record => cases other
    | _ => rfl
  · intro v record decoded
    rw [code_of_asCode decoded]
    by_cases used : record.usedAt.isSome
    · have refused : spend (CredentialRequest.token authorization form draws).spentAt
          (.code params.code) (.code record) = none := if_pos used
      rw [spendProgram_none refused]
      simp only [if_pos used]
      rfl
    · have spends : spend (CredentialRequest.token authorization form draws).spentAt
          (.code params.code) (.code record) = some _ := if_neg used
      rw [spendProgram_some spends]
      simp only [if_neg used]
      apply settle_spent
      show settle (forEach (CredentialRequest.grants _ _ _) Command.prog) = settle
        (match codeRefused { record with usedAt := _ } client.clientId params.redirectUri
          params.verifier with | some refusal => _ | none => _)
      have same : codeRefused { record with usedAt := some draws.consumedAt } client.clientId
          params.redirectUri params.verifier =
          codeRefused record client.clientId params.redirectUri params.verifier := rfl
      simp only [CredentialRequest.grants, read, same]
      cases codeRefused record client.clientId params.redirectUri params.verifier with
      | some refusal => rfl
      | none => exact (settle_issueTokens _ _ _ _).symm

theorem settle_refresh_grant {presented : String} (read : refreshParam form = .ok presented) :
    settle (readProgram (.token authorization form draws) client.clientId
        (.refresh (Digest.sha256Hex presented))) =
      settle (handleRefreshTokenGrant client form draws) := by
  unfold handleRefreshTokenGrant
  rw [read]
  refine settle_consume serverError AdminVal.asRefresh (.refresh (Digest.sha256Hex presented))
    _ _ _ _ rfl ?_ ?_
  · intro v other
    cases v with
    | refresh record => cases other
    | _ => rfl
  · intro v record decoded
    rw [refresh_of_asRefresh decoded]
    by_cases spent : record.usedAt.isSome ∨ record.revokedAt.isSome
    · have refused : spend (CredentialRequest.token authorization form draws).spentAt
          (.refresh (Digest.sha256Hex presented)) (.refresh record) = none := if_pos spent
      rw [spendProgram_none refused]
      simp only [if_pos spent]
      rfl
    · have spends : spend (CredentialRequest.token authorization form draws).spentAt
          (.refresh (Digest.sha256Hex presented)) (.refresh record) = some _ := if_neg spent
      rw [spendProgram_some spends]
      simp only [if_neg spent]
      apply settle_spent
      show settle (forEach (if record.clientId ≠ client.clientId then [] else
        tokenCommands record.clientId record.userId record.scope draws) Command.prog) = settle
        (if record.clientId ≠ client.clientId then _ else issueTokens record.clientId _ _ draws)
      split
      · rfl
      · exact (settle_issueTokens _ _ _ _).symm

end Grants

theorem settle_consent (sessions : Option Nat) (cookie : Option String) (form : ConsentForm)
    (code userId : String) (now : Time) :
    settle (readProgram (.consent sessions cookie form code now) userId (.pending form.state)) =
      settle (orRefuse internalError (consumePending form.state) >>= fun o =>
        match o with
        | none => Prog.fail (.plain 400 "consent request expired or already handled")
        | some pending => decideConsent pending form.action userId code now) := by
  refine settle_consume internalError AdminVal.asPending (.pending form.state) _ _ _ _ rfl ?_ ?_
  · intro v other
    cases v with
    | pending record => cases other
    | _ => rfl
  · intro v record decoded
    rw [pending_of_asPending decoded, spendProgram_some rfl]
    apply settle_spent (c := .erase (.pending form.state))
    exact (settle_decideConsent _ _ _ _ _).symm

/-- A request that is launched does what its endpoint does. -/
theorem launch_code (r : CredentialRequest) : r.launch.code = r.program := by
  unfold CredentialRequest.launch
  rw [code_opened]
  cases r with
  | token authorization form draws =>
    show settle ((authenticateClient authorization form >>= fun client =>
      Prog.ofExcept (CredentialRequest.presentedKey form) >>= fun key =>
        pure (client.clientId, key)) >>= _) = settle (token authorization form draws)
    rw [bind_assoc]
    apply settle_bind
    intro client
    rw [bind_assoc]
    unfold CredentialRequest.presentedKey
    by_cases byCode : form.grantType = "authorization_code"
    · rw [if_pos byCode, if_pos byCode]
      cases read : codeParams form with
      | error e =>
        unfold handleAuthorizationCodeGrant
        rw [read]
        rfl
      | ok params => exact settle_code_grant authorization form draws client read
    · rw [if_neg byCode, if_neg byCode]
      by_cases byToken : form.grantType = "refresh_token"
      · rw [if_pos byToken, if_pos byToken]
        cases read : refreshParam form with
        | error e =>
          unfold handleRefreshTokenGrant
          rw [read]
          rfl
        | ok presented => exact settle_refresh_grant authorization form draws client read
      · rw [if_neg byToken, if_neg byToken]
        rfl
  | consent sessions cookie form code now =>
    show settle ((resolveSessionUser sessions cookie now >>= _) >>= _) =
      settle (consentSubmit sessions cookie form code now)
    rw [bind_assoc]
    apply settle_bind
    rintro (_ | userId)
    · rfl
    · exact settle_consent sessions cookie form code userId now

end Tasks

end WireMirage
