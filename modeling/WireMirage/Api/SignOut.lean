import WireMirage.Api.Stamps

/-!
Signing out everywhere. The epoch of an account only grows, whoever writes its record, and
a request is accepted for a session only where the stamp of the session is the epoch.
-/
namespace WireMirage
open Prog StepMachine

/-! What requests do among others -/

section Safety
variable {n : Option String} {mine : String → Prop} {s : AdminStore}

section IfOk
variable {Err A B : Type} {good : A → AdminStore → Prop} {mid : B → AdminStore → Prop}

theorem ifOk_bind {p : Prog AdminStore Err B} {k : B → Prog AdminStore Err A}
    (valid : SignUpsValid s) (first : SafeSignUp n mine (IfOk mid) p s)
    (rest : ∀ b t, SignUpsValid t → AccountsGrow s t → mid b t →
      SafeSignUp n mine (IfOk good) (k b) t) : SafeSignUp n mine (IfOk good) (p >>= k) s := by
  refine safe_seq_signUp valid first ?_ ?_
  · exact fun b t valid' grows here => rest b t valid' grows (here b rfl)
  · intro e t _ _ _ a wrong
    cases wrong

theorem ifOk_answer {a : A} (stable : ∀ t, SignUpsValid t → AccountsGrow s t → good a t) :
    SafeSignUp n mine (IfOk good) (pure a : Prog AdminStore Err A) s := by
  refine safe_answer (fun t valid grows b same => ?_)
  cases same
  exact stable t valid grows

/-- A command beside the accounts, with nothing known of its end. -/
theorem ifOk_beside [FromStoreError AdminKey Err] {c : Command AdminKey AdminVal} (typed : c.Typed)
    (same : ∀ t, SignUpsValid t → AccountsGrow s t → SameAccounts t (c.apply t)) :
    SafeSignUp n mine (IfOk (fun _ _ => True)) (c.prog : Prog AdminStore Err Unit) s :=
  safe_weaken (safe_beside typed same) (fun _ _ _ _ _ _ => trivial)

/-- A program that only reads. -/
theorem ifOk_reads {p : Prog AdminStore Err A} (reads : Acts (fun _ => False) p) :
    SafeSignUp n mine (IfOk (fun _ _ => True)) p s := by
  induction p generalizing s with
  | done a => exact fun _ _ _ _ _ => trivial
  | fail e => exact fun _ _ _ _ _ => trivial
  | act effect next ih =>
    intro t _ valid
    obtain ⟨change, rest⟩ := reads t valid.kinded
    rcases change with same | ⟨_, impossible, _⟩
    · rw [same]
      exact ⟨valid, .refl _ _, ih t rest⟩
    · exact impossible.elim

end IfOk

/-! Accounts -/

theorem claimed_registered (valid : SignUpsValid s) {id : String} (claimed : Claimed s id) :
    ∃ email, Registered s id email ∧ Indexed s email id := by
  obtain ⟨email, indexed⟩ := claimed
  obtain ⟨_, x, same, registered⟩ := valid.index email _ indexed
  cases same
  exact ⟨email, registered, indexed⟩

/-- An account is read whole, with an epoch that is not from before. -/
theorem safe_readClaimed (valid : SignUpsValid s) {id : String} (claimed : Claimed s id) :
    SafeSignUp n mine (IfOk (fun read _ => ∃ user, read = some user ∧ user.id = id ∧
      epochOf s id ≤ user.sessionEpoch)) (readUserById id) s := by
  apply safe_read (single_readUserById id)
  intro t valid' grows
  obtain ⟨email, registered, _⟩ := claimed_registered valid claimed
  obtain ⟨user, answer, sameId, _⟩ := registered_answer (grows.registered id email registered)
  refine ⟨_, run_readUserById valid'.kinded id, ?_⟩
  rw [answer]
  intro u _ _ read same
  cases same
  refine ⟨user, rfl, sameId, ?_⟩
  rw [answer_epoch answer]
  exact grows.epochs id claimed

theorem safe_getClaimed (valid : SignUpsValid s) {id : String} (claimed : Claimed s id) :
    SafeSignUp n mine (IfOk (fun user _ => user.id = id ∧ epochOf s id ≤ user.sessionEpoch))
      (getUserById id) s := by
  refine ifOk_bind valid (safe_readClaimed valid claimed) ?_
  rintro _ t _ _ ⟨user, rfl, here⟩
  exact ifOk_answer (fun _ _ _ => here)

/-! Sessions -/

theorem holder_put_session {token : String} {session : Session}
    {deadline : Option Nat} {id : String}
    (holder : Holder (s.put (.session token) (.session session) deadline) id) :
    Holder s id ∨ session.userId = id := by
  cases holder with
  | session token' held found own =>
    by_cases same : token' = token
    · subst same
      simp only [Storage.bytesAt_put, if_true, Option.some.injEq, AdminVal.session.injEq] at found
      exact .inr (found ▸ own)
    · rw [Storage.bytesAt_put, if_neg (by simp [same])] at found
      exact .inl (.session token' held found own)
  | token tokenId v found own =>
    rw [Storage.hashAt_put, if_neg (by simp)] at found
    exact .inl (.token tokenId v found own)
  | access hash held found own =>
    rw [Storage.hashAt_put, if_neg (by simp)] at found
    exact .inl (.access hash held found own)

theorem holder_erase {k : AdminKey} {id : String} (holder : Holder (s.erase k) id) :
    Holder s id := by
  cases holder with
  | session token held found own =>
    rw [Storage.bytesAt_erase] at found
    split at found
    · cases found
    · exact .session token held found own
  | token tokenId v found own =>
    rw [Storage.hashAt_erase] at found
    split at found
    · simp at found
    · exact .token tokenId v found own
  | access hash held found own =>
    rw [Storage.hashAt_erase] at found
    split at found
    · simp at found
    · exact .access hash held found own

theorem safe_writeSession (ttlSeconds : Nat) (token : String) {session : Session}
    (claimed : Claimed s session.userId) :
    SafeSignUp n mine (IfOk (fun _ _ => True)) (writeSession ttlSeconds token session) s := by
  apply ifOk_beside (c := .putTtl (.session token) (.session session) ttlSeconds) rfl
  intro t valid grows
  apply same_elsewhere (c := .putTtl (.session token) (.session session) ttlSeconds) valid rfl rfl
  intro id holder
  rcases holder_put_session holder with before | rfl
  · exact .inl before
  · exact .inr (grows.claimed claimed)

theorem same_erased {k : AdminKey} (elsewhere : k.elsewhere = true) (valid : SignUpsValid s) :
    SameAccounts s (s.erase k) :=
  same_elsewhere (c := .erase k) valid trivial elsewhere
    (fun _ holder => .inl (holder_erase holder))

theorem safe_deleteSession (token : String) :
    SafeSignUp n mine (IfOk (fun _ _ => True)) (deleteSession token) s :=
  ifOk_beside (c := .erase (.session token)) trivial (fun _ valid _ => same_erased rfl valid)

/-- A session that is read is an account's. -/
theorem safe_readSession (token : String) :
    SafeSignUp n mine (IfOk (fun session t => Claimed t session.userId)) (readSession token) s := by
  apply safe_read (single_readSession token)
  intro t valid _
  unfold readSession
  rw [run_bind, run_get valid.kinded rfl, andThen_ok]
  have refused : ∀ (r : Except SessionError Session), r.toOption = none →
      ∀ u, IfOk (fun session t => Claimed t session.userId) r u := by
    rintro r none u session rfl
    cases none
  cases found : t.bytesAt (.session token) with
  | none => exact ⟨_, rfl, fun u _ _ => refused _ rfl u⟩
  | some v =>
    cases v with
    | session session =>
      refine ⟨_, rfl, ?_⟩
      intro u _ later session' same
      cases same
      exact later.claimed (valid.holders _ (.session token session found rfl))
    | _ => exact ⟨_, rfl, fun u _ _ => refused _ rfl u⟩

theorem safe_liveSession (valid : SignUpsValid s) (token : String) (now : Time) :
    SafeSignUp n mine (IfOk (fun session t => Claimed t session.userId))
      (liveSession token now) s := by
  refine ifOk_bind valid (safe_readSession token) ?_
  intro session t valid' _ claimed
  show SafeSignUp n mine _ (if session.expiresAt < now then _ else _) t
  split
  · exact ifOk_bind valid' (ifOk_attempt (safe_deleteSession token)) (fun _ u _ _ _ => ifOk_fail _)
  · exact ifOk_answer (fun u _ later => later.claimed claimed)

theorem safe_touch [Signing] (valid : SignUpsValid s) (ttlSeconds : Nat) (cookie : String)
    (now : Time) :
    SafeSignUp n mine (IfOk (fun session t => Claimed t session.userId))
      (touch ttlSeconds cookie now) s := by
  unfold touch
  cases openCookie cookie with
  | error e => exact ifOk_fail e
  | ok token =>
    show SafeSignUp n mine _ (liveSession token now >>= _) s
    refine ifOk_bind valid (safe_liveSession valid token now) ?_
    intro session t valid' _ claimed
    refine ifOk_bind valid' (safe_writeSession ttlSeconds token claimed) ?_
    exact fun _ u _ grows _ => ifOk_answer (fun v _ later => later.claimed (grows.claimed claimed))

/-! Who a request comes from -/

/-- A session that is accepted carries no epoch from before. -/
def Current (s : AdminStore) (session : Option Session) : Prop :=
  ∀ known, session = some known → Claimed s known.userId → epochOf s known.userId ≤ known.epoch

theorem current_of_read {t : AdminStore} {session : Session} {user : User}
    (grows : AccountsGrow s t)
    (read : epochOf t session.userId ≤ user.sessionEpoch)
    (fresh : ¬ session.epoch ≠ user.sessionEpoch) : Current s (some session) := by
  intro known same claimed
  cases same
  rw [not_ne_iff.mp fresh]
  exact Nat.le_trans (grows.epochs _ claimed) read

theorem safe_sessionContext [Signing] (valid : SignUpsValid s) (ttlSeconds : Nat) (cookie : String)
    (now : Time) :
    SafeSignUp n mine (IfOk (fun found t => Claimed t found.1.userId ∧ Current s (some found.2)))
      (sessionContext ttlSeconds cookie now) s := by
  refine ifOk_bind valid (ifOk_mapError _ (safe_touch valid ttlSeconds cookie now)) ?_
  intro session t valid' grows claimed
  refine ifOk_bind valid' (ifOk_mapError _ (safe_getClaimed valid' claimed)) ?_
  rintro user u _ grows' ⟨same, read⟩
  show SafeSignUp n mine _ (if session.epoch ≠ user.sessionEpoch then _ else _) u
  split
  · exact ifOk_fail _
  · rename_i fresh
    refine ifOk_answer (fun v _ later => ⟨?_, current_of_read grows read fresh⟩)
    show Claimed v user.id
    rw [same]
    exact later.claimed (grows'.claimed claimed)

theorem safe_resolvedSession {Err : Type} [Signing] (valid : SignUpsValid s) (sessions : Option Nat)
    (cookie : Option String) (now : Time) :
    SafeSignUp n mine (IfOk (fun session _ => Current s session))
      (resolvedSession sessions cookie now : Prog AdminStore Err _) s := by
  have nobody : ∀ t, SafeSignUp n mine (IfOk (fun session _ => Current s session))
      (pure none : Prog AdminStore Err (Option Session)) t :=
    fun t => ifOk_answer (fun _ _ _ known wrong => by cases wrong)
  rcases sessions with _ | ttl
  · exact nobody s
  rcases cookie with _ | cookie
  · exact nobody s
  refine ifOk_bind valid (ifOk_outcome (safe_touch valid ttl cookie now)) ?_
  rintro (e | session) t valid' grows claimed
  · exact nobody t
  refine ifOk_bind valid' (ifOk_outcome (safe_getClaimed valid' (claimed session rfl))) ?_
  rintro (e | user) u _ _ read
  · exact nobody u
  show SafeSignUp n mine _ (if session.epoch ≠ user.sessionEpoch then _ else _) u
  split
  · exact nobody u
  · rename_i fresh
    exact ifOk_answer (fun _ _ _ => current_of_read grows (read user rfl).2 fresh)

/-! Bearer tokens -/

theorem userText_lookup {fields : Fields AdminVal} {name text : String}
    (read : userText fields name = .ok text) :
    ∃ v, fields.lookup name = some v ∧ v.utf8 = some text := by
  unfold userText at read
  cases found : fields.lookup name with
  | none => simp [found] at read
  | some v =>
    cases decoded : v.utf8 with
    | none => simp [found, decoded] at read
    | some text' =>
      simp only [found, decoded, Except.ok.injEq] at read
      exact ⟨v, rfl, read ▸ decoded⟩

/-- The owner of a token that is read is an account. -/
theorem safe_readTokenById (valid : SignUpsValid s) (id : String) :
    SafeSignUp n mine (IfOk (fun read t => ∀ token, read = some token → Claimed t token.ownerId))
      (readTokenById id) s := by
  have reads : SafeSignUp n mine (IfOk (fun fields t => ∀ owner,
      userText fields "owner_id" = .ok owner → Claimed t owner))
      (Bucket.hashGetAll (.token id) : AuthProg _) s := by
    apply safe_read (single_atomic _)
    intro t valid' _
    refine ⟨_, run_hashGetAll valid'.kinded rfl, ?_⟩
    intro u _ later fields same owner read
    cases same
    obtain ⟨v, found, text⟩ := userText_lookup read
    exact later.claimed (valid'.holders _ (.token id v found text))
  refine ifOk_bind valid reads ?_
  intro fields t _ _ owners
  show SafeSignUp n mine _ (if fields.entries.isEmpty then _ else _) t
  split
  · exact ifOk_answer (fun _ _ _ => nofun)
  · cases decoded : decodeToken fields with
    | error e => exact ifOk_fail e
    | ok token =>
      refine ifOk_answer (fun u _ later token' same => ?_)
      cases same
      simp only [decodeToken, ok_bind_iff, pure, Except.pure, Except.ok.injEq] at decoded
      obtain ⟨_, _, _, _, _, _, _, _, _, _, owner, read, _, _, _, _, rfl⟩ := decoded
      exact later.claimed (owners owner read)

theorem safe_authenticatedUser (valid : SignUpsValid s) {id : String} (claimed : Claimed s id)
    (kindId : String) :
    SafeSignUp n mine (IfOk (fun found t => ∀ context, found = some context →
      Claimed t context.userId)) (authenticatedUser id kindId) s := by
  refine ifOk_bind valid (safe_readClaimed valid claimed) ?_
  rintro _ t _ grows ⟨user, rfl, same, _⟩
  refine ifOk_answer (fun u _ later context held => ?_)
  cases held
  show Claimed u user.id
  rw [same]
  exact later.claimed (grows.claimed claimed)

theorem safe_authenticateWmt [Digest] (valid : SignUpsValid s) (plaintext : String) (now : Time) :
    SafeSignUp n mine (IfOk (fun found t => ∀ context, found = some context →
      Claimed t context.userId)) (authenticateWmt plaintext now) s := by
  have nobody : ∀ t, SafeSignUp n mine (IfOk (fun found t => ∀ context, found = some context →
      Claimed t context.userId)) (pure none : AuthProg (Option AuthContext)) t :=
    fun t => ifOk_answer (fun _ _ _ => nofun)
  refine ifOk_bind valid (ifOk_reads (acts_get rfl)) ?_
  rintro (_ | v) t valid' _ _
  · exact nobody t
  refine ifOk_bind valid' (ifOk_reads (acts_indexedId _ v)) ?_
  intro id u valid'' _ _
  refine ifOk_bind valid'' (safe_readTokenById valid'' id) ?_
  rintro (_ | token) w valid3 _ owned
  · exact nobody w
  show SafeSignUp n mine _ (if token.expiresAt.any (· < now) then _ else _) w
  split
  · exact nobody w
  refine ifOk_bind valid3 (safe_authenticatedUser valid3 (owned token rfl) token.id) ?_
  rintro (_ | context) x valid4 _ known
  · exact nobody x
  have marks : SafeSignUp n mine (IfOk (fun _ _ => True))
      (Bucket.hashSet (.token token.id) "last_used_at" (.time now) : AuthProg Unit) x := by
    apply ifOk_beside (c := .setField (.token token.id) "last_used_at" (.time now)) rfl
    exact fun y valid _ => same_token_field valid (fun same => absurd same (by decide))
  refine ifOk_bind valid4 (ifOk_attempt marks) ?_
  intro _ y _ grows _
  refine ifOk_answer (fun z _ later context' held => ?_)
  cases held
  exact later.claimed (grows.claimed (known context rfl))

theorem safe_authenticateWmm [Digest] (valid : SignUpsValid s) (plaintext : String) (now : Time) :
    SafeSignUp n mine (IfOk (fun found t => ∀ context, found = some context →
      Claimed t context.userId)) (authenticateWmm plaintext now) s := by
  have nobody : ∀ t, SafeSignUp n mine (IfOk (fun found t => ∀ context, found = some context →
      Claimed t context.userId)) (pure none : AuthProg (Option AuthContext)) t :=
    fun t => ifOk_answer (fun _ _ _ => nofun)
  have loads : SafeSignUp n mine (IfOk (fun found t => ∀ access, found = some access →
      Claimed t access.userId)) (loadAccessToken (Digest.sha256Hex plaintext)) s := by
    have reads : SafeSignUp n mine (IfOk (fun v t => ∀ access, v = some (.access access) →
        Claimed t access.userId))
        (Bucket.hashGet (.access (Digest.sha256Hex plaintext)) "data" : OAuthProg _) s := by
      apply safe_read (single_atomic _)
      intro t valid' _
      refine ⟨_, run_hashGet valid'.kinded rfl "data", ?_⟩
      intro u _ later v same access held
      cases same
      exact later.claimed (valid'.holders _ (.access _ access held rfl))
    refine ifOk_bind valid reads ?_
    intro v t _ _ owned
    rcases v with _ | v
    · exact ifOk_answer (fun _ _ _ => nofun)
    · cases v with
      | access r =>
        refine ifOk_answer (fun u _ later access held => ?_)
        cases held
        exact later.claimed (owned _ rfl)
      | _ => exact ifOk_fail _
  refine ifOk_bind valid (ifOk_attempt (ifOk_mapError accessError loads)) ?_
  rintro (e | (_ | access)) t valid' _ owned
  · cases e with
    | notFound => exact nobody t
    | _ => exact ifOk_fail _
  · exact nobody t
  · show SafeSignUp n mine _ (if access.expiresAt < now then _ else _) t
    split
    · exact nobody t
    · exact safe_authenticatedUser valid' (owned (some access) rfl access rfl) access.tokenHash

/-- Whoever a request comes from has an account. -/
theorem safe_identify [Digest] [Signing] (valid : SignUpsValid s) (sessions : Option Nat)
    (credentials : Credentials) (now : Time) :
    SafeSignUp n mine (IfOk (fun found t => Claimed t found.1.userId ∧ Current s found.2))
      (identify sessions credentials now) s := by
  unfold identify
  split
  · rename_i header _
    have bears : SafeSignUp n mine (IfOk (fun context t => Claimed t context.userId))
        (bearerContext header now) s := by
      unfold bearerContext
      cases bearerToken header with
      | error e => exact ifOk_fail e
      | ok token =>
        have authenticates : SafeSignUp n mine (IfOk (fun found t => ∀ context,
            found = some context → Claimed t context.userId)) (authenticate token now) s := by
          unfold authenticate
          split
          · exact safe_authenticateWmt valid token now
          · split
            · exact safe_authenticateWmm valid token now
            · exact ifOk_answer (fun _ _ _ => nofun)
        show SafeSignUp n mine _ (Prog.mapError _ (authenticate token now) >>= _) s
        refine ifOk_bind valid (ifOk_mapError _ authenticates) ?_
        rintro (_ | context) t _ _ known
        · exact ifOk_fail _
        · exact ifOk_answer (fun u _ later => later.claimed (known context rfl))
    refine ifOk_bind valid bears ?_
    intro context t _ _ claimed
    exact ifOk_answer (fun u _ later => ⟨later.claimed claimed, fun _ wrong => by cases wrong⟩)
  · split
    · rename_i ttlSeconds cookie _
      refine ifOk_bind valid (safe_sessionContext valid ttlSeconds cookie now) ?_
      rintro ⟨context, session⟩ t _ _ ⟨claimed, current⟩
      exact ifOk_answer (fun u _ later => ⟨later.claimed claimed, current⟩)
    · exact ifOk_fail _

/-! What requests write -/

/-- The epoch that a bump answers is above every one before, and the account's from then on. -/
theorem safe_bumpSessionEpoch (valid : SignUpsValid s) {id : String} (claimed : Claimed s id) :
    SafeSignUp n mine (IfOk (fun epoch t => epochOf s id < epoch ∧ epoch ≤ epochOf t id))
      (bumpSessionEpoch id) s := by
  refine ifOk_bind valid (safe_getClaimed valid claimed) ?_
  intro _ t valid' grows _
  have bumps : SafeSignUp n mine
      (IfOk (fun next u => epochOf s id < asU64 next ∧ asU64 next ≤ epochOf u id))
      (Bucket.hashIncr (.user id) "session_epoch" 1 : AuthProg Int) t := by
    apply safe_single (single_atomic _)
    intro u other valid''
    have held := other.claimed (grows.claimed claimed)
    obtain ⟨email, registered, _⟩ := claimed_registered valid'' held
    obtain ⟨epoch, stored, bound⟩ := registered.epochField
    have ran : run (Bucket.hashIncr (.user id) "session_epoch" 1 : AuthProg Int) u =
        ((u.hashIncr (.user id) "session_epoch" 1).1.mapError FromStoreError.wrap,
          (u.hashIncr (.user id) "session_epoch" 1).2) := run_command _
    have read : u.readInt (AdminVal.int epoch) = some (epoch : Int) := by
      unfold Storage.readInt
      split <;> rfl
    rw [Storage.hashIncr_eq valid''.kinded rfl, stored] at ran
    simp only [Storage.addInt, read] at ran
    split at ran
    · rename_i within
      have small : epoch + 1 < u64Size := by
        have most := within.2
        simp only [i64Max, u64Size] at *
        omega
      obtain ⟨whole, bumped⟩ := registered_epoch registered small
      have before : epochOf u id = epoch := by
        rw [epochOf, decodeSessionEpoch_int stored bound]
        rfl
      let bumpedStore := u.putHash (.user id)
        ((u.hashAt (.user id)).insert "session_epoch" (.int (epoch + 1 : Nat)))
      have writes : SignUpsValid bumpedStore ∧ SignsUp mine u bumpedStore :=
        writes_record valid'' (.inl held)
          (fun email' registered' => registered_unique registered registered' ▸ whole)
          (fun _ => by rw [bumped, before]; omega)
      have ends : run (Bucket.hashIncr (.user id) "session_epoch" 1 : AuthProg Int) u =
          (.ok ((epoch : Int) + 1), u.putHash (.user id)
            ((u.hashAt (.user id)).insert "session_epoch" (.int (epoch + 1 : Nat)))) := ran
      refine ⟨_, _, ends, writes.1, writes.2, ?_⟩
      intro v other' _ next same
      cases same
      have kept := other'.epochs id (writes.2.claimed held)
      rw [bumped] at kept
      have cast : asU64 ((epoch : Int) + 1) = epoch + 1 := by
        rw [asU64, Int.emod_eq_of_lt (by omega) (by exact_mod_cast small)]
        rfl
      have earlier := Nat.le_trans (grows.epochs id claimed)
        (other.epochs id (grows.claimed claimed))
      rw [cast]
      exact ⟨by omega, kept⟩
    · exact ⟨_, u, ran, valid'', .refl _ _, fun v _ _ next wrong => by cases wrong⟩
  refine ifOk_bind valid' bumps ?_
  intro next u _ grows' reached
  have held := grows'.claimed (grows.claimed claimed)
  exact ifOk_answer (fun v _ later =>
    ⟨reached.1, Nat.le_trans reached.2 (later.epochs id held)⟩)

/-- The flag of an account is written whoever asks, and nothing else. -/
theorem safe_setUserAdmin (valid : SignUpsValid s) {id : String} (claimed : Claimed s id)
    (isAdmin : Bool) :
    SafeSignUp n mine (IfOk (fun _ _ => True)) (setUserAdmin id isAdmin) s := by
  refine ifOk_bind valid (safe_getClaimed valid claimed) ?_
  rintro user t valid' grows ⟨same, _⟩
  have flags : SafeSignUp n mine (fun (r : Except AuthError Unit) _ => r = .ok () ∧ True)
      (Command.setField (.user user.id) "is_admin" (AdminVal.flag isAdmin)).prog t := by
    apply safe_write (c := .setField (.user user.id) "is_admin" (AdminVal.flag isAdmin)) rfl
    intro u valid'' other
    rw [same]
    exact ⟨writes_flag valid'' (other.claimed (grows.claimed claimed)) isAdmin,
      fun _ _ _ => trivial⟩
  have flagged : SafeSignUp n mine (IfOk (fun _ _ => True))
      (Command.setField (.user user.id) "is_admin" (AdminVal.flag isAdmin)).prog t :=
    safe_weaken flags (fun _ _ _ _ _ _ => trivial)
  refine ifOk_bind valid' flagged ?_
  exact fun _ _ _ _ _ => ifOk_answer (fun _ _ _ => trivial)

theorem safe_patchUser (valid : SignUpsValid s) (auth : AuthContext) (selector : String)
    (isAdmin : Option Bool) :
    SafeSignUp n mine (IfOk (fun _ _ => True)) (patchUser auth selector isAdmin) s := by
  unfold patchUser
  cases requireAdmin auth with
  | error e => exact ifOk_fail e
  | ok _ =>
    have selects : SafeSignUp n mine (IfOk (fun user t => Claimed t user.id))
        (selectedUser selector) s := by
      have finds : SafeSignUp n mine (IfOk (fun found t => ∀ user, found = some user →
          Claimed t user.id)) (getUserByEmail selector) s := by
        refine safe_weaken (safe_findUserByEmail valid _) ?_
        rintro _ t _ (rfl | ⟨user, rfl, _, stands⟩) found same user' held
        · cases same
          cases held
        · cases same
          cases held
          exact ⟨_, stands.indexed⟩
      refine ifOk_bind valid (ifOk_mapError _ finds) ?_
      rintro (_ | user) t _ _ known
      · exact ifOk_fail _
      · exact ifOk_answer (fun u _ later => later.claimed (known user rfl))
    show SafeSignUp n mine _ (selectedUser selector >>= _) s
    refine ifOk_bind valid selects ?_
    intro user t valid' _ claimed
    cases isAdmin with
    | none => exact ifOk_fail _
    | some targetAdmin =>
      have writes : ∀ u, SignUpsValid u → AccountsGrow t u → SafeSignUp n mine
          (IfOk (fun _ _ => True)) (viaAuth (setUserAdmin user.id targetAdmin)) u :=
        fun u valid'' grows =>
          ifOk_mapError _ (safe_setUserAdmin valid'' (grows.claimed claimed) targetAdmin)
      cases targetAdmin with
      | true => exact writes t valid' (.refl _ _)
      | false =>
        refine ifOk_bind valid' (ifOk_reads (acts_sparesLastAdmin user _)) ?_
        exact fun _ u valid'' grows _ => writes u valid'' grows

end Safety

/-! Visits that interleave -/

section Visits
variable [Digest] [Signing] {s : AdminStore}

/-- What the answer of a visit promises: a bump is above the account's epoch from before the
    visit, and the account's epoch from then on; a login stamps its session with an epoch that
    the account has reached; and no session is accepted with a stamp from before the visit. -/
structure Kept (s : AdminStore) (answer : VisitAnswer) (t : AdminStore) : Prop where
  raised : ∀ context session epoch, answer = .api context session (.ok (.revoked epoch)) →
    Claimed s context.userId → epochOf s context.userId < epoch
  bumped : ∀ context session epoch, answer = .api context session (.ok (.revoked epoch)) →
    Claimed t context.userId ∧ epoch ≤ epochOf t context.userId
  stamped : ∀ session, answer = .loggedIn session →
    Claimed t session.userId ∧ session.epoch ≤ epochOf t session.userId
  current : Current s answer.accepted

omit [Digest] [Signing] in
theorem kept_of_session {answer : VisitAnswer} (session : Option Session)
    (quiet : answer = .page session ∨ ∃ touched, answer = .touched touched)
    (current : Current s session) (t : AdminStore) : Kept s answer t := by
  rcases quiet with rfl | ⟨touched, rfl⟩
  · exact ⟨fun _ _ _ wrong => (by cases wrong), fun _ _ _ wrong => (by cases wrong),
      fun _ wrong => (by cases wrong), current⟩
  · exact ⟨fun _ _ _ wrong => (by cases wrong), fun _ _ _ wrong => (by cases wrong),
      fun _ wrong => (by cases wrong), fun _ wrong => (by cases wrong)⟩

omit [Digest] in
theorem safe_mintSession {n : Option String} {mine : String → Prop} {t : AdminStore}
    (provider : String) (minting : Minting) {user : User} (stands : UserStands user t) :
    SafeSignUp n mine (IfOk (Kept s)) (mintSession provider minting user) t := by
  let made := mintedSession provider minting user
  let write : Command AdminKey AdminVal :=
    .putTtl (.session minting.token) (.session made) minting.ttlSeconds
  apply safe_single (single_mintSession provider minting user)
  intro u other valid'
  have there := stands.later other
  have claimed : Claimed u made.userId := ⟨_, there.indexed⟩
  have same : SameAccounts u (write.apply u) := by
    refine same_elsewhere valid' rfl rfl (fun id holder => ?_)
    rcases holder_put_session holder with before | rfl
    · exact .inl before
    · exact .inr claimed
  refine ⟨_, write.apply u, run_mintSession provider minting user u, same.valid valid',
    same.signsUp mine, ?_⟩
  intro v later _ answer answered
  cases answered
  have still := (there.later (same.signsUp mine)).later later
  refine ⟨fun _ _ _ wrong => (by cases wrong), fun _ _ _ wrong => (by cases wrong), ?_,
    fun _ wrong => (by cases wrong)⟩
  intro session same
  cases same
  exact ⟨⟨_, still.indexed⟩, still.stamped⟩

omit [Digest] [Signing] in
theorem safe_handle (valid : SignUpsValid s) {n : Option String} {mine : String → Prop}
    {auth : AuthContext} (claimed : Claimed s auth.userId) (request : ApiRequest) :
    SafeSignUp n mine (IfOk (fun response t => ∀ epoch, response = .revoked epoch →
      epochOf s auth.userId < epoch ∧ epoch ≤ epochOf t auth.userId)) (request.handle auth) s := by
  cases request with
  | getMe =>
    apply ifOk_map
    exact ifOk_weaken (ifOk_mapError _ (safe_getClaimed valid claimed)) (fun _ _ _ _ => nofun)
  | patchUser selector isAdmin =>
    apply ifOk_map
    exact ifOk_weaken (safe_patchUser valid auth selector isAdmin) (fun _ _ _ _ => nofun)
  | revokeAllMySessions =>
    apply ifOk_map
    refine ifOk_weaken (ifOk_mapError _ (safe_bumpSessionEpoch valid claimed)) ?_
    intro epoch t _ reached epoch' same
    cases same
    exact reached

theorem safe_visit (v : Visit) (valid : SignUpsValid s)
    (owns : ∀ x, v.id = some x → Owns x ∅ s) :
    SafeSignUp v.id (fun id => v.id = some id) (IfOk (Kept s)) v.program s := by
  have ends : ∀ {x email : String} {byIdentity : Bool} (r : Except AuthError User) (t : AdminStore),
      SignUpsValid t → Ends x email byIdentity r t →
      IfOk UserStands r t := by
    rintro x email byIdentity r t _ ((⟨user, rfl, _, _, stands, _⟩ | ⟨rfl, _⟩) |
      ⟨user, rfl, _, stands, _⟩) user' same
    · cases same
      exact stands
    · cases same
    · cases same
      exact stands
  cases v with
  | localLogin email isAdmin id now minting =>
    refine ifOk_bind valid (ifOk_mapError _ (safe_weaken
      (safe_upsertLocalUser valid email isAdmin now (owns id rfl)) ends)) ?_
    exact fun user t _ _ stands => safe_mintSession "local" minting stands
  | oauthLogin provider subject email isAdmin id now minting =>
    refine ifOk_bind valid (ifOk_mapError _ (safe_weaken
      (safe_upsertOauthUser valid provider subject email isAdmin now (owns id rfl)) ends)) ?_
    exact fun user t _ _ stands => safe_mintSession provider minting stands
  | touch ttlSeconds cookie now =>
    apply ifOk_map
    refine ifOk_weaken (ifOk_mapError _ (safe_touch valid ttlSeconds cookie now)) ?_
    exact fun session t _ _ =>
      kept_of_session none (.inr ⟨session, rfl⟩) (fun _ wrong => by cases wrong) t
  | page sessions cookie now =>
    apply ifOk_map
    refine ifOk_weaken (safe_resolvedSession valid sessions cookie now) ?_
    exact fun session t _ current => kept_of_session session (.inl rfl) current t
  | api sessions credentials now request =>
    refine ifOk_bind valid (safe_identify valid sessions credentials now) ?_
    rintro ⟨context, session⟩ t valid' before ⟨claimed, current⟩
    refine ifOk_bind valid' (ifOk_attempt (safe_handle valid' claimed request)) ?_
    intro response u _ grows reached
    refine ifOk_answer (fun w _ later => ⟨?_, ?_, fun _ wrong => (by cases wrong), current⟩)
    · intro context' session' epoch same known
      cases same
      exact Nat.lt_of_le_of_lt (before.epochs _ known) (reached _ rfl epoch rfl).1
    · intro context' session' epoch same
      cases same
      have held := grows.claimed claimed
      exact ⟨later.claimed held, Nat.le_trans (reached _ rfl epoch rfl).2 (later.epochs _ held)⟩

end Visits

section SignOut
variable [Digest] [Signing]

omit [Digest] [Signing] in
theorem same_vanished (k : AdminKey) {s : AdminStore} (valid : SignUpsValid s) :
    SameAccounts s (vanish k s) ∨ vanish k s = s := by
  unfold vanish
  split
  · rename_i elsewhere
    exact .inl (same_erased elsewhere valid)
  · exact .inr rfl

omit [Digest] [Signing] in
theorem valid_vanished (k : AdminKey) {s : AdminStore} (valid : SignUpsValid s) :
    SignUpsValid (vanish k s) ∧ ∀ mine, SignsUp mine s (vanish k s) := by
  rcases same_vanished k valid with same | same
  · exact ⟨same.valid valid, same.signsUp⟩
  · rw [same]
    exact ⟨valid, fun mine => .refl mine s⟩

omit [Digest] [Signing] in
theorem untouched_vanished (k : AdminKey) {s : AdminStore} {x : String}
    (untouched : s.hashAt (.user x) = ∅ ∧ ¬ Claimed s x) :
    (vanish k s).hashAt (.user x) = ∅ ∧ ¬ Claimed (vanish k s) x := by
  unfold vanish
  split
  · obtain ⟨clear, free⟩ := untouched
    refine ⟨by rw [Storage.hashAt_erase, clear, ite_self], ?_⟩
    rintro ⟨email, held⟩
    unfold Indexed at held
    rw [Storage.bytesAt_erase] at held
    split at held
    · cases held
    · exact free ⟨email, held⟩
  · exact untouched

/-- What every visit promises whenever it was launched. -/
structure Lasting (answer : VisitAnswer) (t : AdminStore) : Prop where
  bumped : ∀ context session epoch, answer = .api context session (.ok (.revoked epoch)) →
    Claimed t context.userId ∧ epoch ≤ epochOf t context.userId
  stamped : ∀ session, answer = .loggedIn session →
    Claimed t session.userId ∧ session.epoch ≤ epochOf t session.userId

theorem visits_begin (v : Visit) (s : AdminStore) (valid : SignUpsValid s)
    (owns : ∀ x, v.id = some x → s.hashAt (.user x) = ∅ ∧ ¬ Claimed s x) :
    signUpTreaty.Safe v.id (IfOk Lasting) v.program s :=
  ifOk_weaken (safe_visit v valid owns) (fun _ _ _ kept => ⟨kept.bumped, kept.stamped⟩)

theorem visits_step {p q : VisitPool} {a : PoolAction Visit AdminKey}
    (peaceful : Peaceful signUpTreaty Visit.id (fun _ => IfOk Lasting) p)
    (next : visits.step p a = some q) :
    Peaceful signUpTreaty Visit.id (fun _ => IfOk Lasting) q :=
  peaceful_step visits_begin (fun k _ valid => (valid_vanished k valid).1)
    (fun k _ _ valid => (valid_vanished k valid).2 _) (fun k _ _ => untouched_vanished k)
    peaceful next

theorem visits_peaceful {p : VisitPool} (reached : Reached visits (fun _ _ => True) p) :
    Peaceful signUpTreaty Visit.id (fun _ => IfOk Lasting) p := by
  refine reached_invariant ?_ (fun _ _ _ peaceful _ next => visits_step peaceful next) reached
  rintro ⟨shared, tasks, drawn⟩ ⟨⟨valid, fresh⟩, idle⟩
  cases idle
  refine ⟨valid, fresh, ?_, ?_, ?_⟩
  · intro t member
    cases member
  · intro i j t u x one
    cases one
  · intro t member
    cases member

/-- Once an account has reached an epoch, every visit that is launched later and answers keeps
    to what the visits promise from there on. -/
theorem visits_later {p q : VisitPool} (reached : Reached visits (fun _ _ => True) p) (u : String)
    (epoch : Nat) (held : Claimed p.shared u ∧ epoch ≤ epochOf p.shared u)
    (promise : VisitAnswer → Prop)
    (promises : ∀ s answer t, Claimed s u → epoch ≤ epochOf s u → Kept s answer t → promise answer)
    (path : Run visits (fun _ _ => True) p q) {i : Nat} (later : p.tasks.length ≤ i)
    {v : Launched Visit AdminStore UsersError VisitAnswer} (found : q.tasks[i]? = some v)
    {answer : VisitAnswer} (answers : v.prog.answer = some (.ok answer)) : promise answer := by
  have onward : ∀ {s t : AdminStore} {mine : String → Prop}, SignsUp mine s t →
      Claimed s u ∧ epoch ≤ epochOf s u → Claimed t u ∧ epoch ≤ epochOf t u :=
    fun does here => ⟨does.claimed here.1, Nat.le_trans here.2 (does.epochs _ here.1)⟩
  obtain ⟨⟨peaceful, _, _⟩, safe⟩ := peaceful_later
    (fun s => Claimed s u ∧ epoch ≤ epochOf s u)
    (fun _ => IfOk (fun answer _ => promise answer))
    (fun _ _ _ here does => onward does here)
    (fun k s here valid => onward ((valid_vanished k valid).2 (fun _ => False)) here)
    visits_begin
    (fun v s valid owns here => by
      refine ifOk_weaken (safe_visit v valid owns) ?_
      exact fun answer t _ kept => promises s answer t here.1 here.2 kept)
    (fun k _ valid => (valid_vanished k valid).1)
    (fun k _ _ valid => (valid_vanished k valid).2 _) (fun k _ _ => untouched_vanished k)
    (visits_peaceful reached) held path
  obtain ⟨request, program⟩ := v
  have ends := safe i _ later found
  cases program with
  | done a =>
    cases answers
    exact ends q.shared (.refl _ _) peaceful.valid answer rfl
  | fail e => cases answers
  | act effect next => cases answers

/-- Once the epoch of an account has been bumped, whatever is launched later is accepted for a
    session of the account only where the stamp that was given to its cookie is the bump's or a
    later one; and every stamp that a login has given before the bump was launched is earlier. -/
theorem sign_out_everywhere (first p : VisitPool) (start : visits.start first)
    (before : Run visits (fun _ _ => True) first p) (j : Nat)
    (bump : Launched Visit AdminStore UsersError VisitAnswer) (at_ : p.tasks[j]? = some bump)
    (context : AuthContext) (presented : Option Session) (epoch : Nat)
    (bumped : bump.prog.answer = some (.ok (.api context presented (.ok (.revoked epoch))))) :
    (∀ (q : VisitPool) (i : Nat) (v : Launched Visit AdminStore UsersError VisitAnswer)
      (answer : VisitAnswer) (session : Session), Run visits (fun _ _ => True) p q →
      p.tasks.length ≤ i → q.tasks[i]? = some v → v.prog.answer = some (.ok answer) →
      answer.accepted = some session → session.userId = context.userId →
      ∃ cookie token given, v.request.cookie = some cookie ∧ openCookie cookie = .ok token ∧
        Stamped first q token given ∧ given.userId = context.userId ∧
        given.epoch = session.epoch ∧ epoch ≤ given.epoch) ∧
    ∀ (earlier : VisitPool) (login : Launched Visit AdminStore UsersError VisitAnswer)
      (given : Session), Run visits (fun _ _ => True) first earlier →
      Run visits (fun _ _ => True) earlier p → earlier.tasks.length ≤ j →
      login ∈ earlier.tasks → login.prog.answer = some (.ok (.loggedIn given)) →
      given.userId = context.userId → given.epoch < epoch := by
  constructor
  · intro q i v answer session path later found answers accepted own
    have reached : Reached visits (fun _ _ => True) p := ⟨first, start, before⟩
    have held := (peaceful_answer (visits_peaceful reached) (List.mem_of_getElem? at_) bumped _
      rfl).bumped context presented epoch rfl
    have current : epoch ≤ session.epoch := by
      refine visits_later reached context.userId epoch held
        (fun answer => ∀ session, answer.accepted = some session →
          session.userId = context.userId → epoch ≤ session.epoch)
        ?_ path later found answers session accepted own
      intro s answer t claimed behind kept known accepted own
      have current := kept.current known accepted (own ▸ claimed)
      rw [own] at current
      exact Nat.le_trans behind current
    obtain ⟨cookie, token, given, shown, opened, stamped, owner, stamp⟩ :=
      accepted_stamped start (run_trans before path) (List.mem_of_getElem? found) answers accepted
    exact ⟨cookie, token, given, shown, opened, stamped, owner.trans own, stamp,
      stamp ▸ current⟩
  · intro earlier login given early path later inside ended own
    have reached : Reached visits (fun _ _ => True) earlier := ⟨first, start, early⟩
    have held := (peaceful_answer (visits_peaceful reached) inside ended _ rfl).stamped given rfl
    refine visits_later reached given.userId given.epoch held
      (fun answer => ∀ context session epoch, answer = .api context session (.ok (.revoked epoch)) →
        given.userId = context.userId → given.epoch < epoch)
      ?_ path later at_ bumped context presented epoch rfl own
    intro s answer t claimed behind kept context session epoch same own
    rw [own] at claimed behind
    exact Nat.lt_of_le_of_lt behind (kept.raised context session epoch same claimed)

end SignOut

namespace Sample

def firstMinting : Minting := ⟨"203.0.113.7", "Firefox", 3600, sessionToken, tokenId, 0⟩
def laterMinting : Minting := ⟨"203.0.113.7", "Firefox", 3600, nonce, clientId, 6⟩

def firstLogin : List (PoolAction Visit AdminKey) :=
  .launch (.localLogin "ann@example.com" false ann 0 firstMinting) ::
    List.replicate 13 (.resume 0)

/-- The session of the login signs its account out everywhere. -/
def signedOut : List (PoolAction Visit AdminKey) :=
  .launch (.api (some 3600) ⟨none, some (signCookie sessionToken)⟩ 5 .revokeAllMySessions) ::
    List.replicate 5 (.resume 1)

/-- A second login, and a request with its session. -/
def signedIn : List (PoolAction Visit AdminKey) :=
  .launch (.localLogin "ann@example.com" false bob 6 laterMinting) ::
    List.replicate 4 (.resume 2) ++
  .launch (.api (some 3600) ⟨none, some (signCookie nonce)⟩ 7 .getMe) ::
    List.replicate 4 (.resume 3)

def nobodyYet : VisitPool := ⟨Storage.empty .valkey, [], []⟩

/-- The account that a finished visit has signed out, and its epoch from then on. -/
def bumpedEpoch (v : Launched Visit AdminStore UsersError VisitAnswer) : Option (String × Nat) :=
  match v.prog.answer with
  | some (.ok (.api context _ (.ok (.revoked epoch)))) => some (context.userId, epoch)
  | _ => none

/-- The account and the stamp of the session that a finished visit was accepted for. -/
def acceptedStamp (v : Launched Visit AdminStore UsersError VisitAnswer) : Option (String × Nat) :=
  match v.prog.answer with
  | some (.ok answer) => answer.accepted.map (fun session => (session.userId, session.epoch))
  | _ => none

/-- The account and the stamp of the session that a finished login has given. -/
def loginStamp (v : Launched Visit AdminStore UsersError VisitAnswer) : Option (String × Nat) :=
  match v.prog.answer with
  | some (.ok (.loggedIn given)) => some (given.userId, given.epoch)
  | _ => none

theorem nobodyYet_start : visits.start nobodyYet := by
  refine ⟨⟨signUpsValid_empty .valkey, fun x _ => ⟨by simp [nobodyYet], ?_⟩⟩, rfl⟩
  rintro ⟨email, held⟩
  simp [nobodyYet, Indexed] at held

theorem bumped_of_epoch {v : Launched Visit AdminStore UsersError VisitAnswer} {u : String}
    {epoch : Nat} (bumped : bumpedEpoch v = some (u, epoch)) : ∃ context presented,
      v.prog.answer = some (.ok (.api context presented (.ok (.revoked epoch)))) ∧
      context.userId = u := by
  unfold bumpedEpoch at bumped
  split at bumped
  · rename_i context presented epoch' answers
    cases bumped
    exact ⟨context, presented, answers, rfl⟩
  · cases bumped

theorem accepted_of_stamp {v : Launched Visit AdminStore UsersError VisitAnswer} {u : String}
    {epoch : Nat} (stamped : acceptedStamp v = some (u, epoch)) : ∃ answer session,
      v.prog.answer = some (.ok answer) ∧ answer.accepted = some session ∧ session.userId = u ∧
      session.epoch = epoch := by
  unfold acceptedStamp at stamped
  split at stamped
  · rename_i answer answers
    obtain ⟨session, accepted, mark⟩ := Option.map_eq_some_iff.mp stamped
    obtain ⟨own, same⟩ := Prod.mk.inj mark
    exact ⟨answer, session, answers, accepted, own, same⟩
  · cases stamped

theorem given_of_stamp {v : Launched Visit AdminStore UsersError VisitAnswer} {u : String}
    {epoch : Nat} (stamped : loginStamp v = some (u, epoch)) : ∃ given : Session,
      v.prog.answer = some (.ok (.loggedIn given)) ∧ given.userId = u ∧ given.epoch = epoch := by
  unfold loginStamp at stamped
  split at stamped
  · rename_i given answers
    cases stamped
    exact ⟨given, answers, rfl, rfl⟩
  · cases stamped

end Sample

open Sample in
/-- The session of a login after the bump is accepted with the stamp that was given to its
    cookie, and the login before the bump has given an earlier one. -/
theorem sign_out_everywhere_login : ∃ (q : VisitPool) (token : String) (given before : Session),
    (q.tasks[3]?.bind acceptedStamp) = some (ann, given.epoch) ∧
    Stamped nobodyYet q token given ∧ 1 ≤ given.epoch ∧
    (q.tasks[0]?.bind loginStamp) = some (ann, before.epoch) ∧ before.epoch < 1 := by
  have opening : ((exec visits nobodyYet firstLogin).map (fun e =>
      (e.tasks[0]?.bind loginStamp, e.tasks.length))) = some (some (ann, 0), 1) := by
    decide +kernel
  have middle : (((exec visits nobodyYet firstLogin).bind (fun e => exec visits e signedOut)).map
      (fun p => (p.tasks[1]?.bind bumpedEpoch, p.tasks.length))) = some (some (ann, 1), 2) := by
    decide +kernel
  have ending : ((((exec visits nobodyYet firstLogin).bind (fun e => exec visits e signedOut)).bind
      (fun p => exec visits p signedIn)).map
      (fun q => (q.tasks[3]?.bind acceptedStamp, q.tasks[0]?.bind loginStamp))) =
      some (some (ann, 1), some (ann, 0)) := by
    decide +kernel
  obtain ⟨e, first, shape⟩ := Option.map_eq_some_iff.mp opening
  obtain ⟨stamp, one⟩ := Prod.mk.inj shape
  rw [first, Option.bind_some] at middle ending
  obtain ⟨p, second, shape⟩ := Option.map_eq_some_iff.mp middle
  obtain ⟨raised, two⟩ := Prod.mk.inj shape
  rw [second, Option.bind_some] at ending
  obtain ⟨q, third, shape⟩ := Option.map_eq_some_iff.mp ending
  obtain ⟨shown, old⟩ := Prod.mk.inj shape
  obtain ⟨login, at0, stamp⟩ := Option.bind_eq_some_iff.mp stamp
  obtain ⟨bump, at1, raised⟩ := Option.bind_eq_some_iff.mp raised
  obtain ⟨v, at3, shown'⟩ := Option.bind_eq_some_iff.mp shown
  obtain ⟨before, ended, owner, zero⟩ := given_of_stamp stamp
  obtain ⟨context, presented, bumped, own⟩ := bumped_of_epoch raised
  obtain ⟨answer, session, answers, accepted, own', mark⟩ := accepted_of_stamp shown'
  have toE := run_of_exec firstLogin first
  have toP := run_of_exec signedOut second
  have toQ := run_of_exec signedIn third
  obtain ⟨afterwards, earlier⟩ := sign_out_everywhere nobodyYet p nobodyYet_start
    (run_trans toE toP) 1 bump at1 context presented 1 bumped
  obtain ⟨_, token, given, _, _, stamped, _, same, late⟩ := afterwards q 3 v answer session toQ
    (by omega) at3 answers accepted (own'.trans own.symm)
  have early := earlier e login before toE toP (by omega) (List.mem_of_getElem? at0) ended
    (owner.trans own.symm)
  exact ⟨q, token, given, before, by rw [shown, same, mark], stamped, late, by rw [old, zero],
    early⟩

end WireMirage
