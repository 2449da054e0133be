import WireMirage.Auth.Deletion
import WireMirage.Auth.TokenIndexes

/-!
Tokens over whole runs: who a plaintext authenticates as is told by what was minted, what was
revoked and which users are left, and the indexes agree with the records.
-/
namespace WireMirage
open Prog StepMachine

/-- The store, the users that were made and not deleted, every token ever minted, the ids of
    those that were revoked, and the ids drawn. -/
structure TokenState where
  store : AdminStore
  users : List String
  minted : List Minted
  revoked : List String
  drawn : List String

inductive TokenAction where
  | createUser (email : String) (isAdmin : Bool) (id : String) (now : Time)
  | createToken (ownerId name plaintext : String) (ttlSeconds : Option Nat) (id : String)
      (now : Time)
  | renameToken (ownerId oldName newName : String)
  | revokeTokenByName (ownerId name : String)
  | deleteUser (id : String)
  | authenticate (plaintext : String) (now : Time)

section
variable [Digest]

namespace TokenState

/-- A plaintext as it is generated: of its family, and minted for no token before, which the
    digest tells. -/
def Fresh (s : TokenState) (plaintext : String) : Prop :=
  "wmt_".toList.isPrefixOf plaintext.toList ∧
    ∀ m ∈ s.minted, Digest.sha256Hex plaintext ≠ m.hash

instance (s : TokenState) (plaintext : String) : Decidable (s.Fresh plaintext) :=
  inferInstanceAs (Decidable (_ ∧ _))

/-- Minted, not revoked, and of a user that is left. -/
def Live (s : TokenState) (m : Minted) : Prop :=
  m ∈ s.minted ∧ m.id ∉ s.revoked ∧ m.ownerId ∈ s.users

/-- What an action does to the store, and what is written down of it where it is answered: of a
    token, who asked for it, when, and for how long. -/
def after [DateText] (s : TokenState) : TokenAction → TokenState
  | .createUser email isAdmin id now =>
    match run (WireMirage.createUser email isAdmin id now) s.store with
    | (.ok user, t) => { s with store := t, users := user.id :: s.users, drawn := id :: s.drawn }
    | (.error _, t) => { s with store := t, drawn := id :: s.drawn }
  | .createToken ownerId name plaintext ttl id now =>
    match run (WireMirage.createToken ownerId name plaintext ttl id now) s.store with
    | (.ok (_, plaintext), t) => { s with
        store := t
        minted := ⟨id, ownerId, name, plaintext, now, ttl.map (now + ·)⟩ :: s.minted
        drawn := id :: s.drawn }
    | (.error _, t) => { s with store := t, drawn := id :: s.drawn }
  | .renameToken ownerId oldName newName =>
    match run (WireMirage.renameToken ownerId oldName newName) s.store with
    | (.ok token, t) => { s with
        store := t
        minted := s.minted.map (Minted.named token.id token.name) }
    | (.error _, t) => { s with store := t }
  | .revokeTokenByName ownerId name =>
    match run (WireMirage.revokeTokenByName ownerId name) s.store with
    | (.ok true, t) => { s with
        store := t
        revoked := ((s.minted.filter (fun m => m.ownerId = ownerId ∧ m.name = name)).map
          Minted.id) ++ s.revoked }
    | (_, t) => { s with store := t }
  | .deleteUser id =>
    match run (WireMirage.deleteUser id) s.store with
    | (.ok (), t) => { s with store := t, users := s.users.filter (· ≠ id) }
    | (.error _, t) => { s with store := t }
  | .authenticate plaintext now =>
    { s with store := (run (WireMirage.authenticate plaintext now) s.store).2 }

end TokenState

namespace TokenAction

/-- The id and the plaintext that an action draws are new. -/
def New (s : TokenState) : TokenAction → Prop
  | createUser _ _ id _ => id ∉ s.drawn
  | createToken _ _ plaintext _ id _ => id ∉ s.drawn ∧ s.Fresh plaintext
  | _ => True

instance (s : TokenState) (a : TokenAction) : Decidable (a.New s) :=
  match a with
  | createUser _ _ id _ => inferInstanceAs (Decidable (id ∉ s.drawn))
  | createToken _ _ plaintext _ id _ =>
    inferInstanceAs (Decidable (id ∉ s.drawn ∧ s.Fresh plaintext))
  | renameToken _ _ _ => inferInstanceAs (Decidable True)
  | revokeTokenByName _ _ => inferInstanceAs (Decidable True)
  | deleteUser _ => inferInstanceAs (Decidable True)
  | authenticate _ _ => inferInstanceAs (Decidable True)

/-- A token is asked for without an end, or with one whose date can be read. -/
def Legible [DateText] : TokenAction → Prop
  | createToken _ _ _ ttl _ now => LegibleDate (ttl.map (now + ·))
  | _ => True

instance [DateText] (a : TokenAction) : Decidable a.Legible :=
  match a with
  | createUser _ _ _ _ => inferInstanceAs (Decidable True)
  | createToken _ _ _ ttl _ now =>
    inferInstanceAs (Decidable (LegibleDate (ttl.map (now + ·))))
  | renameToken _ _ _ => inferInstanceAs (Decidable True)
  | revokeTokenByName _ _ => inferInstanceAs (Decidable True)
  | deleteUser _ => inferInstanceAs (Decidable True)
  | authenticate _ _ => inferInstanceAs (Decidable True)

end TokenAction

def tokenStore [DateText] : Machine TokenState TokenAction where
  start s := (∃ backend, s.store = Storage.empty backend) ∧ s.users = [] ∧ s.minted = [] ∧
    s.revoked = [] ∧ s.drawn = []
  step s a := if a.New s then some (s.after a) else none

/-- A token that the store has a record of. -/
def StoredToken (s : AdminStore) (token : Token) : Prop :=
  run (readTokenById token.id) s = (.ok (some token), s)

/-- Every record can be read, and every index leads to the records it should and to no other. -/
structure IndexesAgree (s : AdminStore) : Prop where
  readable : ∀ id, run (readTokenById id) s = (.ok none, s) ∨
    ∃ token, StoredToken s token ∧ token.id = id
  byHash : ∀ h v, s.bytesAt (.tokenByHash h) = some v ↔
    ∃ token, StoredToken s token ∧ token.hash = h ∧ v = .text token.id
  byName : ∀ owner name v, s.bytesAt (.tokenByName owner name) = some v ↔
    ∃ token, StoredToken s token ∧ token.ownerId = owner ∧ token.name = name ∧ v = .text token.id
  byOwner : ∀ owner id, id ∈ s.setAt (.tokenByOwner owner) ↔
    ∃ token, StoredToken s token ∧ token.ownerId = owner ∧ token.id = id

/-! What the operations answer where the tokens are indexed -/

section Answers
variable {tokens : Minted → Prop} {s : AdminStore} (indexed : TokensIndexed tokens s)
include indexed

theorem run_readToken {m : Minted} (live : tokens m) :
    ∃ used, run (readTokenById m.id) s = (.ok (some (m.record used)), s) := by
  obtain ⟨used, holds⟩ := indexed.record m live
  refine ⟨used, ?_⟩
  unfold readTokenById
  rw [run_bind, run_hashGetAll indexed.kinded rfl, andThen_ok, holds_ne_empty holds]
  simp [holds.decoded]

theorem run_readToken_absent {id : String} (none : ∀ m, tokens m → m.id ≠ id) :
    run (readTokenById id) s = (.ok .none, s) := by
  unfold readTokenById
  rw [run_bind, run_hashGetAll indexed.kinded rfl, andThen_ok, indexed.absent id none]
  rfl

/-- What reading a record answers: that of a token, or nothing. -/
theorem readToken_cases (id : String) :
    (∃ m used, tokens m ∧ m.id = id ∧
      run (readTokenById id) s = (.ok (some (m.record used)), s)) ∨
    (∀ m, tokens m → m.id ≠ id) ∧ run (readTokenById id) s = (.ok none, s) := by
  by_cases held : ∃ m, tokens m ∧ m.id = id
  · obtain ⟨m, live, rfl⟩ := held
    obtain ⟨used, ran⟩ := run_readToken indexed live
    exact .inl ⟨m, used, live, rfl, ran⟩
  · have none : ∀ m, tokens m → m.id ≠ id := fun m live same => held ⟨m, live, same⟩
    exact .inr ⟨none, run_readToken_absent indexed none⟩

theorem getTokenByName_cases (ownerId name : String) :
    (∃ m used, tokens m ∧ m.ownerId = ownerId ∧ m.name = name ∧
      run (getTokenByName ownerId name) s = (.ok (some (m.record used)), s)) ∨
    s.bytesAt (.tokenByName ownerId name) = none ∧
      run (getTokenByName ownerId name) s = (.ok none, s) := by
  unfold getTokenByName
  rw [run_bind, run_get indexed.kinded rfl, andThen_ok]
  cases found : s.bytesAt (.tokenByName ownerId name) with
  | none => exact .inr ⟨rfl, rfl⟩
  | some v =>
    obtain ⟨m, live, owned, named, rfl⟩ := (indexed.byName _ _ _).mp found
    obtain ⟨used, ran⟩ := run_readToken indexed live
    refine .inl ⟨m, used, live, owned, named, ?_⟩
    show run (indexedId "token:by-name value" (.text m.id) >>= readTokenById) s = _
    rw [run_bind]
    exact ran

theorem unnamed {ownerId name : String} (none : s.bytesAt (.tokenByName ownerId name) = .none)
    (m : Minted) (live : tokens m) (owned : m.ownerId = ownerId) : m.name ≠ name := by
  intro named
  have held := (indexed.byName ownerId name _).mpr ⟨m, live, owned, named, rfl⟩
  rw [none] at held
  cases held

/-- A creation is refused, or it stores a token of a name that the owner has no token of. -/
theorem createToken_cases [DateText] (ownerId name plaintext : String) (ttl : Option Nat)
    (id : String) (now : Time) :
    (∃ e, run (createToken ownerId name plaintext ttl id now) s = (.error e, s)) ∨
    (∃ user, userAnswer s ownerId = .ok (some user)) ∧
      (∀ m, tokens m → m.ownerId = ownerId → m.name ≠ name) ∧
      run (createToken ownerId name plaintext ttl id now) s =
        (.ok (newToken ownerId name plaintext ttl id now, plaintext),
          withToken (newToken ownerId name plaintext ttl id now) s) := by
  have stores := (leads_storeToken (newToken ownerId name plaintext ttl id now) s indexed.kinded).1
  rw [run_createToken]
  unfold checkNewToken
  rw [run_bind, run_bind, run_readUserById indexed.kinded]
  rcases answer : userAnswer s ownerId with e | (_ | user)
  · exact .inl ⟨e, rfl⟩
  · exact .inl ⟨.notFound, rfl⟩
  · simp only [andThen_ok]
    rw [run_bind, run_get indexed.kinded rfl, andThen_ok]
    cases found : s.bytesAt (.tokenByName ownerId name) with
    | some v => exact .inl ⟨.nameTaken name, rfl⟩
    | none =>
      refine .inr ⟨⟨user, rfl⟩, unnamed indexed found, ?_⟩
      show run (storeToken _ >>= fun _ => Pure.pure _) s = _
      rw [run_bind, stores]
      rfl

/-- A renaming is refused, finds the token by its own name, or moves it to a name that the
    owner has no token of. -/
theorem renameToken_cases (ownerId oldName newName : String) :
    (∃ e, run (renameToken ownerId oldName newName) s = (.error e, s)) ∨
    ∃ m used, tokens m ∧ m.ownerId = ownerId ∧ m.name = oldName ∧
      (oldName = newName ∧
          run (renameToken ownerId oldName newName) s = (.ok (m.record used), s) ∨
        (∀ m', tokens m' → m'.ownerId = ownerId → m'.name ≠ newName) ∧
          run (renameToken ownerId oldName newName) s =
            (.ok { m.record used with name := newName }, withTokenName m newName s)) := by
  unfold renameToken
  by_cases same : oldName = newName
  · rw [if_pos same, run_bind]
    rcases getTokenByName_cases indexed ownerId oldName with
      ⟨m, used, live, owned, named, ran⟩ | ⟨_, ran⟩
    · rw [ran]
      exact .inr ⟨m, used, live, owned, named, .inl ⟨same, rfl⟩⟩
    · rw [ran]
      exact .inl ⟨.notFound, rfl⟩
  · rw [if_neg same, run_bind, run_get indexed.kinded rfl, andThen_ok]
    cases taken : s.bytesAt (.tokenByName ownerId newName) with
    | some v => exact .inl ⟨.nameTaken newName, rfl⟩
    | none =>
      dsimp only
      rw [run_bind]
      rcases getTokenByName_cases indexed ownerId oldName with
        ⟨m, used, live, owned, named, ran⟩ | ⟨_, ran⟩
      · refine .inr ⟨m, used, live, owned, named, .inr ⟨unnamed indexed taken, ?_⟩⟩
        subst owned named
        have writes : Leads Storage.WellKinded (do
            Bucket.set (.tokenByName m.ownerId newName) (.text m.id)
            Bucket.hashSet (.token m.id) "name" (.text newName)
            Bucket.delete (.tokenByName m.ownerId m.name)
            return { m.record used with name := newName } : AuthProg Token) s
            { m.record used with name := newName } (withTokenName m newName s) := by
          apply Leads.ends
          · exact (leads_set rfl).bind ((leads_hashSet rfl).bind (leads_delete.bind Leads.pure))
          · simp [withTokenName]
        rw [ran]
        exact (writes indexed.kinded).1
      · rw [ran]
        exact .inl ⟨.notFound, rfl⟩

theorem revokeTokenByName_cases (ownerId name : String) :
    run (revokeTokenByName ownerId name) s = (.ok false, s) ∨
    ∃ m used, tokens m ∧ m.ownerId = ownerId ∧ m.name = name ∧
      run (revokeTokenByName ownerId name) s = (.ok true, withoutToken (m.record used) s) := by
  unfold revokeTokenByName
  rw [run_bind]
  rcases getTokenByName_cases indexed ownerId name with
    ⟨m, used, live, owned, named, ran⟩ | ⟨_, ran⟩
  · rw [ran]
    refine .inr ⟨m, used, live, owned, named, ?_⟩
    show run (deleteToken (m.record used) >>= fun _ => Pure.pure true) s = _
    rw [run_bind, (leads_deleteToken (m.record used) s indexed.kinded).1]
    rfl
  · rw [ran]
    exact .inl rfl

end Answers

/-! Users -/

section Users
variable {s t : AdminStore} {email : String}

omit [Digest] in
theorem scanUsers_none (wk : s.WellKinded) (ids : List String)
    (none : run (scanUsers email ids) s = (.ok .none, t)) : t = s := by
  induction ids with
  | nil =>
    cases none
    rfl
  | cons id rest ih =>
    simp only [scanUsers] at none
    rw [run_bind, run_readUserById wk] at none
    rcases answer : userAnswer s id with e | (_ | user)
    · rw [answer] at none
      cases none
    · rw [answer] at none
      exact ih none
    · rw [answer, andThen_ok] at none
      dsimp only at none
      split at none
      · split at none
        · simp at none
        · cases none
      · exact ih none

omit [Digest] in
/-- Where no account is found for an email, no index entry is left for it. -/
theorem findUserByEmail_none (wk : s.WellKinded)
    (none : run (findUserByEmail email) s = (.ok .none, t)) :
    t.bytesAt (.userByEmail email) = .none := by
  have scanned : ∀ u : AdminStore, u.WellKinded → run (scanAllUsers email) u = (.ok .none, t) →
      t = u := by
    intro u kinded ran
    unfold scanAllUsers at ran
    rw [run_bind, run_setMembers kinded rfl] at ran
    exact scanUsers_none kinded _ ran
  have stale : run (Bucket.delete (.userByEmail email) >>= fun _ => scanAllUsers email) s =
      (.ok .none, t) → t.bytesAt (.userByEmail email) = .none := by
    intro ran
    rw [run_bind, run_delete, andThen_ok] at ran
    rw [scanned _ (Storage.wellKinded_erase wk) ran]
    simp
  unfold findUserByEmail at none
  rw [run_bind, run_get wk rfl, andThen_ok] at none
  cases found : s.bytesAt (.userByEmail email) with
  | none =>
    rw [found] at none
    rw [scanned s wk none]
    exact found
  | some v =>
    rw [found] at none
    dsimp only at none
    unfold indexedId at none
    cases text : v.utf8 with
    | none =>
      rw [text] at none
      cases none
    | some id =>
      rw [text] at none
      change run (readUserById id >>= _) s = _ at none
      rw [run_bind, run_readUserById wk] at none
      rcases answer : userAnswer s id with e | (_ | user)
      · rw [answer] at none
        cases none
      · rw [answer] at none
        exact stale none
      · rw [answer, andThen_ok] at none
        dsimp only at none
        split at none
        · cases none
        · exact stale none

omit [Digest] in
theorem leads_claimEmail {user : User} (free : s.bytesAt (.userByEmail user.email) = none) :
    Leads Storage.WellKinded (claimEmail user) s user
      ((s.put (.userByEmail user.email) (.text user.id) none).addMember .userAll user.id) := by
  intro wk
  have kinded : (s.put (.userByEmail user.email) (.text user.id) none).WellKinded :=
    Storage.wellKinded_put wk rfl _ _
  refine ⟨?_, Storage.wellKinded_addMember kinded rfl _⟩
  unfold claimEmail
  rw [run_bind, run_setIfAbsent wk rfl, free, if_neg (by simp), andThen_ok, if_neg (by simp),
    run_bind, run_setAdd kinded rfl, andThen_ok]
  rfl

omit [Digest] in
theorem registered_encoded {user : User} {h : Fields AdminVal}
    (held : s.hashAt (.user user.id) = encodeUser user h) : Registered s user.id user.email where
  idField := by simp [held, encodeUser]
  emailField := by simp [held, encodeUser]
  adminField := ⟨user.isAdmin, by simp [held, encodeUser]⟩
  createdField := ⟨user.createdAt, by simp [held, encodeUser]⟩
  epochField := ⟨0, by simp [held, encodeUser], by decide⟩

omit [Digest] in
/-- An account whose email is free is stored, and its email with it. -/
theorem store_user (wk : s.WellKinded) (user : User)
    (free : s.bytesAt (.userByEmail user.email) = none) :
    ∃ t, run (writeUserFields user >>= fun _ => claimEmail user) s = (.ok user, t) ∧
      Registered t user.id user.email ∧ t.WellKinded ∧
      ∀ k, k ≠ .user user.id → k ≠ .userAll → k ≠ .userByEmail user.email →
        t.entry k = s.entry k := by
  have written := leads_writeUserFields user s
  generalize encodedStore : s.putHash (.user user.id) _ = s' at written
  have free' : s'.bytesAt (.userByEmail user.email) = none := by
    rw [← encodedStore]
    simpa using free
  have held : s'.hashAt (.user user.id) = encodeUser user (s.hashAt (.user user.id)) := by
    rw [← encodedStore]
    simp
  obtain ⟨ran, kinded⟩ := Leads.bind (k := fun _ => claimEmail user) written
    (leads_claimEmail free') wk
  refine ⟨_, ran, registered_encoded (h := s.hashAt (.user user.id)) ?_, kinded, ?_⟩
  · simpa using held
  · intro k notUser notAll notEmail
    rw [Storage.addMember, Storage.entry_write_ne _ notAll, Storage.put,
      Storage.entry_replace_ne _ notEmail, ← encodedStore, Storage.putHash,
      Storage.entry_write_ne _ notUser]

omit [Digest] in
/-- A creation is refused and leaves the records alone, or it makes a record under its id. -/
theorem createUser_cases (wk : s.WellKinded) (email : String) (isAdmin : Bool) (id : String)
    (now : Time) :
    (∃ e t, run (createUser email isAdmin id now) s = (.error e, t) ∧ t.WellKinded ∧
      ∀ k, k ≠ .userByEmail (normalizeEmail email) → t.entry k = s.entry k) ∨
    ∃ user t, run (createUser email isAdmin id now) s = (.ok user, t) ∧ user.id = id ∧
      Registered t id user.email ∧ t.WellKinded ∧
      ∀ k, k ≠ .user id → k ≠ .userAll → k ≠ .userByEmail (normalizeEmail email) →
        t.entry k = s.entry k := by
  have acts : Acts (fun c : Command AdminKey AdminVal =>
      c.key = .userByEmail (normalizeEmail email)) (findUserByEmail (normalizeEmail email)) :=
    acts_lookFor (fun c same => same)
  obtain ⟨kinded, same⟩ := entry_of_acts (fun k => k = .userByEmail (normalizeEmail email)) acts wk
  unfold createUser writeNewUser
  rw [run_bind]
  rcases found : run (findUserByEmail (normalizeEmail email)) s with ⟨e | (_ | user), s'⟩
  · rw [found] at kinded same
    exact .inl ⟨e, s', rfl, kinded, same⟩
  · rw [found] at kinded same
    obtain ⟨t, ran, registered, kinded', same'⟩ := store_user kinded
      (newUser (normalizeEmail email) isAdmin id now) (findUserByEmail_none wk found)
    refine .inr ⟨_, t, ran, rfl, registered, kinded', ?_⟩
    intro k notUser notAll notEmail
    exact (same' k notUser notAll notEmail).trans (same k notEmail)
  · rw [found] at kinded same
    exact .inl ⟨.emailTaken (normalizeEmail email), s', rfl, kinded, same⟩

omit [Digest] in
theorem acts_deletesTokens (id : String) :
    Acts (fun c : Command AdminKey AdminVal => c.key.ofTokens) (deleteTokenIfRead id) := by
  apply acts_mono _ _ (acts_deleteTokenIfRead id)
  intro c deletes
  cases c with
  | dropField k f => cases k <;> first | exact deletes.elim | rfl
  | erase k => cases k <;> first | exact deletes.elim | rfl
  | dropMember k x => cases k <;> first | exact deletes.elim | rfl
  | _ => exact deletes.elim

theorem deleteTokenIfRead_indexed {tokens : Minted → Prop} (indexed : TokensIndexed tokens s)
    (id : String) : ∃ t, run (deleteTokenIfRead id) s = (.ok (), t) ∧
      TokensIndexed (fun m => tokens m ∧ m.id ≠ id) t := by
  unfold deleteTokenIfRead
  rw [run_bind]
  rcases readToken_cases indexed id with ⟨m, used, live, rfl, ran⟩ | ⟨absent, ran⟩
  · rw [ran, andThen_ok]
    exact ⟨_, (leads_deleteToken (m.record used) s indexed.kinded).1,
      indexed_deleted indexed live used⟩
  · rw [ran, andThen_ok]
    refine ⟨s, rfl, indexed_congr ?_ indexed⟩
    intro m
    exact and_iff_left_of_imp (absent m)

theorem deleteTokens_indexed {tokens : Minted → Prop} (indexed : TokensIndexed tokens s)
    (ids : List String) : ∃ t, run (Prog.forEach ids deleteTokenIfRead) s = (.ok (), t) ∧
      TokensIndexed (fun m => tokens m ∧ m.id ∉ ids) t := by
  induction ids generalizing tokens s with
  | nil => exact ⟨s, rfl, indexed_congr (by simp) indexed⟩
  | cons id rest ih =>
    obtain ⟨t, ran, after⟩ := deleteTokenIfRead_indexed indexed id
    obtain ⟨u, ran', after'⟩ := ih after
    refine ⟨u, ?_, indexed_congr (by simp [and_assoc]) after'⟩
    show run (deleteTokenIfRead id >>= fun _ => Prog.forEach rest deleteTokenIfRead) s = _
    rw [run_bind, ran, andThen_ok]
    exact ran'

omit [Digest] in
theorem answer_id {u : String} {user : User} (answer : userAnswer s u = .ok (some user)) :
    (s.hashAt (.user u)).lookup "id" = some (.text user.id) := by
  unfold userAnswer at answer
  split at answer
  · cases answer
  · cases decoded : decodeUser (s.hashAt (.user u)) with
    | error e =>
      rw [decoded] at answer
      cases answer
    | ok x =>
      rw [decoded] at answer
      cases answer
      exact decode_user_id decoded

/-- The store with the rest of a user out of it, once the tokens of the user are. -/
def withoutUser (user : User) (s : AdminStore) : AdminStore :=
  ((((s.erase (.userByEmail user.email)).erase (.userByName user.email)).dropMember .userAll
    user.id).dropFields (.user user.id) deletedUserFields)

omit [Digest] in
theorem leads_withoutUser (user : User) (s : AdminStore) : Leads Storage.WellKinded (do
      Bucket.delete (.userByEmail user.email)
      Bucket.delete (.userByName user.email)
      Bucket.setRemove .userAll user.id
      Prog.forEach deletedUserFields (fun f => Bucket.hashDelete (.user user.id) f) :
        AuthProg Unit) s () (withoutUser user s) := by
  have cleared : ∀ t : AdminStore, Leads Storage.WellKinded
      (Prog.forEach deletedUserFields (fun f => Bucket.hashDelete (.user user.id) f) :
        AuthProg Unit) t () (t.dropFields (.user user.id) deletedUserFields) :=
    fun t => Leads.forEach (fun f _ u => leads_hashDelete rfl)
  exact leads_delete.bind (leads_delete.bind ((leads_setRemove rfl).bind (cleared _)))

omit [Digest] in
/-- What reading the user answers decides whether a deletion goes ahead. -/
theorem run_deleteUser (wk : s.WellKinded) (u : String) : run (deleteUser u) s =
    match userAnswer s u with
    | .error e => (.error e, s)
    | .ok none => (.error .notFound, s)
    | .ok (some user) =>
      andThen (run (Prog.forEach (s.setAt (.tokenByOwner user.id)) deleteTokenIfRead) s) fun _ =>
        run (do
          Bucket.delete (.userByEmail user.email)
          Bucket.delete (.userByName user.email)
          Bucket.setRemove .userAll user.id
          Prog.forEach deletedUserFields (fun f => Bucket.hashDelete (.user user.id) f) :
            AuthProg Unit) := by
  unfold deleteUser getUserById forgetUser
  simp only [bind_assoc]
  rw [run_bind, run_readUserById wk]
  rcases userAnswer s u with e | (_ | user)
  · rfl
  · rfl
  · rw [andThen_ok]
    show run (Bucket.setMembers (.tokenByOwner user.id) >>= _) s = _
    rw [run_bind, run_setMembers wk rfl, andThen_ok, run_bind]

/-- A deletion is refused, or the user goes and so do the tokens of the user. -/
theorem deleteUser_cases {tokens : Minted → Prop} (indexed : TokensIndexed tokens s) {u : String}
    (known : (∃ email, Registered s u email) ∨ (s.hashAt (.user u)).lookup "id" = none) :
    (∃ e, run (deleteUser u) s = (.error e, s)) ∨
    ∃ t, run (deleteUser u) s = (.ok (), t) ∧
      TokensIndexed (fun m => tokens m ∧ m.ownerId ≠ u) t ∧
      (∀ w, t.hashAt (.user w) = if w = u then
        Storage.eraseFields (s.hashAt (.user u)) deletedUserFields else s.hashAt (.user w)) ∧
      ∀ h, t.hashAt (.access h) = s.hashAt (.access h) := by
  rw [run_deleteUser indexed.kinded]
  rcases answer : userAnswer s u with e | (_ | user)
  · exact .inl ⟨e, rfl⟩
  · exact .inl ⟨.notFound, rfl⟩
  · have named : user.id = u := by
      have field := answer_id answer
      rcases known with ⟨email, registered⟩ | gone
      · rw [registered.idField, Option.some.injEq, AdminVal.text.injEq] at field
        exact field.symm
      · rw [gone] at field
        cases field
    subst named
    right
    have touched : Acts (fun c : Command AdminKey AdminVal => c.key.ofTokens)
        (Prog.forEach (s.setAt (.tokenByOwner user.id)) deleteTokenIfRead) :=
      acts_forEach _ _ (fun id _ => acts_deletesTokens id)
    have others := (entry_of_acts (fun k => AdminKey.ofTokens k = true) touched indexed.kinded).2
    obtain ⟨s', cleared, indexed'⟩ := deleteTokens_indexed indexed (s.setAt (.tokenByOwner user.id))
    rw [cleared] at others
    obtain ⟨ran, kinded⟩ := leads_withoutUser user s' indexed'.kinded
    refine ⟨withoutUser user s', ?_, ?_, ?_, ?_⟩
    · dsimp only
      rw [cleared]
      exact ran
    · have kept : TokensIndexed (fun m => tokens m ∧ m.id ∉ s.setAt (.tokenByOwner user.id))
          (withoutUser user s') :=
        indexed_of_views indexed' kinded (fun _ => by simp [withoutUser])
          (fun _ => by simp [withoutUser]) (fun _ _ => by simp [withoutUser])
          (fun _ => by simp [withoutUser])
      refine indexed_congr ?_ kept
      intro m
      refine and_congr_right fun live => not_congr ?_
      rw [indexed.byOwner]
      constructor
      · intro owned
        exact ⟨m, live, owned, rfl⟩
      · rintro ⟨m', live', owned, same⟩
        rw [← indexed.single m' m live' live same]
        exact owned
    · intro w
      have before : s'.hashAt (.user w) = s.hashAt (.user w) :=
        Storage.hashAt_of_entry (others _ (by simp [AdminKey.ofTokens]))
      by_cases here : w = user.id
      · subst here
        simp [withoutUser, before]
      · simp [withoutUser, here, before]
    · intro h
      have before : s'.hashAt (.access h) = s.hashAt (.access h) :=
        Storage.hashAt_of_entry (others _ (by simp [AdminKey.ofTokens]))
      simp [withoutUser, before]

end Users

/-! Authentication -/

section Authentication
variable {tokens : Minted → Prop} {s : AdminStore} (indexed : TokensIndexed tokens s) (now : Time)
  {plaintext : String}
include indexed

theorem run_authenticate_live (family : "wmt_".toList.isPrefixOf plaintext.toList) {m : Minted}
    (live : tokens m) (same : m.hash = Digest.sha256Hex plaintext) :
    run (authenticate plaintext now) s =
      if m.expiresAt.any (· < now) then (.ok none, s)
      else
        match userAnswer s m.ownerId with
        | .error e => (.error e, s)
        | .ok none => (.ok none, s)
        | .ok (some user) => (.ok (some ⟨user.id, user.email, user.isAdmin, .token, m.id⟩),
            s.putHash (.token m.id)
              ((s.hashAt (.token m.id)).insert "last_used_at" (.time now))) := by
  have held := (indexed.byHash (Digest.sha256Hex plaintext) _).mpr ⟨m, live, same, rfl⟩
  obtain ⟨used, read⟩ := run_readToken indexed live
  unfold authenticate
  rw [if_pos family]
  unfold authenticateWmt
  rw [run_bind, run_get indexed.kinded rfl, held, andThen_ok]
  show run (readTokenById m.id >>= _) s = _
  rw [run_bind, read, andThen_ok]
  show run (if m.expiresAt.any (· < now) then _ else _) s = _
  split
  · rfl
  · show run (authenticatedUser m.ownerId m.id >>= _) s = _
    unfold authenticatedUser
    rw [run_bind, run_bind, run_readUserById indexed.kinded]
    rcases userAnswer s m.ownerId with e | (_ | user)
    · rfl
    · rfl
    · have written : run
          (Bucket.hashSet (.token m.id) "last_used_at" (.time now) : AuthProg Unit) s =
          (.ok (), s.putHash (.token m.id)
            ((s.hashAt (.token m.id)).insert "last_used_at" (.time now))) :=
        run_hashSet indexed.kinded rfl _ _
      show run (Prog.attempt (Bucket.hashSet (.token m.id) "last_used_at" (.time now)) >>= _) s = _
      rw [run_bind, run_attempt, written]
      rfl

theorem run_authenticate_unknown (noAccess : ∀ h, s.hashAt (.access h) = ∅)
    (unknown : "wmt_".toList.isPrefixOf plaintext.toList →
      ∀ m, tokens m → m.hash ≠ Digest.sha256Hex plaintext) :
    run (authenticate plaintext now) s = (.ok none, s) := by
  unfold authenticate
  split
  · rename_i family
    have absent : s.bytesAt (.tokenByHash (Digest.sha256Hex plaintext)) = none := by
      cases held : s.bytesAt (.tokenByHash (Digest.sha256Hex plaintext)) with
      | none => rfl
      | some v =>
        obtain ⟨m, live, same, _⟩ := (indexed.byHash _ _).mp held
        exact absurd same (unknown family m live)
    unfold authenticateWmt
    rw [run_bind, run_get indexed.kinded rfl, absent]
    rfl
  · split
    · have loaded : run (loadAccessToken (Digest.sha256Hex plaintext)) s = (.ok none, s) := by
        unfold loadAccessToken
        rw [run_bind, run_hashGet indexed.kinded rfl, noAccess]
        rfl
      unfold authenticateWmm
      rw [run_bind, run_attempt, run_mapError, loaded]
      rfl
    · rfl

end Authentication

/-! Every run -/

structure TokensHeld (s : TokenState) : Prop where
  indexed : TokensIndexed s.Live s.store
  users : ∀ u ∈ s.users, ∃ email, Registered s.store u email
  gone : ∀ u, u ∉ s.users → (s.store.hashAt (.user u)).lookup "id" = none
  unused : ∀ u, u ∉ s.drawn → s.store.hashAt (.user u) = ∅
  ids : ∀ m ∈ s.minted, m.id ∈ s.drawn ∧ m.ownerId ∈ s.drawn
  revoked : ∀ id ∈ s.revoked, id ∈ s.drawn
  single : ∀ m ∈ s.minted, ∀ m' ∈ s.minted, m.id = m'.id → m = m'
  hashes : ∀ m ∈ s.minted, ∀ m' ∈ s.minted, m.hash = m'.hash → m = m'
  family : ∀ m ∈ s.minted, "wmt_".toList.isPrefixOf m.plaintext.toList
  noAccess : ∀ h, s.store.hashAt (.access h) = ∅

section Steps
variable [DateText] {s : TokenState} (held : TokensHeld s)
include held

theorem held_createUser (email : String) (isAdmin : Bool) (id : String) (now : Time)
    (fresh : id ∉ s.drawn) : TokensHeld (s.after (.createUser email isAdmin id now)) := by
  have later : ∀ x ∈ s.drawn, x ∈ id :: s.drawn := fun x => List.mem_cons_of_mem id
  rcases createUser_cases held.indexed.kinded email isAdmin id now with
    ⟨e, t, ran, kinded, same⟩ | ⟨user, t, ran, rfl, registered, kinded, same⟩
  · simp only [TokenState.after, ran]
    have users : ∀ u, t.hashAt (.user u) = s.store.hashAt (.user u) :=
      fun u => Storage.hashAt_of_entry (same _ (by simp))
    refine ⟨indexed_of_entries held.indexed kinded ?_, ?_, ?_, ?_, ?_, ?_, held.single, held.hashes,
      held.family, ?_⟩
    · intro k token
      apply same
      rintro rfl
      cases token
    · intro u inside
      obtain ⟨address, registered⟩ := held.users u inside
      exact ⟨address, registered_of_hash (users u) registered⟩
    · intro u outside
      rw [users]
      exact held.gone u outside
    · intro u outside
      rw [users]
      exact held.unused u (fun inside => outside (later u inside))
    · intro m inside
      exact ⟨later _ (held.ids m inside).1, later _ (held.ids m inside).2⟩
    · intro x inside
      exact later x (held.revoked x inside)
    · intro h
      rw [Storage.hashAt_of_entry (same _ (by simp))]
      exact held.noAccess h
  · simp only [TokenState.after, ran]
    have users : ∀ u, u ≠ user.id → t.hashAt (.user u) = s.store.hashAt (.user u) :=
      fun u other => Storage.hashAt_of_entry (same _ (by simpa using other) (by simp) (by simp))
    refine ⟨?_, ?_, ?_, ?_, ?_, ?_, held.single, held.hashes, held.family, ?_⟩
    · have kept : TokensIndexed s.Live t := by
        refine indexed_of_entries held.indexed kinded ?_
        intro k token
        apply same
        · rintro rfl
          cases token
        · rintro rfl
          cases token
        · rintro rfl
          cases token
      refine indexed_congr ?_ kept
      intro m
      unfold TokenState.Live
      -- the user is new, and no token can be of a user that was not there
      refine and_congr_right fun inside => and_congr_right fun _ => ?_
      rw [List.mem_cons, or_iff_right]
      intro owner
      exact fresh (owner ▸ (held.ids m inside).2)
    · intro u inside
      rcases List.mem_cons.mp inside with rfl | inside
      · exact ⟨_, registered⟩
      · by_cases here : u = user.id
        · exact ⟨_, here ▸ registered⟩
        · obtain ⟨address, registered⟩ := held.users u inside
          exact ⟨address, registered_of_hash (users u here) registered⟩
    · intro u outside
      rw [List.mem_cons, not_or] at outside
      rw [users u outside.1]
      exact held.gone u outside.2
    · intro u outside
      rw [List.mem_cons, not_or] at outside
      rw [users u outside.1]
      exact held.unused u outside.2
    · intro m inside
      exact ⟨later _ (held.ids m inside).1, later _ (held.ids m inside).2⟩
    · intro x inside
      exact later x (held.revoked x inside)
    · intro h
      rw [Storage.hashAt_of_entry (same _ (by simp) (by simp) (by simp))]
      exact held.noAccess h

omit [DateText] in
/-- An action that leaves the users as they are. -/
theorem held_step {s' : TokenState} (users : s'.users = s.users)
    (fields : ∀ u, s'.store.hashAt (.user u) = s.store.hashAt (.user u))
    (accesses : ∀ h, s'.store.hashAt (.access h) = s.store.hashAt (.access h))
    (drawn : ∀ x ∈ s.drawn, x ∈ s'.drawn) (indexed : TokensIndexed s'.Live s'.store)
    (ids : ∀ m ∈ s'.minted, m.id ∈ s'.drawn ∧ m.ownerId ∈ s'.drawn)
    (revoked : ∀ id ∈ s'.revoked, id ∈ s'.drawn)
    (single : ∀ m ∈ s'.minted, ∀ m' ∈ s'.minted, m.id = m'.id → m = m')
    (hashes : ∀ m ∈ s'.minted, ∀ m' ∈ s'.minted, m.hash = m'.hash → m = m')
    (family : ∀ m ∈ s'.minted, "wmt_".toList.isPrefixOf m.plaintext.toList) : TokensHeld s' := by
  refine ⟨indexed, ?_, ?_, ?_, ids, revoked, single, hashes, family, ?_⟩
  · intro u inside
    rw [users] at inside
    obtain ⟨email, registered⟩ := held.users u inside
    exact ⟨email, registered_of_hash (fields u) registered⟩
  · intro u outside
    rw [users] at outside
    rw [fields]
    exact held.gone u outside
  · intro u outside
    rw [fields]
    exact held.unused u (fun inside => outside (drawn u inside))
  · intro h
    rw [accesses]
    exact held.noAccess h

theorem held_createToken (ownerId name plaintext : String) (ttl : Option Nat) (id : String)
    (now : Time) (newId : id ∉ s.drawn) (fresh : s.Fresh plaintext)
    (legible : LegibleDate (ttl.map (now + ·))) :
    TokensHeld (s.after (.createToken ownerId name plaintext ttl id now)) := by
  have later : ∀ x ∈ s.drawn, x ∈ id :: s.drawn := fun x => List.mem_cons_of_mem id
  have ids : ∀ m ∈ s.minted, m.id ∈ id :: s.drawn ∧ m.ownerId ∈ id :: s.drawn := fun m inside =>
    ⟨later _ (held.ids m inside).1, later _ (held.ids m inside).2⟩
  rcases createToken_cases held.indexed ownerId name plaintext ttl id now with
    ⟨e, ran⟩ | ⟨⟨user, answer⟩, newName, ran⟩
  · simp only [TokenState.after, ran]
    exact held_step held rfl (fun _ => rfl) (fun _ => rfl) later held.indexed ids
      (fun x inside => later x (held.revoked x inside)) held.single held.hashes held.family
  · let m : Minted := ⟨id, ownerId, name, plaintext, now, ttl.map (now + ·)⟩
    have owner : ownerId ∈ s.users := by
      by_contra outside
      have field := answer_id answer
      rw [held.gone ownerId outside] at field
      cases field
    have drawnOwner : ownerId ∈ s.drawn := by
      by_contra outside
      have field := answer_id answer
      rw [held.unused ownerId outside] at field
      cases field
    have newMinted : ∀ m' ∈ s.minted, m'.id ≠ id :=
      fun m' inside same => newId (same ▸ (held.ids m' inside).1)
    have stored := indexed_stored held.indexed (m := m) legible (fun m' live => newMinted m' live.1)
      (fun m' live same => fresh.2 m' live.1 same.symm) newName
    have outcome : s.after (.createToken ownerId name plaintext ttl id now) =
        { s with
          store := withToken (m.record none) s.store
          minted := m :: s.minted
          drawn := id :: s.drawn } := by
      simp only [TokenState.after, ran]
      rfl
    rw [outcome]
    apply held_step held
    · rfl
    · intro u
      cases expires : m.expiresAt <;>
        simp [withToken, indexesOf, writtenFields, Command.apply, Minted.record, expires]
    · intro h
      cases expires : m.expiresAt <;>
        simp [withToken, indexesOf, writtenFields, Command.apply, Minted.record, expires]
    · exact later
    · refine indexed_congr ?_ stored
      intro m'
      constructor
      · rintro ⟨inside, unrevoked, owned⟩
        rcases List.mem_cons.mp inside with rfl | inside
        · exact .inl rfl
        · exact .inr ⟨inside, unrevoked, owned⟩
      · rintro (rfl | ⟨inside, unrevoked, owned⟩)
        · exact ⟨List.mem_cons_self, fun inside => newId (held.revoked _ inside), owner⟩
        · exact ⟨List.mem_cons_of_mem _ inside, unrevoked, owned⟩
    · intro m' inside
      rcases List.mem_cons.mp inside with rfl | inside
      · exact ⟨List.mem_cons_self, later _ drawnOwner⟩
      · exact ids m' inside
    · exact fun x inside => later x (held.revoked x inside)
    · intro m₁ inside₁ m₂ inside₂ same
      rcases List.mem_cons.mp inside₁ with rfl | inside₁ <;>
        rcases List.mem_cons.mp inside₂ with rfl | inside₂
      · rfl
      · exact absurd same.symm (newMinted m₂ inside₂)
      · exact absurd same (newMinted m₁ inside₁)
      · exact held.single m₁ inside₁ m₂ inside₂ same
    · intro m₁ inside₁ m₂ inside₂ same
      rcases List.mem_cons.mp inside₁ with rfl | inside₁ <;>
        rcases List.mem_cons.mp inside₂ with rfl | inside₂
      · rfl
      · exact absurd same (fresh.2 m₂ inside₂)
      · exact absurd same.symm (fresh.2 m₁ inside₁)
      · exact held.hashes m₁ inside₁ m₂ inside₂ same
    · intro m' inside
      rcases List.mem_cons.mp inside with rfl | inside
      · exact fresh.1
      · exact held.family m' inside

theorem held_renameToken (ownerId oldName newName : String) :
    TokensHeld (s.after (.renameToken ownerId oldName newName)) := by
  -- the tokens under their names of now, whichever of the three ends it comes to
  have named : ∀ (m : Minted) (name : String) (t : AdminStore), s.Live m →
      TokensIndexed (fun m' => ∃ old, s.Live old ∧ m' = old.named m.id name) t →
      (∀ u, t.hashAt (.user u) = s.store.hashAt (.user u)) →
      (∀ h, t.hashAt (.access h) = s.store.hashAt (.access h)) →
      TokensHeld { s with store := t, minted := s.minted.map (Minted.named m.id name) } := by
    intro m name t live indexed fields accesses
    refine held_step held rfl fields accesses (fun _ inside => inside) ?_ ?_ held.revoked ?_ ?_ ?_
    · refine indexed_congr ?_ indexed
      intro m'
      constructor
      · rintro ⟨inside, unrevoked, owned⟩
        obtain ⟨old, before, rfl⟩ := List.mem_map.mp inside
        rw [named_id] at unrevoked
        rw [named_owner] at owned
        exact ⟨old, ⟨before, unrevoked, owned⟩, rfl⟩
      · rintro ⟨old, ⟨inside, unrevoked, owned⟩, rfl⟩
        refine ⟨List.mem_map_of_mem inside, ?_, ?_⟩
        · rw [named_id]
          exact unrevoked
        · rw [named_owner]
          exact owned
    · intro m' inside
      obtain ⟨old, before, rfl⟩ := List.mem_map.mp inside
      rw [named_id, named_owner]
      exact held.ids old before
    · intro m₁ inside₁ m₂ inside₂ same
      obtain ⟨old₁, before₁, rfl⟩ := List.mem_map.mp inside₁
      obtain ⟨old₂, before₂, rfl⟩ := List.mem_map.mp inside₂
      rw [named_id, named_id] at same
      rw [held.single old₁ before₁ old₂ before₂ same]
    · intro m₁ inside₁ m₂ inside₂ same
      obtain ⟨old₁, before₁, rfl⟩ := List.mem_map.mp inside₁
      obtain ⟨old₂, before₂, rfl⟩ := List.mem_map.mp inside₂
      rw [named_hash, named_hash] at same
      rw [held.hashes old₁ before₁ old₂ before₂ same]
    · intro m' inside
      obtain ⟨old, before, rfl⟩ := List.mem_map.mp inside
      rw [named_plaintext]
      exact held.family old before
  rcases renameToken_cases held.indexed ownerId oldName newName with
    ⟨e, ran⟩ | ⟨m, used, live, owned, called, ⟨_, ran⟩ | ⟨newName', ran⟩⟩
  · simp only [TokenState.after, ran]
    exact held
  · simp only [TokenState.after, ran]
    refine named m m.name s.store live (indexed_congr ?_ held.indexed) (fun _ => rfl) (fun _ => rfl)
    intro m'
    have unchanged : ∀ old, s.Live old → old.named m.id m.name = old := by
      intro old live'
      by_cases same : old.id = m.id
      · obtain rfl := held.indexed.single old m live' live same
        exact named_same _ _
      · exact named_other _ same
    constructor
    · rintro ⟨old, live', rfl⟩
      rw [unchanged old live']
      exact live'
    · intro live'
      exact ⟨m', live', (unchanged m' live').symm⟩
  · subst owned
    simp only [TokenState.after, ran]
    exact named m newName _ live (indexed_renamed held.indexed live newName')
      (fun _ => by simp [withTokenName]) (fun _ => by simp [withTokenName])

theorem held_revokeTokenByName (ownerId name : String) :
    TokensHeld (s.after (.revokeTokenByName ownerId name)) := by
  rcases revokeTokenByName_cases held.indexed ownerId name with
    ran | ⟨m, used, live, owned, called, ran⟩
  · simp only [TokenState.after, ran]
    exact held
  · let gone := (s.minted.filter (fun m => m.ownerId = ownerId ∧ m.name = name)).map Minted.id
    have outcome : s.after (.revokeTokenByName ownerId name) =
        { s with store := withoutToken (m.record used) s.store, revoked := gone ++ s.revoked } := by
      simp only [TokenState.after, ran]
      rfl
    have names : ∀ x, x ∈ gone ↔
        ∃ m' ∈ s.minted, m'.ownerId = ownerId ∧ m'.name = name ∧ m'.id = x := by
      intro x
      simp [gone, and_assoc]
    rw [outcome]
    apply held_step held
    · rfl
    · intro u
      simp [withoutToken]
    · intro h
      simp [withoutToken]
    · exact fun _ inside => inside
    · have kept := indexed_deleted held.indexed live used
      dsimp only
      refine indexed_congr ?_ kept
      intro m'
      constructor
      · rintro ⟨inside, unrevoked, left⟩
        rw [List.mem_append, not_or, names] at unrevoked
        refine ⟨⟨inside, unrevoked.2, left⟩, ?_⟩
        intro same
        exact unrevoked.1 ⟨m, live.1, owned, called, same.symm⟩
      · rintro ⟨⟨inside, unrevoked, left⟩, other⟩
        refine ⟨inside, ?_, left⟩
        rw [List.mem_append, not_or, names]
        refine ⟨?_, unrevoked⟩
        rintro ⟨x, inside', owner, named, same⟩
        obtain rfl := held.single x inside' m' inside same
        exact other (congrArg Minted.id (indexed_name held.indexed ⟨inside, unrevoked, left⟩ live
          (owner.trans owned.symm) (named.trans called.symm)))
    · exact held.ids
    · intro x inside
      rcases List.mem_append.mp inside with now | before
      · obtain ⟨m', inside', _, _, rfl⟩ := (names x).mp now
        exact (held.ids m' inside').1
      · exact held.revoked x before
    · exact held.single
    · exact held.hashes
    · exact held.family

theorem held_deleteUser (id : String) : TokensHeld (s.after (.deleteUser id)) := by
  have known : (∃ email, Registered s.store id email) ∨
      (s.store.hashAt (.user id)).lookup "id" = none := by
    by_cases inside : id ∈ s.users
    · exact .inl (held.users id inside)
    · exact .inr (held.gone id inside)
  rcases deleteUser_cases held.indexed known with ⟨e, ran⟩ | ⟨t, ran, indexed, fields, accesses⟩
  · simp only [TokenState.after, ran]
    exact held
  · simp only [TokenState.after, ran]
    refine ⟨?_, ?_, ?_, ?_, held.ids, held.revoked, held.single, held.hashes, held.family, ?_⟩
    · refine indexed_congr ?_ indexed
      intro m
      unfold TokenState.Live
      simp only [List.mem_filter, decide_eq_true_eq, and_assoc]
    · intro u inside
      simp only [List.mem_filter, decide_eq_true_eq] at inside
      obtain ⟨email, registered⟩ := held.users u inside.1
      refine ⟨email, registered_of_hash ?_ registered⟩
      rw [fields, if_neg inside.2]
    · intro u outside
      simp only [List.mem_filter, decide_eq_true_eq, not_and, not_not] at outside
      rw [fields]
      split
      · simp [Storage.lookup_eraseFields, deletedUserFields]
      · rename_i other
        exact held.gone u (fun inside => other (outside inside))
    · intro u outside
      rw [fields]
      split
      · rename_i here
        subst here
        rw [held.unused u outside]
        apply AList.ext
        apply List.eq_nil_iff_forall_not_mem.mpr
        rintro ⟨f, v⟩ inside
        have held := AList.mem_lookup_iff.mpr inside
        rw [Option.mem_def, Storage.lookup_eraseFields] at held
        split at held <;> cases held
      · exact held.unused u outside
    · intro h
      rw [accesses]
      exact held.noAccess h

theorem held_authenticate (plaintext : String) (now : Time) :
    TokensHeld (s.after (.authenticate plaintext now)) := by
  by_cases known : "wmt_".toList.isPrefixOf plaintext.toList ∧
      ∃ m, s.Live m ∧ m.hash = Digest.sha256Hex plaintext
  · obtain ⟨family, m, live, same⟩ := known
    simp only [TokenState.after, run_authenticate_live held.indexed now family live same]
    split
    · exact held
    · rcases userAnswer s.store m.ownerId with e | (_ | user)
      · exact held
      · exact held
      · dsimp only
        exact held_step held rfl (fun _ => by simp) (fun _ => by simp) (fun _ inside => inside)
          (indexed_used held.indexed live now) held.ids held.revoked held.single held.hashes
          held.family
  · have unknown : "wmt_".toList.isPrefixOf plaintext.toList →
        ∀ m, s.Live m → m.hash ≠ Digest.sha256Hex plaintext :=
      fun family m live same => known ⟨family, m, live, same⟩
    simp only [TokenState.after, run_authenticate_unknown held.indexed now held.noAccess unknown]
    exact held

end Steps

theorem held_after [DateText] {s : TokenState} (held : TokensHeld s) (a : TokenAction)
    (new : a.New s) (legible : a.Legible) : TokensHeld (s.after a) := by
  cases a with
  | createUser email isAdmin id now => exact held_createUser held email isAdmin id now new
  | createToken ownerId name plaintext ttl id now =>
    exact held_createToken held ownerId name plaintext ttl id now new.1 new.2 legible
  | renameToken ownerId oldName newName => exact held_renameToken held ownerId oldName newName
  | revokeTokenByName ownerId name => exact held_revokeTokenByName held ownerId name
  | deleteUser id => exact held_deleteUser held id
  | authenticate plaintext now => exact held_authenticate held plaintext now

theorem held_start [DateText] {s : TokenState} (first : tokenStore.start s) : TokensHeld s := by
  obtain ⟨store, users, minted, revoked, drawn⟩ := s
  obtain ⟨⟨backend, rfl⟩, rfl, rfl, rfl, rfl⟩ := first
  have none : ∀ m, ¬ TokenState.Live ⟨Storage.empty backend, [], [], [], []⟩ m := by
    rintro m ⟨inside, _⟩
    cases inside
  refine ⟨⟨Storage.wellKinded_empty backend, fun m live => absurd live (none m),
    fun m _ live => absurd live (none m), by simp, ?_, ?_, ?_⟩, by simp, by simp, by simp, by simp,
    by simp, by simp, by simp, by simp, by simp⟩
  · intro h v
    refine iff_of_false (by simp) ?_
    rintro ⟨m, live, _⟩
    exact none m live
  · intro owner name v
    refine iff_of_false (by simp) ?_
    rintro ⟨m, live, _⟩
    exact none m live
  · intro owner id
    refine iff_of_false (by simp) ?_
    rintro ⟨m, live, _⟩
    exact none m live

theorem held_reached [DateText] {s : TokenState}
    (reached : Reached tokenStore (fun _ a => a.Legible) s) : TokensHeld s := by
  refine reached_invariant (fun _ first => held_start first) ?_ reached
  intro s a t held legible next
  simp only [tokenStore, Option.ite_none_right_eq_some, Option.some.injEq] at next
  obtain ⟨new, rfl⟩ := next
  exact held_after held a new legible

/-! What the invariant says -/

section Tokens
variable {tokens : Minted → Prop} {s : AdminStore} (indexed : TokensIndexed tokens s)
include indexed

theorem stored_of_live {m : Minted} (live : tokens m) : ∃ used, StoredToken s (m.record used) :=
  run_readToken indexed live

theorem live_of_stored {token : Token} (stored : StoredToken s token) :
    ∃ m used, tokens m ∧ token = m.record used := by
  rcases readToken_cases indexed token.id with ⟨m, used, live, _, ran⟩ | ⟨_, ran⟩
  · rw [StoredToken, ran] at stored
    cases stored
    exact ⟨m, used, live, rfl⟩
  · rw [StoredToken, ran] at stored
    cases stored

/-- What is said of the tokens that are indexed is said of the records that are stored. -/
theorem exists_stored (told : Token → Prop)
    (unused : ∀ m used, told (Minted.record m used) ↔ told (Minted.record m none)) :
    (∃ m, tokens m ∧ told (Minted.record m none)) ↔ ∃ token, StoredToken s token ∧ told token := by
  constructor
  · rintro ⟨m, live, said⟩
    obtain ⟨used, stored⟩ := stored_of_live indexed live
    exact ⟨m.record used, stored, (unused m used).mpr said⟩
  · rintro ⟨token, stored, said⟩
    obtain ⟨m, used, live, rfl⟩ := live_of_stored indexed stored
    exact ⟨m, live, (unused m used).mp said⟩

theorem indexes_agree : IndexesAgree s where
  readable id := by
    rcases readToken_cases indexed id with ⟨m, used, live, rfl, ran⟩ | ⟨_, ran⟩
    · exact .inr ⟨m.record used, ran, rfl⟩
    · exact .inl ran
  byHash h v := (indexed.byHash h v).trans
    (exists_stored indexed (fun token => token.hash = h ∧ v = .text token.id) (fun _ _ => Iff.rfl))
  byName owner name v := (indexed.byName owner name v).trans
    (exists_stored indexed (fun token => token.ownerId = owner ∧ token.name = name ∧
      v = .text token.id) (fun _ _ => Iff.rfl))
  byOwner owner id := (indexed.byOwner owner id).trans
    (exists_stored indexed (fun token => token.ownerId = owner ∧ token.id = id)
      (fun _ _ => Iff.rfl))

end Tokens

/-- A plaintext authenticates a user. -/
def Authenticates (s : AdminStore) (plaintext userId : String) (now : Time) : Prop :=
  ∃ context, (run (authenticate plaintext now) s).1 = .ok (some context) ∧ context.userId = userId

theorem authenticates_iff {s : TokenState} (held : TokensHeld s) {plaintext : String}
    (separated : ∀ m ∈ s.minted, Digest.sha256Hex plaintext = m.hash → plaintext = m.plaintext)
    (userId : String) (now : Time) : Authenticates s.store plaintext userId now ↔
      ∃ m ∈ s.minted, m.plaintext = plaintext ∧ m.ownerId = userId ∧ m.id ∉ s.revoked ∧
        ¬ m.expiresAt.any (· < now) ∧ userId ∈ s.users := by
  constructor
  · rintro ⟨context, ran, named⟩
    by_cases known : "wmt_".toList.isPrefixOf plaintext.toList ∧
        ∃ m, s.Live m ∧ m.hash = Digest.sha256Hex plaintext
    · obtain ⟨family, m, live, same⟩ := known
      obtain ⟨_, registered⟩ := held.users _ live.2.2
      obtain ⟨user, answer, called, _⟩ := registered_answer registered
      rw [run_authenticate_live held.indexed now family live same, answer] at ran
      split at ran
      · cases ran
      · rename_i current
        cases ran
        subst named
        dsimp only at called ⊢
        exact ⟨m, live.1, (separated m live.1 same.symm).symm, called.symm, live.2.1, current,
          called ▸ live.2.2⟩
    · have unknown : "wmt_".toList.isPrefixOf plaintext.toList →
          ∀ m, s.Live m → m.hash ≠ Digest.sha256Hex plaintext :=
        fun family m live same => known ⟨family, m, live, same⟩
      rw [run_authenticate_unknown held.indexed now held.noAccess unknown] at ran
      cases ran
  · rintro ⟨m, inside, rfl, rfl, unrevoked, current, left⟩
    obtain ⟨_, registered⟩ := held.users _ left
    obtain ⟨user, answer, called, _⟩ := registered_answer registered
    refine ⟨⟨user.id, user.email, user.isAdmin, .token, m.id⟩, ?_, called⟩
    rw [run_authenticate_live held.indexed now (held.family m inside) ⟨inside, unrevoked, left⟩ rfl,
      if_neg current, answer]

/-- A plaintext authenticates the user it was minted for, as long as it is neither revoked nor
    expired and the user is left; an owner has one live token of a name; and the indexes lead to
    the stored records and to nothing else. -/
structure TokensKept (s : TokenState) : Prop where
  answers : ∀ plaintext userId now,
    (∀ m ∈ s.minted, Digest.sha256Hex plaintext = Digest.sha256Hex m.plaintext →
      plaintext = m.plaintext) →
    (Authenticates s.store plaintext userId now ↔
      ∃ m ∈ s.minted, m.plaintext = plaintext ∧ m.ownerId = userId ∧ m.id ∉ s.revoked ∧
        ¬ m.expiresAt.any (· < now) ∧ userId ∈ s.users)
  names : ∀ m m', s.Live m → s.Live m' → m.ownerId = m'.ownerId → m.name = m'.name → m = m'
  agree : IndexesAgree s.store

theorem kept_of_held {s : TokenState} (held : TokensHeld s) : TokensKept s where
  answers _ userId now separated := authenticates_iff held separated userId now
  names _ _ live live' owner name := indexed_name held.indexed live live' owner name
  agree := indexes_agree held.indexed

/-- A token with an end that cannot be read is refused, or its record is there and fails to
    decode. -/
theorem far_created [DateText] {s : TokenState} (held : TokensHeld s)
    {ownerId name plaintext id : String} {ttl : Option Nat} {now : Time} (newId : id ∉ s.drawn)
    (far : ¬ LegibleDate (ttl.map (now + ·))) :
    (s.after (.createToken ownerId name plaintext ttl id now)).minted = s.minted ∨
      (run (readTokenById id) (s.after (.createToken ownerId name plaintext ttl id now)).store).1 =
        .error (.malformed "timestamp") := by
  rcases createToken_cases held.indexed ownerId name plaintext ttl id now with
    ⟨e, ran⟩ | ⟨_, _, ran⟩
  · simp only [TokenState.after, ran]
    exact .inl trivial
  · right
    let token := newToken ownerId name plaintext ttl id now
    have nothing : s.store.hashAt (.token token.id) = ∅ :=
      held.indexed.absent id (fun m live same => newId (same ▸ (held.ids m live.1).1))
    have read := read_newToken token rfl held.indexed.kinded nothing
    have unread : ¬ LegibleDate token.expiresAt := far
    rw [if_neg unread] at read
    simp only [TokenState.after, ran]
    exact congrArg Prod.fst read

/-- In every run whose tokens have ends that can be read the store is kept, and the first
    token made with another end breaks it. -/
theorem token_store [DateText] :
    (∀ s, Reached tokenStore (fun _ a => a.Legible) s → TokensKept s) ∧
      ∀ s a t, Reached tokenStore (fun _ a => a.Legible) s → tokenStore.step s a = some t →
        ¬ a.Legible → t.minted = s.minted ∨ ¬ TokensKept t := by
  refine ⟨fun s reached => kept_of_held (held_reached reached), ?_⟩
  intro s a t reached next far
  have held := held_reached reached
  simp only [tokenStore, Option.ite_none_right_eq_some, Option.some.injEq] at next
  obtain ⟨new, rfl⟩ := next
  cases a with
  | createToken ownerId name plaintext ttl id now =>
    refine (far_created held new.1 far).imp_right ?_
    intro unread kept
    rcases kept.agree.readable id with none | ⟨token, stored, same⟩
    · rw [none] at unread
      cases unread
    · rw [StoredToken, same] at stored
      rw [stored] at unread
      cases unread
  | _ => exact absurd trivial far

end

namespace Sample

def laterApiToken : String := "wmt_BBBBBBBBBBBBBBBBBBBBBBBBBBBBBBBBBBBBBBBBBBA"
def laterTokenId : String := "01J9ZK6C3N00000000000000T4"

/-- Ann's first token is renamed, a second one takes its old name, and the first is revoked. -/
def tokenRun : List TokenAction :=
  [.createUser "ann@example.com" false ann noon.pos,
    .createToken ann "ci" apiToken none tokenId noon.pos,
    .renameToken ann "ci" "old ci",
    .createToken ann "ci" laterApiToken (some 60) laterTokenId noon.pos,
    .authenticate apiToken noon.pos,
    .revokeTokenByName ann "old ci"]

def tokensMinted : List Minted :=
  [⟨laterTokenId, ann, "ci", laterApiToken, noon.pos, some (noon.pos + 60)⟩,
    ⟨tokenId, ann, "old ci", apiToken, noon.pos, none⟩]

/-- A token for eight thousand years. -/
def farRun : List TokenAction :=
  [.createUser "ann@example.com" false ann noon.pos,
    .createToken ann "ci" apiToken (some 252000000000) tokenId noon.pos]

end Sample

open Sample in
theorem token_store_ann : ∃ s, Reached tokenStore (fun _ a => a.Legible) s ∧
    Authenticates s.store laterApiToken ann (noon.pos + 30) ∧
    ¬ Authenticates s.store apiToken ann (noon.pos + 30) ∧ IndexesAgree s.store := by
  have ran : ((exec (guarded tokenStore (fun _ a => decide a.Legible))
      ⟨Storage.empty .valkey, [], [], [], []⟩ tokenRun).map
      (fun s => (s.minted, s.revoked, s.users))) = some (tokensMinted, [tokenId], [ann]) := by
    decide +kernel
  obtain ⟨s, done, shows⟩ := Option.map_eq_some_iff.mp ran
  obtain ⟨tokens, revoked, users⟩ : s.minted = tokensMinted ∧ s.revoked = [tokenId] ∧
      s.users = [ann] := by
    simpa using shows
  have reached : Reached tokenStore (fun _ a => a.Legible) s := by
    refine reached_mono ?_ (reached_of_guarded tokenRun ⟨⟨.valkey, rfl⟩, rfl, rfl, rfl, rfl⟩ done)
    exact fun _ _ checked => of_decide_eq_true checked
  have separated : ∀ plaintext ∈ [laterApiToken, apiToken], ∀ m ∈ s.minted,
      Digest.sha256Hex plaintext = Digest.sha256Hex m.plaintext → plaintext = m.plaintext := by
    rw [tokens]
    decide +kernel
  obtain ⟨answers, _, agree⟩ := token_store.1 s reached
  refine ⟨s, reached, ?_, ?_, agree⟩
  · rw [answers _ _ _ (separated _ (by simp)), tokens, revoked, users]
    decide +kernel
  · rw [answers _ _ _ (separated _ (by simp)), tokens, revoked, users]
    decide +kernel

open Sample in
/-- A token for eight thousand years is there, and no one is authenticated by it. -/
theorem token_store_far : ∃ s m, Reached tokenStore (fun _ _ => True) s ∧ s.minted = [m] ∧
    m.plaintext = apiToken ∧ m.id ∉ s.revoked ∧ m.ownerId ∈ s.users ∧
    m.expiresAt = some (noon.pos + 252000000000) ∧
    (run (authenticate apiToken noon.pos) s.store).1 = .error (.malformed "timestamp") ∧
    ¬ TokensKept s := by
  have ran : ((exec tokenStore ⟨Storage.empty .valkey, [], [], [], []⟩ farRun).map
      (fun s => (s.minted, s.revoked, s.users, (run (authenticate apiToken noon.pos) s.store).1))) =
      some ([⟨tokenId, ann, "ci", apiToken, noon.pos, some (noon.pos + 252000000000)⟩], [], [ann],
        .error (.malformed "timestamp")) := by
    decide +kernel
  obtain ⟨s, done, shows⟩ := Option.map_eq_some_iff.mp ran
  simp only [Prod.mk.injEq] at shows
  obtain ⟨tokens, revoked, users, answer⟩ := shows
  have reached := reached_of_exec (m := tokenStore) farRun ⟨⟨.valkey, rfl⟩, rfl, rfl, rfl, rfl⟩ done
  refine ⟨s, _, reached, tokens, rfl, by simp [revoked], by simp [users], rfl, answer, ?_⟩
  intro kept
  have separated : ∀ m ∈ s.minted, Digest.sha256Hex apiToken = Digest.sha256Hex m.plaintext →
      apiToken = m.plaintext := by
    rw [tokens]
    decide +kernel
  obtain ⟨context, authenticated, _⟩ : Authenticates s.store apiToken ann noon.pos := by
    rw [kept.answers _ _ _ separated, tokens, revoked, users]
    decide +kernel
  rw [answer] at authenticated
  cases authenticated

end WireMirage
