import WireMirage.Library.StepMachine
import WireMirage.Auth.Accounts

/-!
What is left of an account after its deletion. The fields that `delete_user` clears
lack the session epoch, which every account is created with, so that a hash without
an id stays behind and no longer decodes.
-/
namespace WireMirage
open Prog StepMachine

/-! Accounts over time -/

/-- The store, the ids drawn so far and the bearer tokens handed out, each with its user. -/
structure AccountState where
  store : AdminStore
  minted : List String
  bearers : List (String × String)

inductive AccountAction where
  | bootstrapAdmin (email plaintext id tokenId : String) (now : Time)
  | createUser (email : String) (isAdmin : Bool) (id : String) (now : Time)
  | upsertLocalUser (email : String) (isAdmin : Bool) (id : String) (now : Time)
  | upsertOauthUser (provider subject email : String) (isAdmin : Bool) (id : String) (now : Time)
  | getUserByEmail (email : String)
  | setUserAdmin (id : String) (isAdmin : Bool)
  | bumpSessionEpoch (id : String)
  | deleteUser (id : String)
  | createToken (ownerId name plaintext : String) (ttlSeconds : Option Nat) (id : String)
      (now : Time)
  | renameToken (ownerId oldName newName : String)
  | revokeTokenByName (ownerId name : String)
  | authenticate (plaintext : String) (now : Time)
  | saveAccessToken (plaintext : String) (token : AccessToken) (ttl : Nat)
  | wait (seconds : Nat)

namespace AccountAction

/-- The ids an action draws. -/
def draws : AccountAction → List String
  | bootstrapAdmin _ _ id tokenId _ => [id, tokenId]
  | createUser _ _ id _ => [id]
  | upsertLocalUser _ _ id _ => [id]
  | upsertOauthUser _ _ _ _ id _ => [id]
  | createToken _ _ _ _ id _ => [id]
  | _ => []

variable [Digest] [DateText]

def change (s : AdminStore) : AccountAction → AdminStore
  | bootstrapAdmin email plaintext id tokenId now =>
      (run (WireMirage.bootstrapAdmin email plaintext id tokenId now) s).2
  | createUser email isAdmin id now => (run (WireMirage.createUser email isAdmin id now) s).2
  | upsertLocalUser email isAdmin id now =>
      (run (WireMirage.upsertLocalUser email isAdmin id now) s).2
  | upsertOauthUser provider subject email isAdmin id now =>
      (run (WireMirage.upsertOauthUser provider subject email isAdmin id now) s).2
  | getUserByEmail email => (run (WireMirage.getUserByEmail email) s).2
  | setUserAdmin id isAdmin => (run (WireMirage.setUserAdmin id isAdmin) s).2
  | bumpSessionEpoch id => (run (WireMirage.bumpSessionEpoch id) s).2
  | deleteUser id => (run (WireMirage.deleteUser id) s).2
  | createToken ownerId name plaintext ttl id now =>
      (run (WireMirage.createToken ownerId name plaintext ttl id now) s).2
  | renameToken ownerId oldName newName =>
      (run (WireMirage.renameToken ownerId oldName newName) s).2
  | revokeTokenByName ownerId name => (run (WireMirage.revokeTokenByName ownerId name) s).2
  | authenticate plaintext now => (run (WireMirage.authenticate plaintext now) s).2
  | saveAccessToken _ token ttl => (run (WireMirage.saveAccessToken token ttl) s).2
  | wait seconds => s.advance seconds

/-- The bearer token an action hands out, when it succeeds. -/
def hands (s : AdminStore) : AccountAction → List (String × String)
  | bootstrapAdmin email plaintext id tokenId now =>
      match (run (WireMirage.bootstrapAdmin email plaintext id tokenId now) s).1 with
      | .ok true => [(plaintext, id)]
      | _ => []
  | createToken ownerId name plaintext ttl id now =>
      match (run (WireMirage.createToken ownerId name plaintext ttl id now) s).1 with
      | .ok _ => [(plaintext, ownerId)]
      | .error _ => []
  | saveAccessToken plaintext token _ =>
      if token.tokenHash = Digest.sha256Hex plaintext then [(plaintext, token.userId)] else []
  | _ => []

end AccountAction

def accounts [Digest] [DateText] : Machine AccountState AccountAction where
  start s := (∃ backend, s.store = Storage.empty backend) ∧ s.minted = [] ∧ s.bearers = []
  step s a :=
    if a.draws.Nodup ∧ ∀ id ∈ a.draws, id ∉ s.minted then
      some ⟨a.change s.store, a.draws ++ s.minted, a.hands s.store ++ s.bearers⟩
    else none

/-- A deleted user is not found, its bearer tokens open nothing, and a login through an
    identity that led to it makes a new account. -/
structure DeletionComplete [Digest] (s : AccountState) (u : String) (t : AdminStore) : Prop where
  gone : (run (getUserById u) t).1 = .error .notFound
  bearers : ∀ plaintext, (plaintext, u) ∈ s.bearers → ∀ now,
    (run (authenticate plaintext now) t).1 = .ok none
  login : ∀ provider subject user isAdmin id now,
    s.store.bytesAt (.userByIdentity provider subject) = some (.text u) →
    (run (getUserById u) s.store).1 = .ok user → id ∉ s.minted →
    ∃ fresh, (run (upsertOauthUser provider subject user.email isAdmin id now) t).1 = .ok fresh ∧
      fresh.id = id

/-! What every account is stored with -/

/-- A record with an id has the id it is stored under, and a session epoch; it never expires. -/
structure WholeUsers (s : AdminStore) : Prop where
  kinded : s.WellKinded
  whole : ∀ u v, (s.hashAt (.user u)).lookup "id" = some v →
    v = .text u ∧ ((s.hashAt (.user u)).lookup "session_epoch").isSome
  lasting : ∀ u, s.armed (.user u) = none

theorem whole_apply (c : Command AdminKey AdminVal) (s : AdminStore) (spares : SparesUsers c)
    (typed : c.Typed) (hold : WholeUsers s) : WholeUsers (c.apply s) := by
  have kinded := c.wellKinded_apply typed hold.kinded
  by_cases user : ∃ u, c.key = .user u
  · obtain ⟨u, here⟩ := user
    cases c with
    | setField k f v =>
      cases here
      refine ⟨kinded, ?_, ?_⟩
      · intro w x id
        by_cases same : w = u
        · subst same
          simp only [Command.apply, Storage.hashAt_putHash, if_true, lookup_insert] at id ⊢
          rw [if_neg (fun h => spares h.symm)] at id
          refine ⟨(hold.whole w x id).1, ?_⟩
          split
          · rfl
          · exact (hold.whole w x id).2
        · simp only [Command.apply, Storage.hashAt_putHash, AdminKey.user.injEq, same,
            if_false] at id ⊢
          exact hold.whole w x id
      · intro w
        exact (Storage.armed_putHash _ _ _ _).trans (hold.lasting w)
    | dropField k f =>
      cases here
      refine ⟨kinded, ?_, ?_⟩
      · intro w x id
        by_cases same : w = u
        · subst same
          simp only [Command.apply, Storage.hashAt_dropField, if_true] at id ⊢
          by_cases cleared : "id" = f
          · subst cleared
            simp at id
          · rw [AList.lookup_erase_ne cleared] at id
            rw [AList.lookup_erase_ne (Ne.symm spares)]
            exact hold.whole w x id
        · simp only [Command.apply, Storage.hashAt_dropField, AdminKey.user.injEq, same,
            if_false] at id ⊢
          exact hold.whole w x id
      · intro w
        by_cases same : w = u
        · subst same
          exact Storage.armed_dropField_none s _ f (hold.lasting w)
        · have other : AdminKey.user w ≠ .user u := fun h => same (AdminKey.user.inj h)
          exact (Storage.armed_of_entry (Storage.entry_dropField_ne s other f)).trans
            (hold.lasting w)
    | put k v =>
      cases here
      cases typed
    | putTtl k v ttl =>
      cases here
      cases typed
    | erase k =>
      cases here
      exact spares.elim
    | addMember k x =>
      cases here
      cases typed
    | dropMember k x =>
      cases here
      cases typed
    | arm k ttl =>
      cases here
      exact spares.elim
  · have same : ∀ u, (c.apply s).entry (.user u) = s.entry (.user u) :=
      fun u => c.entry_apply s (fun here => user ⟨u, here.symm⟩)
    refine ⟨kinded, ?_, ?_⟩
    · intro u v id
      rw [Storage.hashAt_of_entry (same u)] at id ⊢
      exact hold.whole u v id
    · intro u
      rw [Storage.armed_of_entry (same u)]
      exact hold.lasting u

theorem whole_advance {s : AdminStore} (hold : WholeUsers s) (seconds : Nat) :
    WholeUsers (s.advance seconds) where
  kinded := Storage.wellKinded_advance hold.kinded seconds
  whole := by
    intro u v id
    have stays : s.due (.user u) seconds = false := by simp [Storage.due, hold.lasting u]
    simp only [Storage.hashAt_advance, stays] at id ⊢
    exact hold.whole u v id
  lasting := by
    intro u
    simp [Storage.armed_advance, hold.lasting u]

section Maintenance
variable {A : Type}

theorem maintains_of_spares {Err : Type} {p : Prog AdminStore Err A} (acts : Acts SparesUsers p) :
    Maintains WholeUsers p :=
  maintains_of_keeps (keeps_of_acts (fun _ hold => hold.kinded) whole_apply p acts)

theorem maintains_account {p : AuthProg A}
    (acts : (∀ c : Command AdminKey AdminVal, c.key.account → SparesUsers c → SparesUsers c) →
      Acts SparesUsers p) : Maintains WholeUsers p :=
  maintains_of_spares (acts (fun _ _ spares => spares))

def encodeUser (user : User) (h : Fields AdminVal) : Fields AdminVal :=
  ((((h.insert "id" (.text user.id)).insert "primary_email" (.text user.email)).insert
    "is_admin" (.flag user.isAdmin)).insert "created_at" (.time user.createdAt)).insert
    "session_epoch" (.int 0)

theorem leads_writeUserFields (user : User) (s : AdminStore) :
    Leads Storage.WellKinded (writeUserFields user) s ()
      (s.putHash (.user user.id) (encodeUser user (s.hashAt (.user user.id)))) := by
  apply Leads.ends
  · unfold writeUserFields
    exact (leads_hashSet rfl).bind <| (leads_hashSet rfl).bind <| (leads_hashSet rfl).bind <|
      (leads_hashSet rfl).bind <| leads_hashSet rfl
  · simp [encodeUser]

theorem maintains_writeUserFields (user : User) : Maintains WholeUsers (writeUserFields user) := by
  intro s hold
  obtain ⟨ran, kinded⟩ := leads_writeUserFields user s hold.kinded
  rw [ran]
  refine ⟨kinded, ?_, ?_⟩
  · intro u v id
    by_cases same : u = user.id
    · subst same
      simp only [Storage.hashAt_putHash, if_true, encodeUser, lookup_insert] at id ⊢
      simp only [String.reduceEq, if_false, Option.some.injEq] at id ⊢
      exact ⟨id.symm, rfl⟩
    · simp only [Storage.hashAt_putHash, AdminKey.user.injEq, same, if_false] at id ⊢
      exact hold.whole u v id
  · intro u
    exact (Storage.armed_putHash _ _ _ _).trans (hold.lasting u)

theorem maintains_writeNewUser (email : String) (isAdmin : Bool) (id : String) (now : Time) :
    Maintains WholeUsers (writeNewUser email isAdmin id now) := by
  apply maintains_bind (maintains_account fun w => acts_findUserByEmail w email)
  rintro (_ | user)
  · exact maintains_bind (maintains_writeUserFields _)
      (fun _ => maintains_account fun w => acts_claimEmail w _)
  · exact fun s hold => hold

theorem maintains_indexIdentity (provider subject id : String) (user : User) :
    Maintains WholeUsers (Bucket.set (.userByIdentity provider subject) (.text id) >>= fun _ =>
      (pure user : AuthProg User)) :=
  maintains_of_spares (acts_bind _ _ (acts_set rfl trivial) (fun _ => trivial))

theorem maintains_firstSeenIdentity (provider subject email : String) (isAdmin : Bool)
    (id : String) (now : Time) :
    Maintains WholeUsers (firstSeenIdentity provider subject email isAdmin id now) := by
  apply maintains_bind (maintains_account fun w => acts_findUserByEmail w email)
  rintro (_ | user)
  · exact maintains_bind (maintains_writeNewUser email isAdmin id now)
      (fun user => maintains_indexIdentity _ _ _ user)
  · exact maintains_bind (maintains_of_spares (acts_set rfl trivial))
      (fun _ => maintains_account fun w => acts_syncAdmin w user isAdmin)

theorem maintains_upsertOauthUser (provider subject email : String) (isAdmin : Bool)
    (id : String) (now : Time) :
    Maintains WholeUsers (upsertOauthUser provider subject email isAdmin id now) := by
  apply maintains_bind (maintains_of_spares (acts_get rfl))
  rintro (_ | v)
  · exact maintains_firstSeenIdentity _ _ _ _ _ _
  · apply maintains_bind (maintains_of_spares (acts_indexedId _ v))
    intro linked
    apply maintains_bind (maintains_of_spares (acts_readUserById linked))
    rintro (_ | user)
    · exact maintains_bind (maintains_of_spares (acts_delete trivial))
        (fun _ => maintains_firstSeenIdentity _ _ _ _ _ _)
    · exact maintains_bind (maintains_account fun w => acts_syncAdmin w user isAdmin)
        (fun user => maintains_account fun w => acts_backfillEmail w user _)

theorem maintains_upsertLocalUser (email : String) (isAdmin : Bool) (id : String) (now : Time) :
    Maintains WholeUsers (upsertLocalUser email isAdmin id now) := by
  apply maintains_bind (maintains_account fun w => acts_findUserByEmail w _)
  rintro (_ | user)
  · exact maintains_bind (maintains_writeNewUser _ isAdmin id now)
      (fun user => maintains_indexIdentity _ _ _ user)
  · exact maintains_bind (maintains_account fun w => acts_syncAdmin w user isAdmin)
      (fun user => maintains_indexIdentity _ _ _ user)

theorem maintains_bootstrapAdmin [Digest] [DateText] (email plaintext id tokenId : String)
    (now : Time) :
    Maintains WholeUsers (bootstrapAdmin email plaintext id tokenId now) := by
  apply maintains_bind (maintains_account fun w => acts_findUserByEmail w _)
  rintro (_ | user)
  · apply maintains_bind (maintains_account fun w => acts_adoptBootstrap w _)
    rintro (_ | _)
    · apply maintains_bind (maintains_attempt (maintains_writeNewUser _ true id now))
      rintro (e | user)
      · cases e <;> exact fun s hold => hold
      · exact maintains_bind (maintains_account fun w => acts_writeNewToken w _ _ _ _ _ _)
          (fun _ => fun s hold => hold)
    · exact fun s hold => hold
  · exact fun s hold => hold

theorem maintains_saveAccessToken (token : AccessToken) (ttl : Nat) :
    Maintains WholeUsers (saveAccessToken token ttl) :=
  maintains_of_spares (acts_bind _ _ (acts_hashSet rfl trivial)
    (fun _ => acts_setTtl (by omega) trivial))

end Maintenance

theorem whole_change [Digest] [DateText] (s : AdminStore) (a : AccountAction)
    (hold : WholeUsers s) : WholeUsers (a.change s) := by
  cases a with
  | bootstrapAdmin email plaintext id tokenId now =>
    exact maintains_bootstrapAdmin email plaintext id tokenId now s hold
  | createUser email isAdmin id now => exact maintains_writeNewUser _ isAdmin id now s hold
  | upsertLocalUser email isAdmin id now =>
    exact maintains_upsertLocalUser email isAdmin id now s hold
  | upsertOauthUser provider subject email isAdmin id now =>
    exact maintains_upsertOauthUser provider subject email isAdmin id now s hold
  | getUserByEmail email => exact maintains_account (fun w => acts_findUserByEmail w _) s hold
  | setUserAdmin id isAdmin =>
    exact maintains_account (fun w => acts_setUserAdmin w id isAdmin) s hold
  | bumpSessionEpoch id => exact maintains_account (fun w => acts_bumpSessionEpoch w id) s hold
  | deleteUser id => exact maintains_account (fun w => acts_deletes w (acts_deleteUser id)) s hold
  | createToken ownerId name plaintext ttl id now =>
    exact maintains_account (fun w => acts_createToken w ownerId name plaintext ttl id now) s hold
  | renameToken ownerId oldName newName =>
    exact maintains_account (fun w => acts_renameToken w ownerId oldName newName) s hold
  | revokeTokenByName ownerId name =>
    exact maintains_account (fun w => acts_revokeTokenByName w ownerId name) s hold
  | authenticate plaintext now =>
    exact maintains_account (fun w => acts_authenticate w plaintext now) s hold
  | saveAccessToken plaintext token ttl => exact maintains_saveAccessToken token ttl s hold
  | wait seconds => exact whole_advance hold seconds

theorem whole_reached [Digest] [DateText] {s : AccountState}
    (reached : Reached accounts (fun _ _ => True) s) : WholeUsers s.store := by
  have base : ∀ s, accounts.start s → WholeUsers s.store := by
    rintro s ⟨⟨backend, empty⟩, _, _⟩
    rw [empty]
    exact ⟨Storage.wellKinded_empty backend, by simp, by simp⟩
  refine reached_invariant base ?_ reached
  intro s a t hold _ next
  simp only [accounts, Option.ite_none_right_eq_some, Option.some.injEq] at next
  obtain ⟨_, rfl⟩ := next
  exact whole_change s.store a hold

/-! After a deletion -/

theorem user_answer_id {s : AdminStore} (hold : WholeUsers s) {u : String} {user : User}
    (found : userAnswer s u = .ok (some user)) :
    user.id = u ∧ ((s.hashAt (.user u)).lookup "session_epoch").isSome := by
  unfold userAnswer at found
  split at found
  · cases found
  · cases decoded : decodeUser (s.hashAt (.user u)) with
    | error e => simp [decoded, Except.map] at found
    | ok x =>
      simp only [decoded, Except.map, Except.ok.injEq, Option.some.injEq] at found
      subst found
      obtain ⟨same, epoch⟩ := hold.whole u _ (decode_user_id decoded)
      exact ⟨AdminVal.text.inj same, epoch⟩

/-- The hash of a deleted user: no name to go by, but still a session epoch. -/
structure Leftover (s : AdminStore) (u : String) : Prop where
  kinded : s.WellKinded
  email : (s.hashAt (.user u)).lookup "primary_email" = none
  name : (s.hashAt (.user u)).lookup "name" = none
  epoch : ((s.hashAt (.user u)).lookup "session_epoch").isSome

theorem leftover_answer {s : AdminStore} {u : String} (left : Leftover s u) :
    userAnswer s u = .error (.malformed "field name missing") := by
  have full : ¬ (s.hashAt (.user u)).entries.isEmpty = true := by
    intro empty
    have epoch := left.epoch
    rw [Storage.hash_eq_empty_of_isEmpty empty] at epoch
    simp at epoch
  have unnamed : decodeEmail (s.hashAt (.user u)) = .error (.malformed "field name missing") := by
    simp [decodeEmail, userText, left.email, left.name]
  unfold userAnswer decodeUser
  rw [if_neg full, unnamed]
  rfl

theorem epoch_kept {s : AdminStore} {u : String} {A : Type} {p : AuthProg A}
    (acts : Acts DeletesAccount p) (wk : s.WellKinded)
    (epoch : ((s.hashAt (.user u)).lookup "session_epoch").isSome) :
    (run p s).2.WellKinded ∧ (((run p s).2.hashAt (.user u)).lookup "session_epoch").isSome := by
  have keeps : Keeps (fun t : AdminStore => t.WellKinded ∧
      ((t.hashAt (.user u)).lookup "session_epoch").isSome) p := by
    apply keeps_of_acts (fun t held => held.1) _ p acts
    rintro c t deletes typed ⟨kinded, present⟩
    refine ⟨c.wellKinded_apply typed kinded, ?_⟩
    by_cases here : .user u = c.key
    · cases c with
      | dropField k f =>
        cases here
        have other : "session_epoch" ≠ f := by
          rintro rfl
          simp [DeletesAccount, deletedUserFields] at deletes
        simpa [Command.apply, AList.lookup_erase_ne other] using present
      | erase k =>
        cases here
        exact deletes.elim
      | dropMember k x =>
        cases here
        exact deletes.elim
      | _ => exact deletes.elim
    · rw [Storage.hashAt_of_entry (c.entry_apply t here)]
      exact present
  exact keeps_run p keeps s ⟨wk, epoch⟩

theorem deleteUser_leaves {s t : AdminStore} (hold : WholeUsers s) {u : String}
    (deleted : run (deleteUser u) s = (.ok (), t)) : Leftover t u := by
  unfold deleteUser at deleted
  rw [run_bind] at deleted
  obtain ⟨user, s', read, rest⟩ := andThen_ok_iff.mp deleted
  obtain ⟨ran, found⟩ := run_getUserById hold.kinded u (congrArg Prod.fst read)
  rw [ran, Prod.mk.injEq] at read
  obtain ⟨_, rfl⟩ := read
  obtain ⟨rfl, epoch⟩ := user_answer_id hold found
  rw [run_bind] at rest
  obtain ⟨_, r, forgotten, cleared⟩ := andThen_ok_iff.mp rest
  obtain ⟨kinded, present⟩ := epoch_kept (acts_forgetUser user) hold.kinded epoch
  rw [forgotten] at kinded present
  rw [run_hashDeletes _ kinded rfl, Prod.mk.injEq] at cleared
  obtain ⟨_, rfl⟩ := cleared
  refine ⟨Storage.wellKinded_dropFields kinded rfl _, ?_, ?_, ?_⟩
  · simp [Storage.lookup_eraseFields, deletedUserFields]
  · simp [Storage.lookup_eraseFields, deletedUserFields]
  · simpa [Storage.lookup_eraseFields, deletedUserFields] using present

/-- A deletion touches neither the identities nor the access tokens of the user. -/
theorem deleteUser_spares {s t : AdminStore} (wk : s.WellKinded) {u : String}
    (deleted : run (deleteUser u) s = (.ok (), t)) :
    (∀ provider subject, t.entry (.userByIdentity provider subject) =
      s.entry (.userByIdentity provider subject)) ∧
    ∀ hash, t.entry (.access hash) = s.entry (.access hash) := by
  have touches : Acts (fun c : Command AdminKey AdminVal =>
      (∀ provider subject, c.key ≠ .userByIdentity provider subject) ∧
        ∀ hash, c.key ≠ .access hash) (deleteUser u) := by
    apply acts_mono _ _ (acts_deleteUser u)
    intro c deletes
    constructor
    · intro provider subject here
      cases c <;> cases here <;> exact deletes.elim
    · intro hash here
      cases c <;> cases here <;> exact deletes.elim
  have same := (entry_of_acts (fun k => (∀ provider subject,
    k ≠ .userByIdentity provider subject) ∧ ∀ hash, k ≠ .access hash) touches wk).2
  rw [deleted] at same
  exact ⟨fun provider subject => same _ (fun apart => apart.1 provider subject rfl),
    fun hash => same _ (fun apart => apart.2 hash rfl)⟩

/-- What a deleted account answers: its record, every login through an identity that was
    linked to it and every access token issued for it that has not expired is an error. -/
structure DeletionStuck [Digest] (s t : AdminStore) (u : String) : Prop where
  record : run (getUserById u) t = (.error (.malformed "field name missing"), t)
  login : ∀ provider subject email isAdmin id now,
    s.bytesAt (.userByIdentity provider subject) = some (.text u) →
    run (upsertOauthUser provider subject email isAdmin id now) t =
      (.error (.malformed "field name missing"), t)
  access : ∀ plaintext now r, "wmm_".toList.isPrefixOf plaintext.toList →
    (s.hashAt (.access (Digest.sha256Hex plaintext))).lookup "data" = some (.access r) →
    r.userId = u → now ≤ r.expiresAt →
    run (authenticate plaintext now) t = (.error (.malformed "field name missing"), t)

theorem deletion_stuck [Digest] {s t : AdminStore} (hold : WholeUsers s) {u : String}
    (deleted : run (deleteUser u) s = (.ok (), t)) : DeletionStuck s t u := by
  have left := deleteUser_leaves hold deleted
  have answer := leftover_answer left
  obtain ⟨identities, accesses⟩ := deleteUser_spares hold.kinded deleted
  have unread : run (readUserById u) t = (.error (.malformed "field name missing"), t) := by
    rw [run_readUserById left.kinded, answer]
  refine ⟨?_, ?_, ?_⟩
  · unfold getUserById
    rw [run_bind, unread, andThen_error]
  · intro provider subject email isAdmin id now linked
    have still : t.bytesAt (.userByIdentity provider subject) = some (.text u) :=
      (Storage.bytesAt_of_entry (identities provider subject)).trans linked
    unfold upsertOauthUser
    simp only
    rw [run_bind, run_get left.kinded rfl, still, andThen_ok]
    show run (readUserById u >>= _) t = _
    rw [run_bind, unread, andThen_error]
  · intro plaintext now r family stored owner live
    have other : ¬ "wmt_".toList.isPrefixOf plaintext.toList = true := by
      obtain ⟨rest, same⟩ := List.isPrefixOf_iff_prefix.mp family
      rw [List.isPrefixOf_iff_prefix, ← same]
      rintro ⟨rest', differs⟩
      simp at differs
    have still : (t.hashAt (.access (Digest.sha256Hex plaintext))).lookup "data" =
        some (.access r) := by
      rw [Storage.hashAt_of_entry (accesses _), stored]
    have loaded : run (loadAccessToken (Digest.sha256Hex plaintext)) t = (.ok (some r), t) := by
      unfold loadAccessToken
      rw [run_bind, run_hashGet left.kinded rfl, still]
      rfl
    unfold authenticate
    rw [if_neg other, if_pos family]
    unfold authenticateWmm
    rw [run_bind, run_attempt, run_mapError, loaded]
    show run (if r.expiresAt < now then _ else authenticatedUser r.userId r.tokenHash) t = _
    rw [if_neg (Nat.not_lt.mpr live), owner]
    unfold authenticatedUser
    rw [run_bind, unread, andThen_error]

theorem delete_user_incomplete [Digest] [DateText] (s : AccountState)
    (reached : Reached accounts (fun _ _ => True) s) (u : String) (t : AdminStore)
    (deleted : run (deleteUser u) s.store = (.ok (), t)) :
    DeletionStuck s.store t u ∧ ¬ DeletionComplete s u t := by
  have stuck := deletion_stuck (whole_reached reached) deleted
  refine ⟨stuck, ?_⟩
  intro complete
  have gone := complete.gone
  rw [stuck.record] at gone
  simp at gone

namespace Sample

/-- A user logs in through a provider and mints a token. -/
def loggedIn : List AccountAction :=
  [.upsertOauthUser "github" "42" "ann@shop.test" false ann 0,
    .createToken ann "cli" apiToken none tokenId 1]

def deletion (s : AccountState) : Option AdminStore :=
  match run (deleteUser ann) s.store with
  | (.ok (), t) => some t
  | (.error _, _) => none

end Sample

open Sample in
theorem delete_user_incomplete_ann : ∃ s : AccountState,
    Reached accounts (fun _ _ => True) s ∧ ∃ t, run (deleteUser Sample.ann) s.store = (.ok (), t) ∧
      DeletionStuck s.store t Sample.ann ∧ ¬ DeletionComplete s Sample.ann t := by
  have ran : ((exec accounts ⟨Storage.empty .inMemory, [], []⟩ Sample.loggedIn).bind
      Sample.deletion).isSome = true := by
    decide +kernel
  obtain ⟨t, done⟩ := Option.isSome_iff_exists.mp ran
  obtain ⟨s, minted, ends⟩ := Option.bind_eq_some_iff.mp done
  have reached := reached_of_exec (m := accounts) Sample.loggedIn
      ⟨⟨.inMemory, rfl⟩, rfl, rfl⟩ minted
  unfold Sample.deletion at ends
  rcases deleted : run (deleteUser Sample.ann) s.store with ⟨e | _, t'⟩
  · rw [deleted] at ends
    cases ends
  · rw [deleted] at ends
    cases ends
    exact ⟨s, reached, t, deleted, delete_user_incomplete s reached Sample.ann t deleted⟩

open Sample in
/-- The record of a deleted user is an error to read, where the user should not be found. -/
theorem deleted_user_malformed : ∃ s : AccountState,
    Reached accounts (fun _ _ => True) s ∧ ∃ t, run (deleteUser Sample.ann) s.store = (.ok (), t) ∧
      ¬ DeletionComplete s Sample.ann t := by
  have ran : ((exec accounts ⟨Storage.empty .inMemory, [], []⟩ Sample.loggedIn).map
      (fun s => ((run (deleteUser Sample.ann) s.store).1.toOption,
        (run (getUserById Sample.ann) (run (deleteUser Sample.ann) s.store).2).1))) =
      some (some (), .error (.malformed "field name missing")) := by
    decide +kernel
  obtain ⟨s, done, shows⟩ := Option.map_eq_some_iff.mp ran
  rcases deleted : run (deleteUser Sample.ann) s.store with ⟨e | _, t⟩
  · simp [deleted, Except.toOption] at shows
  · refine ⟨s, reached_of_exec Sample.loggedIn ⟨⟨.inMemory, rfl⟩, rfl, rfl⟩ done, t, deleted, ?_⟩
    intro complete
    have gone := complete.gone
    simp only [deleted, Prod.mk.injEq] at shows
    rw [shows.2] at gone
    cases gone

end WireMirage
