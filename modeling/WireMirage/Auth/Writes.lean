import WireMirage.Store.Commands
import WireMirage.Auth.Operations

/-!
What the operations on accounts may write, the creation of a user's record apart:
keys of users and tokens, no id of a user, and no loss of a session epoch.
-/
namespace WireMirage
open Prog

def AdminKey.account : AdminKey → Bool
  | .user _ => true
  | .userByEmail _ => true
  | .userByName _ => true
  | .userByIdentity _ _ => true
  | .userAll => true
  | .token _ => true
  | .tokenByHash _ => true
  | .tokenByName _ _ => true
  | .tokenByOwner _ => true
  | _ => false

/-- The commands that change no id of a user and clear no session epoch. -/
def SparesUsers : Command AdminKey AdminVal → Prop
  | .setField (.user _) f _ => f ≠ "id"
  | .dropField (.user _) f => f ≠ "session_epoch"
  | .erase (.user _) => False
  | .arm (.user _) _ => False
  | _ => True

/-- The commands a deletion consists of. -/
def DeletesAccount : Command AdminKey AdminVal → Prop
  | .erase (.tokenByHash _) => True
  | .erase (.tokenByName _ _) => True
  | .erase (.userByEmail _) => True
  | .erase (.userByName _) => True
  | .dropMember (.tokenByOwner _) _ => True
  | .dropMember .userAll _ => True
  | .dropField (.token _) _ => True
  | .dropField (.user _) f => f ∈ deletedUserFields
  | _ => False

/-- Those of them that a token goes with. -/
def DeletesToken : Command AdminKey AdminVal → Prop
  | .erase (.tokenByHash _) => True
  | .erase (.tokenByName _ _) => True
  | .dropMember (.tokenByOwner _) _ => True
  | .dropField (.token _) _ => True
  | _ => False

theorem deletes_token (c : Command AdminKey AdminVal) (deletes : DeletesToken c) :
    DeletesAccount c := by
  cases c with
  | dropField k f => cases k <;> first | exact deletes.elim | trivial
  | erase k => cases k <;> first | exact deletes.elim | trivial
  | dropMember k x => cases k <;> first | exact deletes.elim | trivial
  | _ => exact deletes.elim

theorem deletes_spares (c : Command AdminKey AdminVal) (deletes : DeletesAccount c) :
    c.key.account ∧ SparesUsers c := by
  cases c with
  | dropField k f =>
    cases k with
    | user u =>
      refine ⟨rfl, ?_⟩
      rintro rfl
      simp [DeletesAccount, deletedUserFields] at deletes
    | token id => exact ⟨rfl, trivial⟩
    | _ => exact deletes.elim
  | erase k => cases k <;> first | exact deletes.elim | exact ⟨rfl, trivial⟩
  | dropMember k x => cases k <;> first | exact deletes.elim | exact ⟨rfl, trivial⟩
  | _ => exact deletes.elim

section Writes
variable {ok : Command AdminKey AdminVal → Prop}
  (writes : ∀ c : Command AdminKey AdminVal, c.key.account → SparesUsers c → ok c)

theorem acts_readUserById (id : String) : Acts ok (readUserById id) := by
  apply acts_bind _ _ (acts_hashGetAll rfl)
  intro fields
  split
  · trivial
  · exact acts_bind _ _ (acts_ofExcept _) (fun _ => trivial)

theorem acts_readTokenById (id : String) : Acts ok (readTokenById id) := by
  apply acts_bind _ _ (acts_hashGetAll rfl)
  intro fields
  split
  · trivial
  · exact acts_bind _ _ (acts_ofExcept _) (fun _ => trivial)

theorem acts_indexedId (what : String) (v : AdminVal) : Acts ok (indexedId what v) := by
  unfold indexedId
  cases v.utf8 <;> trivial

theorem acts_getUserById (id : String) : Acts ok (getUserById id) := by
  apply acts_bind _ _ (acts_readUserById id)
  rintro (_ | user) <;> trivial

theorem acts_getTokenByName (ownerId name : String) : Acts ok (getTokenByName ownerId name) := by
  apply acts_bind _ _ (acts_get rfl)
  rintro (_ | v)
  · trivial
  · exact acts_bind _ _ (acts_indexedId _ v) acts_readTokenById

theorem acts_deleteToken (token : Token) : Acts DeletesToken (deleteToken token) :=
  acts_bind _ _ (acts_delete trivial) fun _ => acts_bind _ _ (acts_delete trivial) fun _ =>
    acts_bind _ _ (acts_setRemove rfl trivial) fun _ =>
    acts_forEach _ _ (fun _ _ => acts_hashDelete rfl trivial)

theorem acts_deleteTokenIfRead (id : String) : Acts DeletesToken (deleteTokenIfRead id) := by
  apply acts_bind _ _ (acts_readTokenById id)
  rintro (_ | token)
  · trivial
  · exact acts_deleteToken token

theorem acts_forgetUser (user : User) : Acts DeletesAccount (forgetUser user) :=
  acts_bind _ _ (acts_setMembers rfl) fun _ =>
    acts_bind _ _ (acts_forEach _ _ (fun id _ =>
      acts_mono deletes_token _ (acts_deleteTokenIfRead id))) fun _ =>
    acts_bind _ _ (acts_delete trivial) fun _ => acts_bind _ _ (acts_delete trivial) fun _ =>
    acts_setRemove rfl trivial

theorem acts_deleteUser (id : String) : Acts DeletesAccount (deleteUser id) :=
  acts_bind _ _ (acts_getUserById id) fun user => acts_bind _ _ (acts_forgetUser user) fun _ =>
    acts_forEach _ _ (fun _ member => acts_hashDelete rfl member)

/-- The index entry of an email is all that looking for its account may write. -/
theorem acts_scanFor {email : String}
    (index : ∀ c : Command AdminKey AdminVal, c.key = .userByEmail email → ok c)
    (ids : List String) : Acts ok (scanUsers email ids) := by
  induction ids with
  | nil => trivial
  | cons id rest ih =>
    apply acts_bind _ _ (acts_readUserById id)
    rintro (_ | user)
    · exact ih
    · show Acts ok (if user.email = email then _ else _)
      split
      · by_cases address : email.toList.contains '@'
        · rw [if_pos address]
          exact acts_bind _ _ (acts_set rfl (index _ rfl)) (fun _ => trivial)
        · rw [if_neg address]
          trivial
      · exact ih

theorem acts_lookFor {email : String}
    (index : ∀ c : Command AdminKey AdminVal, c.key = .userByEmail email → ok c) :
    Acts ok (findUserByEmail email) := by
  have all : Acts ok (scanAllUsers email) :=
    acts_bind _ _ (acts_setMembers rfl) (acts_scanFor index)
  have stale : Acts ok (Bucket.delete (.userByEmail email) >>= fun _ => scanAllUsers email) :=
    acts_bind _ _ (acts_delete (index _ rfl)) (fun _ => all)
  apply acts_bind _ _ (acts_get rfl)
  rintro (_ | v)
  · exact all
  · apply acts_bind _ _ (acts_indexedId _ v)
    intro id
    apply acts_bind _ _ (acts_readUserById id)
    rintro (_ | user)
    · exact stale
    · show Acts ok (if user.email = email then _ else _)
      split
      · trivial
      · exact stale

/-- Authentication writes when a token was last used. -/
theorem acts_authenticates [Digest]
    (uses : ∀ id v, ok (Command.setField (.token id) "last_used_at" v)) (plaintext : String)
    (now : Time) : Acts ok (authenticate plaintext now) := by
  have user : ∀ uid kid, Acts ok (authenticatedUser uid kid) := by
    intro uid kid
    apply acts_bind _ _ (acts_readUserById uid)
    rintro (_ | user) <;> trivial
  unfold authenticate
  split
  · apply acts_bind _ _ (acts_get rfl)
    rintro (_ | v)
    · trivial
    · apply acts_bind _ _ (acts_indexedId _ v)
      intro id
      apply acts_bind _ _ (acts_readTokenById id)
      rintro (_ | token)
      · trivial
      · show Acts ok (if _ then _ else _)
        split
        · trivial
        · apply acts_bind _ _ (user _ _)
          rintro (_ | context)
          · trivial
          · exact acts_bind _ _ (acts_attempt _ (acts_hashSet rfl (uses _ _))) (fun _ => trivial)
  · split
    · apply acts_bind _ _ (acts_attempt _ (acts_mapError _ _ ?_))
      · rintro (e | (_ | access))
        · cases e <;> trivial
        · trivial
        · show Acts ok (if _ then _ else _)
          split
          · trivial
          · exact user _ _
      · apply acts_bind _ _ (acts_hashGet rfl "data")
        rintro (_ | v)
        · trivial
        · cases v <;> trivial
    · trivial

include writes

theorem acts_findUserByEmail (email : String) : Acts ok (findUserByEmail email) := by
  apply acts_lookFor
  intro c same
  refine writes c (by rw [same]; rfl) ?_
  cases c <;> cases same <;> trivial

theorem acts_claimEmail (user : User) : Acts ok (claimEmail user) := by
  apply acts_bind _ _ (acts_setIfAbsent rfl (writes _ rfl trivial))
  intro claimed
  split
  · trivial
  · exact acts_bind _ _ (acts_setAdd rfl (writes _ rfl trivial)) (fun _ => trivial)

theorem acts_syncAdmin (user : User) (isAdmin : Bool) : Acts ok (syncAdmin user isAdmin) := by
  unfold syncAdmin
  split
  · exact acts_bind _ _ (acts_hashSet rfl (writes _ rfl (by decide : "is_admin" ≠ "id")))
      (fun _ => trivial)
  · trivial

theorem acts_backfillEmail (user : User) (email : String) :
    Acts ok (backfillEmail user email) := by
  apply acts_bind _ _ (acts_hashGetAll rfl)
  intro fields
  split
  · apply acts_bind _ _ (acts_findUserByEmail writes email)
    rintro (_ | found)
    · exact acts_bind _ _ (acts_hashSet rfl (writes _ rfl (by decide : "primary_email" ≠ "id")))
        fun _ => acts_bind _ _ (acts_set rfl (writes _ rfl trivial)) (fun _ => trivial)
    · trivial
  · exact acts_bind _ _ (acts_set rfl (writes _ rfl trivial)) (fun _ => trivial)

theorem acts_setUserAdmin (id : String) (isAdmin : Bool) : Acts ok (setUserAdmin id isAdmin) :=
  acts_bind _ _ (acts_getUserById id) fun _ =>
    acts_bind _ _ (acts_hashSet rfl (writes _ rfl (by decide : "is_admin" ≠ "id")))
      (fun _ => trivial)

theorem acts_bumpSessionEpoch (id : String) : Acts ok (bumpSessionEpoch id) :=
  acts_bind _ _ (acts_getUserById id) fun _ =>
    acts_bind _ _ (acts_hashIncr rfl (fun _ => writes _ rfl (by decide : "session_epoch" ≠ "id")))
      (fun _ => trivial)

theorem acts_deletes {A : Type} {p : AuthProg A} (acts : Acts DeletesAccount p) : Acts ok p := by
  apply acts_mono _ p acts
  intro c deletes
  obtain ⟨account, spares⟩ := deletes_spares c deletes
  exact writes c account spares

theorem acts_writeNewToken [Digest] [DateText] (ownerId name plaintext : String) (ttl : Option Nat)
    (id : String) (now : Time) : Acts ok (writeNewToken ownerId name plaintext ttl id now) := by
  have field : ∀ tid f v, Acts ok (Bucket.hashSet (.token tid) f v : AuthProg Unit) :=
    fun tid f v => acts_hashSet rfl (writes _ rfl trivial)
  have fields : ∀ token, Acts ok (writeTokenFields token) := by
    intro token
    refine acts_bind _ _ (field _ _ _) fun _ => acts_bind _ _ (field _ _ _) fun _ =>
      acts_bind _ _ (field _ _ _) fun _ => acts_bind _ _ (field _ _ _) fun _ =>
      acts_bind _ _ (field _ _ _) fun _ => ?_
    have last := field token.id "scopes" (.scopes token.scopes)
    cases token.expiresAt with
    | none => exact last
    | some ts => exact acts_bind _ _ (field _ _ _) (fun _ => last)
  exact acts_bind _ _ (fields _) fun _ => acts_bind _ _
    (acts_set rfl (writes _ rfl trivial)) fun _ =>
    acts_bind _ _ (acts_set rfl (writes _ rfl trivial)) fun _ =>
    acts_bind _ _ (acts_setAdd rfl (writes _ rfl trivial)) (fun _ => trivial)

theorem acts_createToken [Digest] [DateText] (ownerId name plaintext : String) (ttl : Option Nat)
    (id : String) (now : Time) : Acts ok (createToken ownerId name plaintext ttl id now) := by
  apply acts_bind _ _ (acts_readUserById ownerId)
  rintro (_ | user)
  · trivial
  · apply acts_bind _ _ (acts_get rfl)
    rintro (_ | v)
    · exact acts_bind _ _ (acts_writeNewToken writes _ _ _ _ _ _) (fun _ => trivial)
    · trivial

theorem acts_renameToken (ownerId oldName newName : String) :
    Acts ok (renameToken ownerId oldName newName) := by
  unfold renameToken
  split
  · apply acts_bind _ _ (acts_getTokenByName _ _)
    rintro (_ | token) <;> trivial
  · apply acts_bind _ _ (acts_get rfl)
    rintro (_ | v)
    · apply acts_bind _ _ (acts_getTokenByName _ _)
      rintro (_ | token)
      · trivial
      · exact acts_bind _ _ (acts_set rfl (writes _ rfl trivial)) fun _ =>
          acts_bind _ _ (acts_hashSet rfl (writes _ rfl trivial)) fun _ =>
          acts_bind _ _ (acts_delete (writes _ rfl trivial)) (fun _ => trivial)
    · trivial

theorem acts_revokeTokenByName (ownerId name : String) :
    Acts ok (revokeTokenByName ownerId name) := by
  apply acts_bind _ _ (acts_getTokenByName _ _)
  rintro (_ | token)
  · trivial
  · exact acts_bind _ _ (acts_deletes writes (acts_mono deletes_token _ (acts_deleteToken token)))
      (fun _ => trivial)

theorem acts_adoptBootstrap (email : String) : Acts ok (adoptBootstrap email) := by
  apply acts_bind _ _ (acts_get rfl)
  rintro (_ | v)
  · trivial
  · apply acts_bind _ _ (acts_indexedId _ v)
    intro id
    apply acts_bind _ _ (acts_readUserById id)
    rintro (_ | user)
    · trivial
    · apply acts_bind _ _ (acts_hashGetAll rfl)
      intro fields
      split
      · exact acts_bind _ _ (acts_hashSet rfl (writes _ rfl (by decide : "primary_email" ≠ "id")))
          fun _ => acts_bind _ _ (acts_set rfl (writes _ rfl trivial)) fun _ =>
          acts_bind _ _ (acts_delete (writes _ rfl trivial)) (fun _ => trivial)
      · trivial

theorem acts_authenticate [Digest] (plaintext : String) (now : Time) :
    Acts ok (authenticate plaintext now) :=
  acts_authenticates (fun _ _ => writes _ rfl trivial) plaintext now

end Writes

/-! All that is written is under the keys of accounts -/

section Keys
variable {ok : Command AdminKey AdminVal → Prop}
  (all : ∀ c : Command AdminKey AdminVal, c.key.account → ok c)
include all

theorem acts_writeUserFields (user : User) : Acts ok (writeUserFields user) := by
  have field : ∀ f v, Acts ok (Bucket.hashSet (.user user.id) f v : AuthProg Unit) :=
    fun f v => acts_hashSet rfl (all _ rfl)
  exact acts_bind _ _ (field _ _) fun _ => acts_bind _ _ (field _ _) fun _ =>
    acts_bind _ _ (field _ _) fun _ => acts_bind _ _ (field _ _) fun _ => field _ _

theorem acts_writeNewUser (email : String) (isAdmin : Bool) (id : String) (now : Time) :
    Acts ok (writeNewUser email isAdmin id now) := by
  apply acts_bind _ _ (acts_findUserByEmail (fun c account _ => all c account) email)
  rintro (_ | user)
  · exact acts_bind _ _ (acts_writeUserFields all _)
      (fun _ => acts_claimEmail (fun c account _ => all c account) _)
  · trivial

theorem acts_indexIdentity (provider subject id : String) (user : User) :
    Acts ok (Bucket.set (.userByIdentity provider subject) (.text id) >>= fun _ =>
      (pure user : AuthProg User)) :=
  acts_bind _ _ (acts_set rfl (all _ rfl)) (fun _ => trivial)

theorem acts_firstSeenIdentity (provider subject email : String) (isAdmin : Bool) (id : String)
    (now : Time) : Acts ok (firstSeenIdentity provider subject email isAdmin id now) := by
  apply acts_bind _ _ (acts_findUserByEmail (fun c account _ => all c account) email)
  rintro (_ | user)
  · exact acts_bind _ _ (acts_writeNewUser all email isAdmin id now)
      (fun user => acts_indexIdentity all _ _ _ user)
  · exact acts_bind _ _ (acts_set rfl (all _ rfl))
      (fun _ => acts_syncAdmin (fun c account _ => all c account) user isAdmin)

theorem acts_upsertOauthUser (provider subject email : String) (isAdmin : Bool) (id : String)
    (now : Time) : Acts ok (upsertOauthUser provider subject email isAdmin id now) := by
  apply acts_bind _ _ (acts_get rfl)
  rintro (_ | v)
  · exact acts_firstSeenIdentity all _ _ _ _ _ _
  · apply acts_bind _ _ (acts_indexedId _ v)
    intro linked
    apply acts_bind _ _ (acts_readUserById linked)
    rintro (_ | user)
    · exact acts_bind _ _ (acts_delete (all _ rfl))
        (fun _ => acts_firstSeenIdentity all _ _ _ _ _ _)
    · exact acts_bind _ _ (acts_syncAdmin (fun c account _ => all c account) user isAdmin)
        (fun user => acts_backfillEmail (fun c account _ => all c account) user _)

theorem acts_upsertLocalUser (email : String) (isAdmin : Bool) (id : String) (now : Time) :
    Acts ok (upsertLocalUser email isAdmin id now) := by
  apply acts_bind _ _ (acts_findUserByEmail (fun c account _ => all c account) _)
  rintro (_ | user)
  · exact acts_bind _ _ (acts_writeNewUser all _ isAdmin id now)
      (fun user => acts_indexIdentity all _ _ _ user)
  · exact acts_bind _ _ (acts_syncAdmin (fun c account _ => all c account) user isAdmin)
      (fun user => acts_indexIdentity all _ _ _ user)

theorem acts_bootstrapAdmin [Digest] [DateText] (email plaintext id tokenId : String) (now : Time) :
    Acts ok (bootstrapAdmin email plaintext id tokenId now) := by
  apply acts_bind _ _ (acts_findUserByEmail (fun c account _ => all c account) _)
  rintro (_ | user)
  · apply acts_bind _ _ (acts_adoptBootstrap (fun c account _ => all c account) _)
    rintro (_ | _)
    · apply acts_bind _ _ (acts_attempt _ (acts_writeNewUser all _ true id now))
      rintro (e | user)
      · cases e <;> trivial
      · exact acts_bind _ _ (acts_writeNewToken (fun c account _ => all c account) _ _ _ _ _ _)
          (fun _ => trivial)
    · trivial
  · trivial

end Keys

end WireMirage
