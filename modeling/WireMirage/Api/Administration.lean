import WireMirage.Api.Users
import WireMirage.Auth.SignUps
import WireMirage.OAuth.Specs

/-!
Requests that demote and delete accounts, one storage step at a time. Each counts the
admins before it writes.
-/
namespace WireMirage
open Prog

/-! Requests -/

inductive AdminRequest where
  | patchUser (selector : String) (isAdmin : Option Bool)
  | deleteUser (selector : String) (owned : Except UsersError Nat)

/-- A request with what it presents. -/
structure Administration where
  sessions : Option Nat
  credentials : Credentials
  now : Time
  request : AdminRequest

/-- What a request is about to write. -/
inductive AdminChange where
  | flag (user : User) (isAdmin : Bool)
  | leave (user : User)

section Programs
variable [Digest] [Signing]

def Administration.program (r : Administration) : Users Unit := do
  let auth ← fromRequestParts r.sessions r.credentials r.now
  match r.request with
  | .patchUser selector isAdmin =>
    let _ ← patchUser auth selector isAdmin
    return ()
  | .deleteUser selector owned => deleteUserRequest auth selector owned

end Programs

def preparePatch (auth : AuthContext) (selector : String) (isAdmin : Option Bool) :
    Users AdminChange := do
  Prog.ofExcept (requireAdmin auth)
  let user ← selectedUser selector
  match isAdmin with
  | none => Prog.fail (.validation
      "PATCH body must include `is_admin` (the only mutable field today)")
  | some targetAdmin => do
    if ¬ targetAdmin then
      sparesLastAdmin user "cannot demote the last admin; promote another user first"
    let user ← viaAuth (getUserById user.id)
    return .flag user targetAdmin

/-- The tokens and the index entries of the account go first. -/
def prepareDelete (auth : AuthContext) (selector : String) (owned : Except UsersError Nat) :
    Users AdminChange := do
  Prog.ofExcept (requireAdmin auth)
  let user ← selectedUser selector
  if user.id = auth.userId then
    Prog.fail (.forbidden "an admin cannot delete themselves; ask another admin")
  else do
    sparesLastAdmin user "cannot delete the last admin; promote another user first"
    match owned with
    | .error e => Prog.fail e
    | .ok owned =>
      if owned ≠ 0 then Prog.fail (.ownsRoutes owned)
      else do
        let user ← viaAuth (getUserById user.id)
        let tokenIds ← viaAuth (Bucket.setMembers (.tokenByOwner user.id))
        viaAuth (Prog.forEach tokenIds deleteTokenIfRead)
        viaAuth (Bucket.delete (.userByEmail user.email))
        viaAuth (Bucket.delete (.userByName user.email))
        return .leave user

def clearUser (user : User) : Users Unit :=
  viaAuth (Prog.forEach deletedUserFields (fun f => Bucket.hashDelete (.user user.id) f))

def AdminChange.write : AdminChange → Users Unit
  | flag user isAdmin => viaAuth (Bucket.hashSet (.user user.id) "is_admin" (.flag isAdmin))
  | leave user => do
    viaAuth (Bucket.setRemove .userAll user.id)
    clearUser user

def AdminRequest.prepare (auth : AuthContext) : AdminRequest → Users AdminChange
  | patchUser selector isAdmin => preparePatch auth selector isAdmin
  | deleteUser selector owned => prepareDelete auth selector owned

def Administration.prepare [Digest] [Signing] (r : Administration) : Users AdminChange := do
  let auth ← fromRequestParts r.sessions r.credentials r.now
  r.request.prepare auth

/-- How far a request has come. -/
inductive AdminTask where
  | preparing (effect : AdminStore → AdminStore) (next : AdminStore → Users AdminChange)
  | flagging (user : User) (isAdmin : Bool)
  | leaving (user : User)
  | clearing (rest : Users Unit)
  | finished

namespace AdminTask

def prepared : Users AdminChange → AdminTask
  | .done (.flag user isAdmin) => .flagging user isAdmin
  | .done (.leave user) => .leaving user
  | .fail _ => .finished
  | .act effect next => .preparing effect next

def code : AdminTask → Users Unit
  | preparing effect next => .act effect (fun s => settle (next s >>= AdminChange.write))
  | flagging user isAdmin => settle (AdminChange.flag user isAdmin).write
  | leaving user => settle (AdminChange.leave user).write
  | clearing rest => rest
  | finished => .done ()

def step : AdminTask → AdminStore → Option (AdminTask × AdminStore)
  | preparing effect next, s => some (prepared (next s), effect s)
  | flagging user isAdmin, s =>
    some (.finished, (Storage.hashSet (.user user.id) "is_admin" (AdminVal.flag isAdmin) s).2)
  | leaving user, s =>
    match Storage.setRemove .userAll user.id s with
    | (.ok _, t) => some (.clearing (settle (clearUser user)), t)
    | (.error _, t) => some (.finished, t)
  | clearing rest, s => (Prog.step rest s).map (fun b => (.clearing b.1, b.2))
  | finished, _ => none

end AdminTask

section Agreement

theorem prepared_code (p : Users AdminChange) :
    (AdminTask.prepared p).code = settle (p >>= AdminChange.write) := by
  cases p with
  | done change => cases change <;> rfl
  | fail e => rfl
  | act effect next => rfl

/-- The positions follow the programs step by step. -/
theorem admin_agree (t : AdminTask) (s : AdminStore) :
    Prog.step t.code s = (t.step s).map (fun b => (b.1.code, b.2)) := by
  cases t with
  | preparing effect next =>
    simp only [AdminTask.step, Option.map_some, prepared_code]
    rfl
  | flagging user isAdmin =>
    have ran : (run (AdminChange.flag user isAdmin).write s).2 =
        (Storage.hashSet (.user user.id) "is_admin" (AdminVal.flag isAdmin) s).2 := by
      simp [AdminChange.write, viaAuth, Bucket.hashSet]
    have one : Single (AdminChange.flag user isAdmin).write := single_mapError _ (single_atomic _)
    exact (step_settle one s).trans (by rw [ran]; rfl)
  | leaving user =>
    have one : Single (viaAuth (Bucket.setRemove .userAll user.id)) :=
      single_mapError _ (single_atomic _)
    have ran : run (viaAuth (Bucket.setRemove .userAll user.id)) s =
        (((Storage.setRemove .userAll user.id s).1.mapError FromStoreError.wrap).mapError .auth,
          (Storage.setRemove .userAll user.id s).2) := by
      simp [viaAuth, Bucket.setRemove]
    rcases removed : Storage.setRemove .userAll user.id s with ⟨e | _, t⟩
    · rw [removed] at ran
      simp only [AdminTask.step, removed]
      exact step_settle_error one (fun _ => clearUser user) ran
    · rw [removed] at ran
      simp only [AdminTask.step, removed]
      exact step_settle_ok one (fun _ => clearUser user) ran
  | clearing rest =>
    show Prog.step rest s = _
    simp only [AdminTask.step]
    cases Prog.step rest s <;> rfl
  | finished => rfl

theorem settle_flag (id : String) (isAdmin : Bool) :
    settle (viaAuth (setUserAdmin id isAdmin)) =
      settle ((viaAuth (getUserById id) >>= fun user =>
        pure (AdminChange.flag user isAdmin)) >>= AdminChange.write) := by
  rw [bind_assoc, viaAuth, setUserAdmin, mapError_bind]
  refine settle_bind _ (fun user => ?_)
  rw [mapError_bind]
  exact settle_bind_pure _ _

theorem settle_patchUser (auth : AuthContext) (selector : String) (isAdmin : Option Bool) :
    settle (patchUser auth selector isAdmin) =
      settle (preparePatch auth selector isAdmin >>= AdminChange.write) := by
  unfold patchUser preparePatch
  rw [bind_assoc]
  refine settle_bind _ (fun _ => ?_)
  rw [bind_assoc]
  refine settle_bind _ (fun user => ?_)
  cases isAdmin with
  | none => rfl
  | some targetAdmin =>
    cases targetAdmin with
    | true => exact settle_flag user.id true
    | false =>
      show settle (sparesLastAdmin user _ >>= fun _ => viaAuth (setUserAdmin user.id false)) =
        settle ((sparesLastAdmin user _ >>= _) >>= _)
      rw [bind_assoc]
      exact settle_bind _ (fun _ => settle_flag user.id false)

theorem delete_prepared (auth : AuthContext) (selector : String) (owned : Except UsersError Nat) :
    deleteUserRequest auth selector owned =
      prepareDelete auth selector owned >>= AdminChange.write := by
  unfold deleteUserRequest prepareDelete
  rw [bind_assoc]
  congr 1
  funext _
  rw [bind_assoc]
  congr 1
  funext user
  split
  · rfl
  · rw [bind_assoc]
    congr 1
    funext _
    cases owned with
    | error e => rfl
    | ok owned =>
      show (if owned ≠ 0 then _ else _) = (if owned ≠ 0 then _ else _) >>= _
      split
      · rfl
      · simp only [viaAuth, deleteUser, forgetUser, mapError_bind, bind_assoc]
        rfl

/-- A request is what it prepares, and the write of that. -/
theorem settle_administration [Digest] [Signing] (r : Administration) :
    settle r.program = settle (r.prepare >>= AdminChange.write) := by
  unfold Administration.program Administration.prepare
  rw [bind_assoc]
  refine settle_bind _ (fun auth => ?_)
  cases r.request with
  | patchUser selector isAdmin =>
    exact (settle_bind_pure _ (fun _ => ())).trans (settle_patchUser auth selector isAdmin)
  | deleteUser selector owned =>
    exact congrArg settle (delete_prepared auth selector owned)

end Agreement

/-! Admins -/

def readsAdmin (s : AdminStore) (id : String) : Bool :=
  match userAnswer s id with
  | .ok (some user) => user.isAdmin
  | _ => false

def adminIds (s : AdminStore) : List String := (s.setAt .userAll).filter (readsAdmin s)

def HasAdmin (s : AdminStore) : Prop := ∃ id, id ∈ adminIds s

/-- What the guard of a request refuses. -/
def lastAdmin (s : AdminStore) (id : String) : Bool :=
  id ∈ adminIds s ∧ (adminIds s).length ≤ 1

theorem readUsers_admins {s : AdminStore} (wk : s.WellKinded) (ids : List String)
    {users : List User} (read : (run (readUsers ids) s).1 = .ok users) :
    (users.filter User.isAdmin).length = (ids.filter (readsAdmin s)).length := by
  induction ids generalizing users with
  | nil =>
    cases read
    rfl
  | cons id rest ih =>
    simp only [readUsers, run_bind, run_readUserById wk] at read
    cases answer : userAnswer s id with
    | error e =>
      rw [answer] at read
      cases read
    | ok found =>
      rw [answer, andThen_ok, run_bind] at read
      cases later : (run (readUsers rest) s).1 with
      | error e =>
        rw [← Prod.eta (run (readUsers rest) s), later] at read
        cases read
      | ok others =>
        rw [← Prod.eta (run (readUsers rest) s), later] at read
        cases read
        rw [List.filter_append, List.length_append, ih later, List.filter_cons]
        cases found with
        | none => simp [readsAdmin, answer]
        | some user =>
          cases admin : user.isAdmin <;> simp [readsAdmin, answer, admin]
          omega

/-- The guard counts these. -/
theorem countAdmins_adminIds {s : AdminStore} (wk : s.WellKinded) {n : Nat}
    (counted : (run countAdmins s).1 = .ok n) : n = (adminIds s).length := by
  unfold countAdmins listUsers at counted
  rw [run_bind, run_bind, run_setMembers wk rfl, andThen_ok] at counted
  cases read : (run (readUsers (s.setAt .userAll)) s).1 with
  | error e =>
    rw [← Prod.eta (run (readUsers (s.setAt .userAll)) s), read] at counted
    cases counted
  | ok users =>
    rw [← Prod.eta (run (readUsers (s.setAt .userAll)) s), read] at counted
    cases counted
    exact readUsers_admins wk _ read

/-! What the writes do to the admins -/

/-- A key that says nothing about who is an admin. -/
def AdminKey.aside : AdminKey → Bool
  | .user _ => false
  | .userAll => false
  | _ => true

section Writes
variable {s t : AdminStore}

theorem readsAdmin_of_hash {id : String} (same : t.hashAt (.user id) = s.hashAt (.user id)) :
    readsAdmin t id = readsAdmin s id := by
  rw [readsAdmin, readsAdmin, userAnswer, userAnswer, same]

theorem adminIds_of_entries (same : ∀ k : AdminKey, k.aside = false → t.entry k = s.entry k) :
    adminIds t = adminIds s ∧ t.setAt .userAll = s.setAt .userAll := by
  have all : t.setAt .userAll = s.setAt .userAll := Storage.setAt_of_entry (same .userAll rfl)
  refine ⟨?_, all⟩
  unfold adminIds
  rw [all]
  apply List.filter_congr
  intro id _
  exact readsAdmin_of_hash (Storage.hashAt_of_entry (same (.user id) rfl))

theorem readsAdmin_iff {id : String} : readsAdmin s id = true ↔
    ∃ user, decodeUser (s.hashAt (.user id)) = .ok user ∧ user.isAdmin = true := by
  unfold readsAdmin userAnswer
  constructor
  · intro reads
    by_cases empty : (s.hashAt (.user id)).entries.isEmpty = true
    · simp [empty] at reads
    · rw [if_neg empty] at reads
      cases decoded : decodeUser (s.hashAt (.user id)) with
      | error e => simp [decoded, Except.map] at reads
      | ok user => exact ⟨user, rfl, by simpa [decoded, Except.map] using reads⟩
  · rintro ⟨user, decoded, admin⟩
    have full : ¬ (s.hashAt (.user id)).entries.isEmpty = true := by
      intro empty
      have field := decode_user_id decoded
      rw [Storage.hash_eq_empty_of_isEmpty empty] at field
      simp at field
    rw [if_neg full, decoded]
    exact admin

theorem userText_flag (fields : Fields AdminVal) (isAdmin : Bool) :
    userText (fields.insert "is_admin" (AdminVal.flag isAdmin)) "is_admin" =
      .ok (if isAdmin then "1" else "0") := by
  cases isAdmin <;> simp [userText, AdminVal.flag, AdminVal.utf8]

/-- The flag that is written is the flag that is read. -/
theorem decodeUser_flag {fields : Fields AdminVal} {isAdmin : Bool} {user : User}
    (decoded : decodeUser (fields.insert "is_admin" (AdminVal.flag isAdmin)) = .ok user) :
    user.isAdmin = isAdmin := by
  simp only [decodeUser, ok_bind_iff, pure, Except.pure, Except.ok.injEq] at decoded
  obtain ⟨_, _, _, _, _, _, text, read, _, _, rfl⟩ := decoded
  rw [userText_flag] at read
  cases read
  cases isAdmin <;> simp

/-- Writing the flag keeps a record readable. -/
theorem decodeUser_insert_flag {fields : Fields AdminVal} {user : User}
    (decoded : decodeUser fields = .ok user) (isAdmin : Bool) :
    ∃ u, decodeUser (fields.insert "is_admin" (AdminVal.flag isAdmin)) = .ok u := by
  simp only [decodeUser, ok_bind_iff, pure, Except.pure] at *
  obtain ⟨email, email', epoch, epoch', id, id', _, _, ts, time, _⟩ := decoded
  have others : ∀ f, f ≠ "is_admin" →
      (fields.insert "is_admin" (AdminVal.flag isAdmin)).lookup f = fields.lookup f :=
    fun f other => AList.lookup_insert_ne other
  refine ⟨_, email, ?_, epoch, ?_, id, ?_, _, userText_flag fields isAdmin, ts, ?_, rfl⟩
  · simpa only [decodeEmail, userText, others _ (by decide : "primary_email" ≠ "is_admin"),
      others _ (by decide : "name" ≠ "is_admin")] using email'
  · simpa only [decodeSessionEpoch,
      others _ (by decide : "session_epoch" ≠ "is_admin")] using epoch'
  · simpa only [userText, others _ (by decide : "id" ≠ "is_admin")] using id'
  · simpa only [requiredUserTs, others _ (by decide : "created_at" ≠ "is_admin")] using time

theorem mem_adminIds {id : String} :
    id ∈ adminIds s ↔ id ∈ s.setAt .userAll ∧ readsAdmin s id = true := by
  simp [adminIds]

/-- The store once the flag of an account is written. -/
def flagged (s : AdminStore) (id : String) (isAdmin : Bool) : AdminStore :=
  s.putHash (.user id) ((s.hashAt (.user id)).insert "is_admin" (AdminVal.flag isAdmin))

theorem readsAdmin_flagged_ne {id x : String} (other : x ≠ id) (isAdmin : Bool) :
    readsAdmin (flagged s id isAdmin) x = readsAdmin s x := by
  apply readsAdmin_of_hash
  simp [flagged, other]

theorem readsAdmin_flagged_self {id : String} {isAdmin : Bool}
    (reads : readsAdmin (flagged s id isAdmin) id = true) : isAdmin = true := by
  obtain ⟨user, decoded, admin⟩ := readsAdmin_iff.mp reads
  rw [flagged, Storage.hashAt_putHash, if_pos rfl] at decoded
  rw [← decodeUser_flag decoded]
  exact admin

theorem readsAdmin_promoted {id : String} (before : readsAdmin s id = true) :
    readsAdmin (flagged s id true) id = true := by
  obtain ⟨user, decoded, _⟩ := readsAdmin_iff.mp before
  obtain ⟨u, after⟩ := decodeUser_insert_flag decoded true
  refine readsAdmin_iff.mpr ⟨u, ?_, decodeUser_flag after⟩
  rw [flagged, Storage.hashAt_putHash, if_pos rfl]
  exact after

theorem setAt_flagged (id : String) (isAdmin : Bool) :
    (flagged s id isAdmin).setAt .userAll = s.setAt .userAll := by
  simp [flagged]

theorem readsAdmin_dropMember (id x : String) :
    readsAdmin (s.dropMember .userAll id) x = readsAdmin s x := by
  apply readsAdmin_of_hash
  simp

theorem adminIds_of_last {id : String} (last : lastAdmin s id = true) : adminIds s = [id] := by
  simp only [lastAdmin, decide_eq_true_eq] at last
  obtain ⟨member, few⟩ := last
  match listed : adminIds s with
  | [] => simp [listed] at member
  | [x] =>
    rw [listed, List.mem_singleton] at member
    rw [member]
  | x :: y :: rest =>
    rw [listed] at few
    simp at few

theorem other_admin {id : String} (spared : lastAdmin s id = false) (has : HasAdmin s) :
    ∃ x ∈ adminIds s, x ≠ id := by
  obtain ⟨x, member⟩ := has
  by_cases same : x = id
  · subst same
    have more : 1 < (adminIds s).length := by simpa [lastAdmin, member] using spared
    match listed : adminIds s with
    | [] => simp [listed] at more
    | [y] => simp [listed] at more
    | y :: z :: rest =>
      have apart : (adminIds s).Nodup := (s.setAt_nodup .userAll).filter _
      rw [listed] at apart
      have distinct : y ≠ z := by
        rintro rfl
        simp at apart
      by_cases here : y = x
      · exact ⟨z, by simp, fun back => distinct (here.trans back.symm)⟩
      · exact ⟨y, by simp, here⟩
  · exact ⟨x, member, same⟩

theorem hasAdmin_promoted (has : HasAdmin s) (id : String) : HasAdmin (flagged s id true) := by
  obtain ⟨x, member⟩ := has
  obtain ⟨listed, reads⟩ := mem_adminIds.mp member
  refine ⟨x, mem_adminIds.mpr ⟨(setAt_flagged id true).symm ▸ listed, ?_⟩⟩
  by_cases same : x = id
  · subst same
    exact readsAdmin_promoted reads
  · rw [readsAdmin_flagged_ne same]
    exact reads

theorem hasAdmin_demoted {id : String} (spared : lastAdmin s id = false) (has : HasAdmin s) :
    HasAdmin (flagged s id false) := by
  obtain ⟨x, member, other⟩ := other_admin spared has
  obtain ⟨listed, reads⟩ := mem_adminIds.mp member
  refine ⟨x, mem_adminIds.mpr ⟨(setAt_flagged id false).symm ▸ listed, ?_⟩⟩
  rw [readsAdmin_flagged_ne other]
  exact reads

theorem no_admin_demoted {id : String} (last : lastAdmin s id = true) :
    ¬ HasAdmin (flagged s id false) := by
  rintro ⟨x, member⟩
  obtain ⟨listed, reads⟩ := mem_adminIds.mp member
  rw [setAt_flagged] at listed
  by_cases same : x = id
  · subst same
    cases readsAdmin_flagged_self reads
  · rw [readsAdmin_flagged_ne same] at reads
    have before : x ∈ adminIds s := mem_adminIds.mpr ⟨listed, reads⟩
    rw [adminIds_of_last last, List.mem_singleton] at before
    exact same before

theorem mem_adminIds_left {id x : String} :
    x ∈ adminIds (s.dropMember .userAll id) ↔ x ≠ id ∧ x ∈ adminIds s := by
  rw [mem_adminIds, mem_adminIds, readsAdmin_dropMember, Storage.setAt_dropMember, if_pos rfl,
    (s.setAt_nodup .userAll).mem_erase_iff, and_assoc]

theorem hasAdmin_left {id : String} (spared : lastAdmin s id = false) (has : HasAdmin s) :
    HasAdmin (s.dropMember .userAll id) := by
  obtain ⟨x, member, other⟩ := other_admin spared has
  exact ⟨x, mem_adminIds_left.mpr ⟨other, member⟩⟩

theorem no_admin_left {id : String} (last : lastAdmin s id = true) :
    ¬ HasAdmin (s.dropMember .userAll id) := by
  rintro ⟨x, member⟩
  obtain ⟨other, before⟩ := mem_adminIds_left.mp member
  rw [adminIds_of_last last, List.mem_singleton] at before
  exact other before

/-- Fields of an account that is no longer listed go without notice. -/
theorem adminIds_dropField {id : String} (gone : id ∉ s.setAt .userAll) (f : String) :
    adminIds (s.dropField (.user id) f) = adminIds s ∧
      (s.dropField (.user id) f).setAt .userAll = s.setAt .userAll := by
  have all : (s.dropField (.user id) f).setAt .userAll = s.setAt .userAll := by simp
  refine ⟨?_, all⟩
  unfold adminIds
  rw [all]
  apply List.filter_congr
  intro x listed
  apply readsAdmin_of_hash
  have other : x ≠ id := by
    rintro rfl
    exact gone listed
  simp [other]

end Writes

/-! What requests write before their last step -/

section Preparing

def Aside (c : Command AdminKey AdminVal) : Prop := c.key.aside = true

theorem aside_of_deletesToken (c : Command AdminKey AdminVal) (deletes : DeletesToken c) :
    Aside c := by
  cases c with
  | dropField k f => cases k <;> first | exact deletes.elim | rfl
  | erase k => cases k <;> first | exact deletes.elim | rfl
  | dropMember k x => cases k <;> first | exact deletes.elim | rfl
  | _ => exact deletes.elim

theorem acts_selectedUser (selector : String) : Acts Aside (selectedUser selector) := by
  refine acts_bind _ _ (acts_mapError _ _ (acts_lookFor ?_)) ?_
  · intro c same
    unfold Aside
    rw [same]
    rfl
  · rintro (_ | user) <;> trivial

theorem acts_preparePatch (auth : AuthContext) (selector : String) (isAdmin : Option Bool) :
    Acts Aside (preparePatch auth selector isAdmin) := by
  refine acts_bind _ _ (acts_ofExcept _) fun _ => ?_
  refine acts_bind _ _ (acts_selectedUser selector) fun user => ?_
  have flags : ∀ targetAdmin, Acts Aside (viaAuth (getUserById user.id) >>= fun user =>
      (pure (.flag user targetAdmin) : Users AdminChange)) := fun targetAdmin =>
    acts_bind _ _ (acts_mapError _ _ (acts_getUserById user.id)) fun _ => trivial
  cases isAdmin with
  | none => trivial
  | some targetAdmin =>
    cases targetAdmin with
    | true => exact flags true
    | false => exact acts_bind _ _ (acts_sparesLastAdmin user _) fun _ => flags false

theorem acts_prepareDelete (auth : AuthContext) (selector : String)
    (owned : Except UsersError Nat) : Acts Aside (prepareDelete auth selector owned) := by
  refine acts_bind _ _ (acts_ofExcept _) fun _ => ?_
  refine acts_bind _ _ (acts_selectedUser selector) fun user => ?_
  split
  · trivial
  · refine acts_bind _ _ (acts_sparesLastAdmin user _) fun _ => ?_
    cases owned with
    | error e => trivial
    | ok owned =>
      show Acts Aside (if owned ≠ 0 then _ else _)
      split
      · trivial
      · refine acts_bind _ _ (acts_mapError _ _ (acts_getUserById user.id)) fun user => ?_
        refine acts_bind _ _ (acts_mapError _ _ (acts_setMembers rfl)) fun tokenIds => ?_
        refine acts_bind _ _ (acts_mapError _ _ (acts_forEach _ _ fun id _ =>
          acts_mono aside_of_deletesToken _ (acts_deleteTokenIfRead id))) fun _ => ?_
        refine acts_bind _ _ (acts_mapError _ _ (acts_delete rfl)) fun _ => ?_
        exact acts_bind _ _ (acts_mapError _ _ (acts_delete rfl)) fun _ => trivial

section Extracting
variable [Digest] [Signing]

omit [Digest] in
theorem acts_sessionContext (ttlSeconds : Nat) (cookie : String) (now : Time) :
    Acts Aside (sessionContext ttlSeconds cookie now) := by
  have session : ∀ c : Command AdminKey AdminVal, c.key.isSession = true → Aside c := by
    intro c here
    unfold Aside
    cases at_ : c.key <;> rw [at_] at here <;> first | rfl | cases here
  refine acts_bind _ _ (acts_mapError _ _ (acts_mono session _ (acts_touch _ _ _))) fun held => ?_
  refine acts_bind _ _ (acts_mapError _ _ (acts_getUserById held.userId)) fun user => ?_
  split <;> trivial

theorem acts_identify (sessions : Option Nat) (credentials : Credentials) (now : Time) :
    Acts Aside (identify sessions credentials now) := by
  unfold identify
  split
  · rename_i header _
    refine acts_bind _ _ ?_ fun _ => trivial
    refine acts_bind _ _ (acts_ofExcept _) fun token => ?_
    refine acts_bind _ _ (acts_mapError _ _ (acts_authenticates (fun _ _ => rfl) token now)) ?_
    rintro (_ | context) <;> trivial
  · split
    · exact acts_bind _ _ (acts_sessionContext _ _ _) fun _ => trivial
    · trivial

theorem acts_prepare (r : Administration) : Acts Aside r.prepare := by
  refine acts_bind _ _ (acts_bind _ _ (acts_identify _ _ _) fun _ => trivial) fun auth => ?_
  cases r.request with
  | patchUser selector isAdmin => exact acts_preparePatch auth selector isAdmin
  | deleteUser selector owned => exact acts_prepareDelete auth selector owned

end Extracting

end Preparing

/-! What a request prepares when nobody else acts -/

section Alone
variable {s t : AdminStore}

/-- Every record lies under its own id. -/
def Filed (s : AdminStore) : Prop := ∀ id user, userAnswer s id = .ok (some user) → user.id = id

/-- What `sparesLast` asks of the step that writes a change. -/
def AdminChange.spares (s : AdminStore) : AdminChange → Bool
  | flag user false => ! lastAdmin s user.id
  | flag _ true => true
  | leave user => ! lastAdmin s user.id

/-- The accounts are as they were. -/
structure Steady (s t : AdminStore) : Prop where
  kinded : t.WellKinded
  admins : adminIds t = adminIds s
  answers : ∀ id, userAnswer t id = userAnswer s id

theorem Steady.filed (steady : Steady s t) (filed : Filed s) : Filed t := by
  intro id user answer
  rw [steady.answers] at answer
  exact filed id user answer

theorem Steady.lastAdmin (steady : Steady s t) (id : String) :
    lastAdmin t id = lastAdmin s id := by
  rw [WireMirage.lastAdmin, WireMirage.lastAdmin, steady.admins]

theorem run_aside {A Err : Type} {p : Prog AdminStore Err A} (acts : Acts Aside p)
    (wk : s.WellKinded) : Steady s (run p s).2 := by
  obtain ⟨kinded, same⟩ := entry_of_acts (fun k => k.aside = true) acts wk
  have here : ∀ k : AdminKey, k.aside = false → (run p s).2.entry k = s.entry k :=
    fun k about => same k (by simp [about])
  refine ⟨kinded, (adminIds_of_entries here).1, ?_⟩
  intro id
  rw [userAnswer, userAnswer, Storage.hashAt_of_entry (here (.user id) rfl)]

theorem run_aside_bind {A B Err : Type} {p : Prog AdminStore Err A} {k : A → Prog AdminStore Err B}
    (acts : Acts Aside p) (wk : s.WellKinded) {b : B} (ran : run (p >>= k) s = (.ok b, t)) :
    ∃ a u, run p s = (.ok a, u) ∧ Steady s u ∧ run (k a) u = (.ok b, t) := by
  rw [run_bind] at ran
  obtain ⟨a, u, first, rest⟩ := andThen_ok_iff.mp ran
  have steady := run_aside acts wk
  rw [first] at steady
  exact ⟨a, u, first, steady, rest⟩

theorem run_scanUsers (wk : s.WellKinded) {email : String} (ids : List String) {user : User}
    (found : (run (scanUsers email ids) s).1 = .ok (some user)) :
    ∃ id, userAnswer s id = .ok (some user) := by
  induction ids with
  | nil => cases found
  | cons id rest ih =>
    simp only [scanUsers, run_bind, run_readUserById wk] at found
    rcases answer : userAnswer s id with e | (_ | u)
    · rw [answer] at found
      cases found
    · rw [answer] at found
      exact ih found
    · rw [answer, andThen_ok] at found
      by_cases same : u.email = email
      · simp only [if_pos same] at found
        refine ⟨id, ?_⟩
        by_cases address : email.toList.contains '@' = true
        · rw [if_pos address] at found
          cases found
          exact answer
        · rw [if_neg address] at found
          cases found
          exact answer
      · simp only [if_neg same] at found
        exact ih found

theorem run_scanAllUsers (wk : s.WellKinded) {email : String} {user : User}
    (found : (run (scanAllUsers email) s).1 = .ok (some user)) :
    ∃ id, userAnswer s id = .ok (some user) := by
  unfold scanAllUsers at found
  rw [run_bind, run_setMembers wk rfl] at found
  exact run_scanUsers wk _ found

/-- An account that is found by its email is read from a record. -/
theorem run_findUserByEmail (wk : s.WellKinded) {email : String} {user : User}
    (found : (run (findUserByEmail email) s).1 = .ok (some user)) :
    ∃ id, userAnswer s id = .ok (some user) := by
  have stale : (run (Bucket.delete (.userByEmail email) >>= fun _ => scanAllUsers email) s).1 =
      .ok (some user) → ∃ id, userAnswer s id = .ok (some user) := by
    intro found
    rw [run_bind, run_delete] at found
    obtain ⟨id, answer⟩ := run_scanAllUsers (Storage.wellKinded_erase wk) found
    refine ⟨id, ?_⟩
    rw [← answer, userAnswer, userAnswer]
    simp
  unfold findUserByEmail at found
  rw [run_bind, run_get wk rfl, andThen_ok] at found
  rcases indexed : s.bytesAt (.userByEmail email) with _ | v
  · rw [indexed] at found
    exact run_scanAllUsers wk found
  · simp only [indexed, run_bind, indexedId] at found
    cases text : v.utf8 with
    | none =>
      rw [text] at found
      cases found
    | some id =>
      simp only [text, run_pure, andThen_ok, run_bind, run_readUserById wk] at found
      rcases answer : userAnswer s id with e | (_ | u)
      · rw [answer] at found
        cases found
      · rw [answer] at found
        exact stale found
      · rw [answer, andThen_ok] at found
        by_cases same : u.email = email
        · simp only [if_pos same] at found
          cases found
          exact ⟨id, answer⟩
        · simp only [if_neg same] at found
          exact stale found

/-- An account that is selected is read from its record. -/
theorem run_selectedUser (wk : s.WellKinded) (filed : Filed s) {selector : String} {user : User}
    (found : (run (selectedUser selector) s).1 = .ok user) :
    userAnswer s user.id = .ok (some user) := by
  simp only [selectedUser, viaAuth, run_bind, run_mapError] at found
  cases ran : (run (getUserByEmail selector) s).1 with
  | error e =>
    rw [ran] at found
    cases found
  | ok read =>
    rw [ran] at found
    cases read with
    | none => cases found
    | some u =>
      cases found
      obtain ⟨id, answer⟩ := run_findUserByEmail wk ran
      rw [filed id user answer]
      exact answer

theorem run_sparesLastAdmin (wk : s.WellKinded) {user : User} {message : String} {t : AdminStore}
    (answer : userAnswer s user.id = .ok (some user))
    (ran : run (sparesLastAdmin user message) s = (.ok (), t)) :
    t = s ∧ lastAdmin s user.id = false := by
  have same : t = s := by
    have reads := run_of_reads (acts_sparesLastAdmin user message) wk
    rw [ran] at reads
    exact reads
  refine ⟨same, ?_⟩
  unfold sparesLastAdmin at ran
  by_cases admin : user.isAdmin = true
  · rw [if_pos admin, viaAuth, run_bind, run_mapError] at ran
    cases counted : (run countAdmins s).1 with
    | error e =>
      rw [counted] at ran
      cases ran
    | ok n =>
      rw [counted, countAdmins_adminIds wk counted] at ran
      by_cases few : (adminIds s).length ≤ 1
      · simp [Except.mapError, few] at ran
      · simp [lastAdmin, few]
  · have reads : readsAdmin s user.id = false := by
      unfold readsAdmin
      rw [answer]
      simpa using admin
    have absent : user.id ∉ adminIds s := by
      intro member
      rw [(mem_adminIds.mp member).2] at reads
      cases reads
    simp [lastAdmin, absent]

theorem run_selected_bind {A : Type} {k : User → Users A} {a : A} (wk : s.WellKinded)
    (filed : Filed s) {selector : String}
    (ran : run (selectedUser selector >>= k) s = (.ok a, t)) :
    ∃ user u, Steady s u ∧ userAnswer u user.id = .ok (some user) ∧
      run (k user) u = (.ok a, t) := by
  obtain ⟨user, u, selected, steady, ran⟩ := run_aside_bind (acts_selectedUser selector) wk ran
  refine ⟨user, u, steady, ?_, ran⟩
  rw [steady.answers]
  exact run_selectedUser wk filed (by rw [selected])

theorem run_spares_bind {A : Type} {k : Unit → Users A} {a : A} (wk : s.WellKinded) {user : User}
    {message : String} (answer : userAnswer s user.id = .ok (some user))
    (ran : run (sparesLastAdmin user message >>= k) s = (.ok a, t)) :
    lastAdmin s user.id = false ∧ run (k ()) s = (.ok a, t) := by
  rw [run_bind] at ran
  obtain ⟨_, u, spares, rest⟩ := andThen_ok_iff.mp ran
  obtain ⟨rfl, spared⟩ := run_sparesLastAdmin wk answer spares
  exact ⟨spared, rest⟩

theorem run_reread {A : Type} {k : User → Users A} (wk : s.WellKinded) {user : User}
    (answer : userAnswer s user.id = .ok (some user)) :
    run (viaAuth (getUserById user.id) >>= k) s = run (k user) s := by
  rw [run_bind, viaAuth, run_mapError, getUserById, run_bind, run_readUserById wk, answer]
  rfl

/-- The account of a change that a request prepares when nobody else acts is not the last
    admin. -/
theorem prepare_spares [Digest] [Signing] (r : Administration) (wk : s.WellKinded)
    (filed : Filed s) {change : AdminChange} (ran : run r.prepare s = (.ok change, t)) :
    change.spares t = true := by
  have extracting : Acts Aside (fromRequestParts r.sessions r.credentials r.now) :=
    acts_bind _ _ (acts_identify _ _ _) fun _ => trivial
  obtain ⟨auth, u, _, steady, ran⟩ := run_aside_bind extracting wk ran
  have filed' := steady.filed filed
  cases request : r.request with
  | patchUser selector isAdmin =>
    rw [request] at ran
    obtain ⟨_, v, admitted, steady', ran⟩ := run_aside_bind (acts_ofExcept _) steady.kinded ran
    cases isAdmin with
    | none =>
      obtain ⟨_, _, _, _, ran⟩ := run_aside_bind (acts_selectedUser selector) steady'.kinded ran
      cases ran
    | some targetAdmin =>
      cases targetAdmin with
      | true =>
        obtain ⟨user, w, _, steady'', ran⟩ :=
          run_aside_bind (acts_selectedUser selector) steady'.kinded ran
        obtain ⟨user', _, _, _, ran⟩ := run_aside_bind
          (acts_mapError _ _ (acts_getUserById user.id)) steady''.kinded ran
        cases ran
        rfl
      | false =>
        obtain ⟨user, w, steady'', answer, ran⟩ :=
          run_selected_bind steady'.kinded (steady'.filed filed') ran
        obtain ⟨spared, ran⟩ := run_spares_bind steady''.kinded answer ran
        rw [run_reread steady''.kinded answer] at ran
        cases ran
        simp [AdminChange.spares, spared]
  | deleteUser selector owned =>
    rw [request] at ran
    obtain ⟨_, v, admitted, steady', ran⟩ := run_aside_bind (acts_ofExcept _) steady.kinded ran
    obtain ⟨user, w, steady'', answer, ran⟩ :=
      run_selected_bind steady'.kinded (steady'.filed filed') ran
    by_cases own : user.id = auth.userId
    · rw [if_pos own] at ran
      cases ran
    · rw [if_neg own] at ran
      obtain ⟨spared, ran⟩ := run_spares_bind steady''.kinded answer ran
      cases owned with
      | error e => cases ran
      | ok owned =>
        by_cases owns : owned ≠ 0
        · simp only [if_pos owns] at ran
          cases ran
        · simp only [if_neg owns, run_reread steady''.kinded answer] at ran
          obtain ⟨tokenIds, x, _, steadyTokens, ran⟩ := run_aside_bind
            (acts_mapError _ _ (acts_setMembers rfl)) steady''.kinded ran
          obtain ⟨_, y, _, steadyLoop, ran⟩ := run_aside_bind
            (acts_mapError _ _ (acts_forEach _ _ fun id _ =>
              acts_mono aside_of_deletesToken _ (acts_deleteTokenIfRead id)))
            steadyTokens.kinded ran
          have email : Aside (.erase (.userByEmail user.email)) := rfl
          have name : Aside (.erase (.userByName user.email)) := rfl
          obtain ⟨_, z, _, steadyEmail, ran⟩ := run_aside_bind
            (acts_mapError _ _ (acts_delete email)) steadyLoop.kinded ran
          obtain ⟨_, _, _, steadyName, ran⟩ := run_aside_bind
            (acts_mapError _ _ (acts_delete name)) steadyEmail.kinded ran
          cases ran
          rw [AdminChange.spares, steadyName.lastAdmin, steadyEmail.lastAdmin,
            steadyLoop.lastAdmin, steadyTokens.lastAdmin, spared]
          rfl

end Alone
end WireMirage
