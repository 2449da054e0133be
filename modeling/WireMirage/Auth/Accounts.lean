import WireMirage.Auth.Writes

/-!
What reading an account answers, and the records that are whole.
-/
namespace WireMirage
open Prog

/-- What reading a user's record answers. -/
def userAnswer (s : AdminStore) (id : String) : Except AuthError (Option User) :=
  if (s.hashAt (.user id)).entries.isEmpty then .ok none
  else (decodeUser (s.hashAt (.user id))).map some

theorem run_readUserById {s : AdminStore} (wk : s.WellKinded) (id : String) :
    run (readUserById id) s = (userAnswer s id, s) := by
  unfold readUserById userAnswer
  rw [run_bind, run_hashGetAll wk (k := .user id) rfl, andThen_ok]
  by_cases empty : (s.hashAt (.user id)).entries.isEmpty = true
  · simp [empty]
  · rw [if_neg empty, if_neg empty, run_bind, run_ofExcept]
    cases decodeUser (s.hashAt (.user id)) with
    | error e => rfl
    | ok user => rfl

theorem run_getUserById {s : AdminStore} (wk : s.WellKinded) (id : String) {user : User}
    (found : (run (getUserById id) s).1 = .ok user) :
    run (getUserById id) s = (.ok user, s) ∧ userAnswer s id = .ok (some user) := by
  unfold getUserById at *
  rw [run_bind, run_readUserById wk] at *
  rcases answer : userAnswer s id with e | (_ | x)
  · rw [answer] at found
    cases found
  · rw [answer] at found
    cases found
  · rw [answer] at found
    cases found
    exact ⟨rfl, rfl⟩

theorem decode_user_id {fields : Fields AdminVal} {user : User}
    (decoded : decodeUser fields = .ok user) : fields.lookup "id" = some (.text user.id) := by
  simp only [decodeUser, ok_bind_iff, pure, Except.pure, Except.ok.injEq] at decoded
  obtain ⟨_, _, _, _, id, read, _, _, _, _, rfl⟩ := decoded
  unfold userText at read
  cases field : fields.lookup "id" with
  | none => simp [field] at read
  | some v => cases v <;> simp_all [AdminVal.utf8]

/-- The record of an account with an email, every field of it. -/
structure Registered (s : AdminStore) (id email : String) : Prop where
  idField : (s.hashAt (.user id)).lookup "id" = some (.text id)
  emailField : (s.hashAt (.user id)).lookup "primary_email" = some (.text email)
  adminField : ∃ b, (s.hashAt (.user id)).lookup "is_admin" = some (AdminVal.flag b)
  createdField : ∃ ts, (s.hashAt (.user id)).lookup "created_at" = some (.time ts)
  epochField : ∃ n : Nat, (s.hashAt (.user id)).lookup "session_epoch" = some (.int n) ∧
    n < u64Size

theorem parseBelow_natCast {n bound : Nat} (below : n < bound) :
    (AdminVal.int n).parseBelow bound = some n := by
  have inside : (0 : Int) ≤ n ∧ (n : Int) < bound := by omega
  rw [AdminVal.parseBelow, if_pos inside, Int.toNat_natCast]

theorem decodeSessionEpoch_int {fields : Fields AdminVal} {n : Nat}
    (field : fields.lookup "session_epoch" = some (.int n)) (bound : n < u64Size) :
    decodeSessionEpoch fields = .ok n := by
  unfold decodeSessionEpoch
  split
  · rename_i missing
    rw [field] at missing
    cases missing
  · rename_i v found
    rw [field, Option.some.injEq] at found
    subst found
    rw [parseBelow_natCast bound]

theorem registered_answer {s : AdminStore} {id email : String}
    (registered : Registered s id email) :
    ∃ user, userAnswer s id = .ok (some user) ∧ user.id = id ∧ user.email = email := by
  obtain ⟨b, isAdmin⟩ := registered.adminField
  obtain ⟨ts, createdAt⟩ := registered.createdField
  obtain ⟨n, epoch, bound⟩ := registered.epochField
  have full : ¬ (s.hashAt (.user id)).entries.isEmpty = true := by
    intro empty
    have field := registered.idField
    rw [Storage.hash_eq_empty_of_isEmpty empty] at field
    simp at field
  have email' : decodeEmail (s.hashAt (.user id)) = .ok email := by
    simp [decodeEmail, registered.emailField, AdminVal.utf8]
  have epoch' := decodeSessionEpoch_int epoch bound
  have id' : userText (s.hashAt (.user id)) "id" = .ok id := by
    simp [userText, registered.idField, AdminVal.utf8]
  have flag : ∃ text, userText (s.hashAt (.user id)) "is_admin" = .ok text := by
    cases b <;> simp [userText, isAdmin, AdminVal.flag, AdminVal.utf8]
  have time : requiredUserTs (s.hashAt (.user id)) "created_at" = .ok ts := by
    simp [requiredUserTs, createdAt, userTs]
  obtain ⟨text, flag⟩ := flag
  refine ⟨⟨id, email, text = "1", ts, n⟩, ?_, rfl, rfl⟩
  have decoded : decodeUser (s.hashAt (.user id)) = .ok ⟨id, email, text = "1", ts, n⟩ := by
    simp only [decodeUser, ok_bind_iff, pure, Except.pure]
    exact ⟨email, email', n, epoch', id, id', text, flag, ts, time, rfl⟩
  rw [userAnswer, if_neg full, decoded, Except.map]

/-- The session epoch of an account, 0 where none is stored. -/
def epochOf (s : AdminStore) (id : String) : Nat :=
  (decodeSessionEpoch (s.hashAt (.user id))).toOption.getD 0

theorem answer_epoch {s : AdminStore} {id : String} {user : User}
    (answer : userAnswer s id = .ok (some user)) : user.sessionEpoch = epochOf s id := by
  unfold userAnswer at answer
  split at answer
  · cases answer
  · cases decoded : decodeUser (s.hashAt (.user id)) with
    | error e =>
      rw [decoded] at answer
      cases answer
    | ok u =>
      rw [decoded] at answer
      cases answer
      simp only [decodeUser, ok_bind_iff, pure, Except.pure, Except.ok.injEq] at decoded
      obtain ⟨_, _, epoch, read, _, _, _, _, _, _, rfl⟩ := decoded
      rw [epochOf, read]
      rfl

theorem registered_unique {s : AdminStore} {id email email' : String}
    (one : Registered s id email) (two : Registered s id email') : email = email' := by
  have same := two.emailField
  rw [one.emailField, Option.some.injEq] at same
  exact AdminVal.text.inj same

theorem registered_of_hash {s t : AdminStore} {id email : String}
    (same : t.hashAt (.user id) = s.hashAt (.user id)) (registered : Registered s id email) :
    Registered t id email := by
  obtain ⟨one, two, three, four, five⟩ := registered
  rw [← same] at one two three four five
  exact ⟨one, two, three, four, five⟩

/-- The admin flag is written in place. -/
theorem registered_flag {s : AdminStore} {id email : String} (registered : Registered s id email)
    (b : Bool) : Registered (s.putHash (.user id)
      ((s.hashAt (.user id)).insert "is_admin" (AdminVal.flag b))) id email := by
  obtain ⟨one, two, three, four, five⟩ := registered
  constructor
  · simpa [lookup_insert] using one
  · simpa [lookup_insert] using two
  · exact ⟨b, by simp⟩
  · simpa [lookup_insert] using four
  · simpa [lookup_insert] using five

/-- So is the session epoch. -/
theorem registered_epoch {s : AdminStore} {id email : String} (registered : Registered s id email)
    {n : Nat} (bound : n < u64Size) : Registered (s.putHash (.user id)
      ((s.hashAt (.user id)).insert "session_epoch" (.int n))) id email ∧
      epochOf (s.putHash (.user id)
        ((s.hashAt (.user id)).insert "session_epoch" (.int n))) id = n := by
  obtain ⟨one, two, three, four, five⟩ := registered
  refine ⟨⟨?_, ?_, ?_, ?_, ⟨n, by simp, bound⟩⟩, ?_⟩
  · simpa [lookup_insert] using one
  · simpa [lookup_insert] using two
  · simpa [lookup_insert] using three
  · simpa [lookup_insert] using four
  · unfold epochOf
    rw [decodeSessionEpoch_int (by simp) bound]
    rfl

end WireMirage
