import WireMirage.Library.Pool
import WireMirage.Api.Administration
import WireMirage.Auth.Logout

/-!
Any number of requests that demote and delete accounts, over accounts of which one at
least is an admin's.
-/
namespace WireMirage
open Prog StepMachine

abbrev AdminPool := Pool AdminStore AdminTask Unit

section Pools
variable [Digest] [Signing]

def Administration.launch (r : Administration) : AdminTask := .prepared r.prepare

/-- Requests over any store, while credentials come and go. -/
def adminWork : Work AdminStore AdminTask Unit Administration AdminKey where
  begin r _ := some (r.launch, ())
  step := AdminTask.step
  outside := vanish

abbrev admins : Machine AdminPool (PoolAction Administration AdminKey) :=
  pool adminWork (fun s _ => s.WellKinded ∧ HasAdmin s)

/-- Every run of the requests' programs is a run of their positions. -/
theorem admins_programs {starts : AdminStore → Unit → Prop} {p : AdminPool}
    {P Q : Pool AdminStore (Users Unit) Unit}
    (path : Run (pool (programs (fun r _ => some (settle (Administration.program r), ()))
      vanish) starts) (fun _ _ => True) P Q)
    (first : P = ⟨p.shared, p.tasks.map AdminTask.code, p.log⟩) :
    ∃ q : AdminPool, Q = ⟨q.shared, q.tasks.map AdminTask.code, q.log⟩ ∧
      Run (pool adminWork starts) (fun _ _ => True) p q := by
  apply run_programs AdminTask.code admin_agree _ first
  simpa only [adminWork, Option.map_some, Administration.launch, prepared_code,
    settle_administration] using path

omit [Digest] [Signing] in
/-- Where a request takes an account's flag away or takes it off the list, there is another
    admin still. -/
def sparesLast (p : AdminPool) : PoolAction Administration AdminKey → Bool
  | .resume i =>
    match p.tasks[i]? with
    | some (.flagging user false) => ! lastAdmin p.shared user.id
    | some (.leaving user) => ! lastAdmin p.shared user.id
    | _ => true
  | _ => true

omit [Digest] [Signing] in
/-- What a task may still write, whatever happens meanwhile. -/
def AdminTask.Sound (s : AdminStore) : AdminTask → Prop
  | .preparing effect next => Acts Aside (Prog.act effect next)
  | .clearing rest => ∃ id, id ∉ s.setAt .userAll ∧
      Acts (fun c => ∃ f, c = .dropField (.user id) f) rest
  | _ => True

omit [Digest] [Signing] in
theorem sound_mono {s t : AdminStore} {v : AdminTask} (sound : v.Sound s)
    (shrinks : ∀ id ∈ t.setAt .userAll, id ∈ s.setAt .userAll) : v.Sound t := by
  cases v with
  | clearing rest =>
    obtain ⟨id, gone, acts⟩ := sound
    exact ⟨id, fun listed => gone (shrinks id listed), acts⟩
  | _ => exact sound

omit [Digest] [Signing] in
theorem prepared_sound {p : Users AdminChange} (acts : Acts Aside p) (s : AdminStore) :
    (AdminTask.prepared p).Sound s := by
  cases p with
  | done change => cases change <;> trivial
  | fail e => trivial
  | act effect next => exact acts

omit [Digest] [Signing] in
theorem acts_clearUser (user : User) :
    Acts (fun c => ∃ f, c = .dropField (.user user.id) f) (settle (clearUser user)) :=
  acts_settle _ (acts_mapError _ _ (acts_forEach _ _ fun f _ => acts_hashDelete rfl ⟨f, rfl⟩))

omit [Digest] [Signing] in
/-- All that a step of a request can do to the admins. -/
theorem admin_step {t u : AdminTask} {s s' : AdminStore} (wk : s.WellKinded) (sound : t.Sound s)
    (taken : t.step s = some (u, s')) :
    (s'.WellKinded ∧ u.Sound s' ∧ ∀ id ∈ s'.setAt .userAll, id ∈ s.setAt .userAll) ∧
    (((∀ user isAdmin, t ≠ .flagging user isAdmin) ∧ (∀ user, t ≠ .leaving user) ∧
        adminIds s' = adminIds s) ∨
      (∃ user isAdmin, t = .flagging user isAdmin ∧ s' = flagged s user.id isAdmin) ∨
      ∃ user, t = .leaving user ∧ s' = s.dropMember .userAll user.id) := by
  cases t with
  | preparing effect next =>
    cases taken
    obtain ⟨does, rest⟩ := sound s wk
    have same : (effect s).WellKinded ∧ adminIds (effect s) = adminIds s ∧
        (effect s).setAt .userAll = s.setAt .userAll := by
      rcases does with same | ⟨c, aside, typed, same⟩
      · rw [same]
        exact ⟨wk, rfl, rfl⟩
      · rw [same]
        refine ⟨c.wellKinded_apply typed wk, adminIds_of_entries ?_⟩
        intro k here
        apply c.entry_apply
        rintro rfl
        rw [aside] at here
        cases here
    obtain ⟨kinded, ids, all⟩ := same
    exact ⟨⟨kinded, prepared_sound rest _, fun id listed => all ▸ listed⟩,
      .inl ⟨by simp, by simp, ids⟩⟩
  | flagging user isAdmin =>
    simp only [AdminTask.step, Storage.hashSet_eq wk (k := .user user.id) rfl] at taken
    cases taken
    refine ⟨⟨Storage.wellKinded_putHash wk rfl _, trivial, ?_⟩,
      .inr (.inl ⟨user, isAdmin, rfl, rfl⟩)⟩
    intro id listed
    exact setAt_flagged user.id isAdmin ▸ listed
  | leaving user =>
    simp only [AdminTask.step, Storage.setRemove_eq wk (k := .userAll) rfl] at taken
    cases taken
    have gone : user.id ∉ (s.dropMember .userAll user.id).setAt .userAll := by
      rw [Storage.setAt_dropMember, if_pos rfl, (s.setAt_nodup .userAll).mem_erase_iff]
      exact fun here => here.1 rfl
    refine ⟨⟨Storage.wellKinded_dropMember wk rfl _, ⟨user.id, gone, acts_clearUser user⟩, ?_⟩,
      .inr (.inr ⟨user, rfl, rfl⟩)⟩
    intro id listed
    rw [Storage.setAt_dropMember, if_pos rfl, (s.setAt_nodup .userAll).mem_erase_iff] at listed
    exact listed.2
  | clearing rest =>
    obtain ⟨id, gone, acts⟩ := sound
    cases rest with
    | done _ => cases taken
    | fail _ => cases taken
    | act effect next =>
      cases taken
      obtain ⟨does, rest⟩ := acts s wk
      have same : (effect s).WellKinded ∧ adminIds (effect s) = adminIds s ∧
          (effect s).setAt .userAll = s.setAt .userAll := by
        rcases does with same | ⟨c, ⟨f, rfl⟩, typed, same⟩
        · rw [same]
          exact ⟨wk, rfl, rfl⟩
        · rw [same]
          exact ⟨Storage.wellKinded_dropField wk rfl f, adminIds_dropField gone f⟩
      obtain ⟨kinded, ids, all⟩ := same
      exact ⟨⟨kinded, ⟨id, all ▸ gone, rest⟩, fun x listed => all ▸ listed⟩,
        .inl ⟨by simp, by simp, ids⟩⟩
  | finished => cases taken

omit [Digest] [Signing] in
structure Administered (p : AdminPool) : Prop where
  kinded : p.shared.WellKinded
  has : HasAdmin p.shared
  sound : ∀ t ∈ p.tasks, t.Sound p.shared

omit [Digest] [Signing] in
theorem vanished_admins {s : AdminStore} (k : AdminKey) :
    adminIds (vanish k s) = adminIds s ∧ (vanish k s).setAt .userAll = s.setAt .userAll := by
  unfold vanish
  split
  · rename_i elsewhere
    apply adminIds_of_entries
    intro k' here
    apply Storage.entry_erase_ne
    rintro rfl
    cases k' <;> first | cases (show false = true from elsewhere) | cases here
  · exact ⟨rfl, rfl⟩

/-- What a step does, the condition it is taken under left open. -/
theorem administered_step {p q : AdminPool} {a : PoolAction Administration AdminKey}
    (inv : Administered p) (next : admins.step p a = some q) :
    q.shared.WellKinded ∧ (∀ t ∈ q.tasks, t.Sound q.shared) ∧
      (HasAdmin q.shared ↔ sparesLast p a = true) := by
  obtain ⟨kinded, has, sound⟩ := inv
  rcases pool_cases next with ⟨r, t, l, rfl, begun, rfl⟩ | ⟨i, t, u, s, rfl, found, taken, rfl⟩ |
    ⟨k, rfl, rfl⟩
  · cases begun
    refine ⟨kinded, ?_, iff_of_true has rfl⟩
    intro v member
    rcases List.mem_append.mp member with old | new
    · exact sound v old
    · rw [List.mem_singleton.mp new]
      exact prepared_sound (acts_prepare r) _
  · obtain ⟨⟨after, rest, shrinks⟩, change⟩ :=
      admin_step kinded (sound t (List.mem_of_getElem? found)) taken
    refine ⟨after, ?_, ?_⟩
    · intro v member
      rcases mem_moved found member with rfl | ⟨old, _⟩
      · exact rest
      · exact sound_mono (sound v old) shrinks
    · simp only [sparesLast, found]
      rcases change with ⟨notFlag, notLeave, ids⟩ | ⟨user, isAdmin, rfl, rfl⟩ | ⟨user, rfl, rfl⟩
      · have same : HasAdmin s := by
          unfold HasAdmin
          rw [ids]
          exact has
        refine iff_of_true same ?_
        split
        · rename_i user here
          cases here
          exact absurd rfl (notFlag user false)
        · rename_i user here
          cases here
          exact absurd rfl (notLeave user)
        · rfl
      · cases isAdmin with
        | true => exact iff_of_true (hasAdmin_promoted has user.id) rfl
        | false =>
          cases last : lastAdmin p.shared user.id with
          | true => exact iff_of_false (no_admin_demoted last) (by simp [last])
          | false => exact iff_of_true (hasAdmin_demoted last has) (by simp [last])
      · cases last : lastAdmin p.shared user.id with
        | true => exact iff_of_false (no_admin_left last) (by simp [last])
        | false => exact iff_of_true (hasAdmin_left last has) (by simp [last])
  · obtain ⟨ids, all⟩ := vanished_admins (s := p.shared) k
    refine ⟨?_, ?_, ?_⟩
    · show (vanish k p.shared).WellKinded
      unfold vanish
      split
      · exact Storage.wellKinded_erase kinded
      · exact kinded
    · exact fun v member => sound_mono (sound v member) (fun id listed => all ▸ listed)
    · have same : HasAdmin (vanish k p.shared) := by
        unfold HasAdmin
        rw [ids]
        exact has
      exact iff_of_true same rfl

/-- There is an admin as long as every such write spares the last one, and the first that
    does not leaves none. -/
theorem always_an_admin (p : AdminPool)
    (reached : Reached admins (fun p a => sparesLast p a) p) :
    HasAdmin p.shared ∧ ∀ a q, admins.step p a = some q →
      (HasAdmin q.shared ↔ sparesLast p a = true) := by
  have inv : Administered p := by
    refine reached_invariant ?_ ?_ reached
    · rintro q ⟨⟨kinded, has⟩, idle⟩
      refine ⟨kinded, has, ?_⟩
      rw [idle]
      simp
    · intro q a q' inv spares next
      obtain ⟨kinded, sound, has⟩ := administered_step inv next
      exact ⟨kinded, has.mpr spares, sound⟩
  exact ⟨inv.has, fun a q next => (administered_step inv next).2.2⟩

end Pools

namespace Sample

def adminAnn : User := ⟨ann, "ann", true, 0, 0⟩
def adminBob : User := ⟨bob, "bob", true, 0, 0⟩

/-- The store of two admins, one of whom is logged in. -/
def twoAdmins : AdminStore :=
  ((((((openSession.putHash (.user ann) (userFields adminAnn)).putHash (.user bob)
    (userFields adminBob)).addMember .userAll ann).addMember .userAll bob).put
    (.userByEmail "ann") (.text ann) none).put (.userByEmail "bob") (.text bob) none)

def demotes (email : String) : PoolAction Administration AdminKey :=
  .launch ⟨some 3600, ⟨none, some (signCookie sessionToken)⟩, 5, .patchUser email (some false)⟩

theorem twoAdmins_kinded : twoAdmins.WellKinded := by
  refine Storage.wellKinded_put (Storage.wellKinded_put (Storage.wellKinded_addMember
    (Storage.wellKinded_addMember (Storage.wellKinded_putHash (Storage.wellKinded_putHash
    (Storage.wellKinded_put (Storage.wellKinded_empty _) ?_ _ _) ?_ _) ?_ _) ?_ _) ?_ _)
    ?_ _ _) ?_ _ _ <;> rfl

theorem twoAdmins_start : admins.start ⟨twoAdmins, [], ()⟩ :=
  ⟨⟨twoAdmins_kinded, ann, by decide +kernel⟩, rfl⟩

end Sample

open Sample in
theorem always_an_admin_alone : ∃ p : AdminPool, adminIds p.shared = [ann] ∧ HasAdmin p.shared := by
  have ran : (exec (guarded admins sparesLast) ⟨twoAdmins, [], ()⟩
      (demotes "bob" :: List.replicate 10 (.resume 0))).map (fun p => adminIds p.shared) =
      some [ann] := by
    decide +kernel
  obtain ⟨p, done, left⟩ := Option.map_eq_some_iff.mp ran
  have reached := reached_of_guarded (m := admins) _ twoAdmins_start done
  exact ⟨p, left, (always_an_admin p reached).1⟩

open Sample in
/-- Each of two requests counts two admins before either of them demotes one. -/
theorem no_admin_left_over : ∃ p : AdminPool, Reached admins (fun _ _ => True) p ∧
    ¬ HasAdmin p.shared := by
  have ran : (exec admins ⟨twoAdmins, [], ()⟩
      ([demotes "bob", demotes "ann"] ++ List.replicate 9 (.resume 0) ++
        List.replicate 9 (.resume 1) ++ [.resume 0, .resume 1])).map
      (fun p => adminIds p.shared) = some [] := by
    decide +kernel
  obtain ⟨p, done, none⟩ := Option.map_eq_some_iff.mp ran
  refine ⟨p, reached_of_exec (m := admins) _ twoAdmins_start done, ?_⟩
  rintro ⟨id, member⟩
  rw [none] at member
  cases member

end WireMirage
