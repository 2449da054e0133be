import Mathlib.Data.List.DropRight
import Mathlib.Data.List.TakeWhile
import WireMirage.Library.Interference
import WireMirage.Auth.Accounts

/-!
Sign-ups that run into each other, one storage step at a time. An email belongs to the
account that claims its index entry, and the claim is one command, made after the record
of the account is there.
-/
namespace WireMirage
open Prog StepMachine

/-! Normal emails -/

theorem toLower_cases (c : Char) :
    c.toLower = c ∨ (65 ≤ c.toNat ∧ c.toNat ≤ 90) ∧ c.toLower.toNat = c.toNat + 32 := by
  unfold Char.toLower
  split
  · rename_i upper
    have low : 65 ≤ c.toNat := upper.1
    have high : c.toNat ≤ 90 := upper.2
    refine .inr ⟨⟨low, high⟩, ?_⟩
    show (c.val + ('a'.val - 'A'.val)).toNat = c.toNat + 32
    have distance : ('a'.val - 'A'.val).toNat = 32 := rfl
    rw [UInt32.toNat_add, distance]
    show (c.toNat + 32) % 2 ^ 32 = c.toNat + 32
    omega
  · exact .inl rfl

theorem whiteSpace_toLower (c : Char) : whiteSpace c.toLower = whiteSpace c := by
  rcases toLower_cases c with same | ⟨⟨low, high⟩, moved⟩
  · rw [same]
  · have upper : whiteSpace c = false := by
      simp [whiteSpace]
      omega
    have lower : whiteSpace c.toLower = false := by
      simp [whiteSpace, moved]
      omega
    rw [upper, lower]

theorem toLower_toLower (c : Char) : c.toLower.toLower = c.toLower := by
  rcases toLower_cases c.toLower with same | ⟨⟨low, high⟩, _⟩
  · exact same
  · rcases toLower_cases c with same | ⟨⟨low', high'⟩, moved⟩
    · rw [same, same]
    · omega

def trimmed (cs : List Char) : List Char := (cs.dropWhile whiteSpace).rdropWhile whiteSpace

theorem trimmed_lower (cs : List Char) :
    trimmed (cs.map Char.toLower) = (trimmed cs).map Char.toLower := by
  have same : whiteSpace ∘ Char.toLower = whiteSpace := funext whiteSpace_toLower
  unfold trimmed List.rdropWhile
  rw [List.dropWhile_map, same, ← List.map_reverse, List.dropWhile_map, same, List.map_reverse]

theorem trimmed_trimmed (cs : List Char) : trimmed (trimmed cs) = trimmed cs := by
  have opens : (trimmed cs).dropWhile whiteSpace = trimmed cs := by
    rw [List.dropWhile_eq_self_iff]
    intro nonempty
    have start : trimmed cs <+: cs.dropWhile whiteSpace := List.rdropWhile_prefix _ _
    have within : 0 < (cs.dropWhile whiteSpace).length :=
      Nat.lt_of_lt_of_le nonempty start.length_le
    rw [start.getElem nonempty]
    exact List.dropWhile_eq_self_iff.mp (List.dropWhile_idempotent _ _) within
  rw [trimmed, opens]
  exact List.rdropWhile_idempotent _ _

theorem normalizeEmail_idem (email : String) :
    normalizeEmail (normalizeEmail email) = normalizeEmail email := by
  have chars : ∀ e, (normalizeEmail e).toList = (trimmed e.toList).map Char.toLower := by
    intro e
    show (String.map Char.toLower (trim e)).toList = _
    rw [String.toList_map, trim, String.toList_ofList]
    rfl
  apply String.toList_inj.mp
  rw [chars, chars, trimmed_lower, trimmed_trimmed, List.map_map]
  congr 1
  funext c
  exact toLower_toLower c
/-! Accounts and their index -/

def Indexed (s : AdminStore) (email id : String) : Prop :=
  s.bytesAt (.userByEmail email) = some (.text id)

/-- An id that an email leads to. -/
def Claimed (s : AdminStore) (id : String) : Prop := ∃ email, Indexed s email id

/-- An account that a credential in the store stands for. -/
inductive Holder (s : AdminStore) (id : String) : Prop where
  | session (token : String) (session : Session)
      (found : s.bytesAt (.session token) = some (.session session)) (own : session.userId = id)
  | token (tokenId : String) (v : AdminVal)
      (found : (s.hashAt (.token tokenId)).lookup "owner_id" = some v) (own : v.utf8 = some id)
  | access (hash : String) (token : AccessToken)
      (found : (s.hashAt (.access hash)).lookup "data" = some (.access token))
      (own : token.userId = id)

/-- Whatever leads to an account leads to one whose record is whole and whose email is its own. -/
structure SignUpsValid (s : AdminStore) : Prop where
  kinded : s.WellKinded
  index : ∀ email v, s.bytesAt (.userByEmail email) = some v →
    normalizeEmail email = email ∧ ∃ id, v = .text id ∧ Registered s id email
  identity : ∀ provider subject v, s.bytesAt (.userByIdentity provider subject) = some v →
    ∃ id email, v = .text id ∧ Registered s id email ∧ Indexed s email id
  listed : ∀ id ∈ s.setAt .userAll, ∃ email, Registered s id email ∧ Indexed s email id
  legacy : ∀ name, s.bytesAt (.userByName name) = none
  holders : ∀ id, Holder s id → Claimed s id

/-- What a sign-up may do: add to the accounts and their index, and write records under ids
    of its own that nothing leads to. -/
structure SignsUp (mine : String → Prop) (s t : AdminStore) : Prop where
  indexed : ∀ email id, Indexed s email id → Indexed t email id
  registered : ∀ id email, Registered s id email → Registered t id email
  listed : ∀ id, id ∈ s.setAt .userAll → id ∈ t.setAt .userAll
  epochs : ∀ id, Claimed s id → epochOf s id ≤ epochOf t id
  others : ∀ id, ¬ mine id → ¬ Claimed s id →
    t.hashAt (.user id) = s.hashAt (.user id) ∧ ¬ Claimed t id

theorem SignsUp.claimed {mine : String → Prop} {s t : AdminStore} (does : SignsUp mine s t)
    {id : String} (claimed : Claimed s id) : Claimed t id := by
  obtain ⟨email, indexed⟩ := claimed
  exact ⟨email, does.indexed email id indexed⟩

theorem SignsUp.refl (mine : String → Prop) (s : AdminStore) : SignsUp mine s s :=
  ⟨fun _ _ same => same, fun _ _ same => same, fun _ same => same, fun _ _ => Nat.le_refl _,
    fun _ _ free => ⟨rfl, free⟩⟩

theorem SignsUp.trans {mine : String → Prop} {s t u : AdminStore} (one : SignsUp mine s t)
    (two : SignsUp mine t u) : SignsUp mine s u where
  indexed := fun email id held => two.indexed email id (one.indexed email id held)
  registered := fun id email held => two.registered id email (one.registered id email held)
  listed := fun id held => two.listed id (one.listed id held)
  epochs := fun id held => Nat.le_trans (one.epochs id held) (two.epochs id (one.claimed held))
  others := by
    intro id other free
    obtain ⟨same, still⟩ := one.others id other free
    obtain ⟨same', still'⟩ := two.others id other still
    exact ⟨same'.trans same, still'⟩

theorem SignsUp.mono {mine wider : String → Prop} {s t : AdminStore} (does : SignsUp mine s t)
    (grown : ∀ id, mine id → wider id) : SignsUp wider s t :=
  ⟨does.indexed, does.registered, does.listed, does.epochs,
    fun id other free => does.others id (fun own => other (grown id own)) free⟩

/-- A sign-up with a drawn id relies on the others to leave that id alone. -/
def signUpTreaty : Treaty String AdminStore where
  valid := SignUpsValid
  rely n := SignsUp (fun id => n ≠ some id)
  guar n := SignsUp (fun id => n = some id)
  untouched id s := s.hashAt (.user id) = ∅ ∧ ¬ Claimed s id
  refl _ s := .refl _ s
  trans _ _ _ _ one two := one.trans two
  agree := by
    intro m n s t apart does
    refine does.mono ?_
    rintro id rfl same
    rcases apart with other | nobody
    · exact other same.symm
    · cases nobody
  leaves := by
    intro m x s t other does untouched
    obtain ⟨same, free⟩ := does.others x other untouched.2
    exact ⟨same.trans untouched.1, free⟩

/-! What the commands of a sign-up do -/

/-- A key under which a credential names its account. -/
def AdminKey.isBearer : AdminKey → Bool
  | .session _ => true
  | .token _ => true
  | .access _ => true
  | _ => false

section Commands
variable {s t : AdminStore}

theorem holder_of_entries (same : ∀ k : AdminKey, k.isBearer = true → t.entry k = s.entry k)
    {id : String} (holder : Holder t id) : Holder s id := by
  cases holder with
  | session token session found own =>
    rw [Storage.bytesAt_of_entry (same (.session token) rfl)] at found
    exact .session token session found own
  | token tokenId v found own =>
    rw [Storage.hashAt_of_entry (same (.token tokenId) rfl)] at found
    exact .token tokenId v found own
  | access hash token found own =>
    rw [Storage.hashAt_of_entry (same (.access hash) rfl)] at found
    exact .access hash token found own

theorem holder_apply (c : Command AdminKey AdminVal) (aside : c.key.isBearer = false)
    {id : String} (holder : Holder (c.apply s) id) : Holder s id := by
  refine holder_of_entries ?_ holder
  intro k bearer
  apply c.entry_apply
  rintro rfl
  rw [bearer] at aside
  cases aside

/-- Stores that agree on the accounts and all that leads to them. -/
structure SameAccounts (s t : AdminStore) : Prop where
  kinded : t.WellKinded
  users : ∀ id, t.hashAt (.user id) = s.hashAt (.user id)
  emails : ∀ email, t.bytesAt (.userByEmail email) = s.bytesAt (.userByEmail email)
  identities : ∀ provider subject, t.bytesAt (.userByIdentity provider subject) =
    s.bytesAt (.userByIdentity provider subject)
  names : ∀ name, t.bytesAt (.userByName name) = s.bytesAt (.userByName name)
  all : t.setAt .userAll = s.setAt .userAll
  holders : ∀ id, Holder t id → Holder s id ∨ Claimed s id

theorem epochOf_of_hash {id : String} (same : t.hashAt (.user id) = s.hashAt (.user id)) :
    epochOf t id = epochOf s id := by
  rw [epochOf, same, epochOf]

theorem SameAccounts.signsUp (same : SameAccounts s t) (mine : String → Prop) :
    SignsUp mine s t := by
  have indexed : ∀ email id, Indexed t email id ↔ Indexed s email id := by
    intro email id
    unfold Indexed
    rw [same.emails]
  refine ⟨fun email id held => (indexed email id).mpr held,
    fun id email => registered_of_hash (same.users id), fun id held => same.all ▸ held,
    fun id _ => (epochOf_of_hash (same.users id)).symm.le, ?_⟩
  intro id _ free
  refine ⟨same.users id, ?_⟩
  rintro ⟨email, held⟩
  exact free ⟨email, (indexed email id).mp held⟩

theorem SameAccounts.valid (same : SameAccounts s t) (valid : SignUpsValid s) :
    SignUpsValid t := by
  have does := same.signsUp (fun _ => False)
  constructor
  · exact same.kinded
  · intro email v found
    rw [same.emails] at found
    obtain ⟨normal, id, rfl, registered⟩ := valid.index email v found
    exact ⟨normal, id, rfl, does.registered id email registered⟩
  · intro provider subject v found
    rw [same.identities] at found
    obtain ⟨id, email, rfl, registered, indexed⟩ := valid.identity provider subject v found
    exact ⟨id, email, rfl, does.registered id email registered, does.indexed email id indexed⟩
  · intro id member
    rw [same.all] at member
    obtain ⟨email, registered, indexed⟩ := valid.listed id member
    exact ⟨email, does.registered id email registered, does.indexed email id indexed⟩
  · intro name
    rw [same.names]
    exact valid.legacy name
  · intro id holder
    rcases same.holders id holder with before | claimed
    · exact does.claimed (valid.holders id before)
    · exact does.claimed claimed

variable (valid : SignUpsValid s)
include valid

/-- Writing an index entry as it already is. -/
theorem same_put_email {email id : String} (indexed : Indexed s email id) :
    SameAccounts s (s.put (.userByEmail email) (.text id) none) := by
  constructor
  · exact Storage.wellKinded_put valid.kinded rfl _ _
  · simp
  · intro email'
    by_cases same : email' = email
    · subst same
      simpa using indexed.symm
    · simp [same]
  · simp
  · simp
  · simp
  · exact fun x holder => .inl (holder_apply (.put (.userByEmail email) (.text id)) rfl holder)

/-- A key that has nothing to do with who an account is. -/
def AdminKey.elsewhere : AdminKey → Bool
  | .user _ => false
  | .userByEmail _ => false
  | .userByIdentity _ _ => false
  | .userByName _ => false
  | .userAll => false
  | _ => true

/-- What expires, or is deleted meanwhile, beside the accounts. -/
def vanish (k : AdminKey) (s : AdminStore) : AdminStore := if k.elsewhere then s.erase k else s

theorem same_elsewhere {c : Command AdminKey AdminVal} (typed : c.Typed)
    (elsewhere : c.key.elsewhere = true)
    (holders : ∀ id, Holder (c.apply s) id → Holder s id ∨ Claimed s id) :
    SameAccounts s (c.apply s) := by
  have entry : ∀ k : AdminKey, k.elsewhere = false → (c.apply s).entry k = s.entry k := by
    intro k here
    apply c.entry_apply
    rintro rfl
    simp [elsewhere] at here
  refine ⟨c.wellKinded_apply typed valid.kinded, ?_, ?_, ?_, ?_, ?_, holders⟩
  · exact fun id => Storage.hashAt_of_entry (entry _ rfl)
  · exact fun email => Storage.bytesAt_of_entry (entry _ rfl)
  · exact fun provider subject => Storage.bytesAt_of_entry (entry _ rfl)
  · exact fun name => Storage.bytesAt_of_entry (entry _ rfl)
  · exact Storage.setAt_of_entry (entry _ rfl)

/-- A field of a bearer token is written, its owner an account that is there. -/
theorem same_token_field {id f : String} {v : AdminVal}
    (owned : f = "owner_id" → ∀ owner, v.utf8 = some owner → Claimed s owner) :
    SameAccounts s ((Command.setField (.token id) f v).apply s) := by
  refine same_elsewhere valid rfl rfl ?_
  intro x holder
  cases holder with
  | session token session found own =>
    simp only [Command.apply, Storage.bytesAt_putHash] at found
    rw [if_neg (by simp)] at found
    exact .inl (.session token session found own)
  | token tokenId w found own =>
    simp only [Command.apply, Storage.hashAt_putHash] at found
    split at found
    · rename_i same
      cases same
      rw [lookup_insert] at found
      split at found
      · rename_i owner
        cases found
        exact .inr (owned owner.symm x own)
      · exact .inl (.token id w found own)
    · exact .inl (.token tokenId w found own)
  | access hash token found own =>
    simp only [Command.apply, Storage.hashAt_putHash] at found
    rw [if_neg (by simp)] at found
    exact .inl (.access hash token found own)

theorem links_identity {provider subject id email : String} (registered : Registered s id email)
    (indexed : Indexed s email id) (mine : String → Prop) :
    SignUpsValid (s.put (.userByIdentity provider subject) (.text id) none) ∧
      SignsUp mine s (s.put (.userByIdentity provider subject) (.text id) none) := by
  have users : ∀ x, (s.put (.userByIdentity provider subject) (.text id) none).hashAt (.user x) =
      s.hashAt (.user x) := by simp
  have emails : ∀ e, (s.put (.userByIdentity provider subject) (.text id) none).bytesAt
      (.userByEmail e) = s.bytesAt (.userByEmail e) := by simp
  have does : SignsUp mine s (s.put (.userByIdentity provider subject) (.text id) none) := by
    refine ⟨?_, fun x e => registered_of_hash (users x), by simp,
      fun x _ => (epochOf_of_hash (users x)).symm.le, ?_⟩
    · intro e x held
      unfold Indexed
      rw [emails]
      exact held
    · intro x _ free
      refine ⟨users x, ?_⟩
      rintro ⟨e, held⟩
      unfold Indexed at held
      rw [emails] at held
      exact free ⟨e, held⟩
  refine ⟨⟨Storage.wellKinded_put valid.kinded rfl _ _, ?_, ?_, ?_, ?_, ?_⟩, does⟩
  · intro e v found
    rw [emails] at found
    obtain ⟨normal, x, rfl, whole⟩ := valid.index e v found
    exact ⟨normal, x, rfl, does.registered x e whole⟩
  · intro provider' subject' v found
    by_cases same : AdminKey.userByIdentity provider' subject' = .userByIdentity provider subject
    · simp only [Storage.bytesAt_put, if_pos same, Option.some.injEq] at found
      exact ⟨id, email, found.symm, does.registered id email registered,
        does.indexed email id indexed⟩
    · simp only [Storage.bytesAt_put, if_neg same] at found
      obtain ⟨x, e, rfl, whole, held⟩ := valid.identity provider' subject' v found
      exact ⟨x, e, rfl, does.registered x e whole, does.indexed e x held⟩
  · intro x member
    simp only [Storage.setAt_put] at member
    rw [if_neg (by simp)] at member
    obtain ⟨e, whole, held⟩ := valid.listed x member
    exact ⟨e, does.registered x e whole, does.indexed e x held⟩
  · intro name
    simpa using valid.legacy name
  · intro x holder
    exact does.claimed (valid.holders x
      (holder_apply (.put (.userByIdentity provider subject) (.text id)) rfl holder))

/-- Changing one record, all else the same: the record of an account that stays whole, or one
    of the program's own that nothing leads to. -/
theorem writes_record {id : String} {h : Fields AdminVal} {mine : String → Prop}
    (own : Claimed s id ∨ mine id)
    (whole : ∀ email, Registered s id email → Registered (s.putHash (.user id) h) id email)
    (onward : Claimed s id → epochOf s id ≤ epochOf (s.putHash (.user id) h) id) :
    SignUpsValid (s.putHash (.user id) h) ∧ SignsUp mine s (s.putHash (.user id) h) := by
  have emails : ∀ e, (s.putHash (.user id) h).bytesAt (.userByEmail e) =
      s.bytesAt (.userByEmail e) := by simp
  have registered : ∀ x e, Registered s x e → Registered (s.putHash (.user id) h) x e := by
    intro x e before
    by_cases same : x = id
    · subst same
      exact whole e before
    · exact registered_of_hash (by simp [same]) before
  have does : SignsUp mine s (s.putHash (.user id) h) := by
    refine ⟨?_, registered, by simp, ?_, ?_⟩
    · intro e x held
      unfold Indexed
      rw [emails]
      exact held
    · intro x claimed
      by_cases same : x = id
      · subst same
        exact onward claimed
      · exact (epochOf_of_hash (by simp [same])).symm.le
    · intro x other free
      have apart : x ≠ id := by
        rintro rfl
        rcases own with claimed | own
        · exact free claimed
        · exact other own
      refine ⟨by simp [apart], ?_⟩
      rintro ⟨e, held⟩
      unfold Indexed at held
      rw [emails] at held
      exact free ⟨e, held⟩
  refine ⟨⟨Storage.wellKinded_putHash valid.kinded rfl _, ?_, ?_, ?_, ?_, ?_⟩, does⟩
  · intro e v found
    rw [emails] at found
    obtain ⟨normal, x, rfl, before⟩ := valid.index e v found
    exact ⟨normal, x, rfl, registered x e before⟩
  · intro provider subject v found
    simp only [Storage.bytesAt_putHash] at found
    rw [if_neg (by simp)] at found
    obtain ⟨x, e, rfl, before, held⟩ := valid.identity provider subject v found
    exact ⟨x, e, rfl, registered x e before, does.indexed e x held⟩
  · intro x member
    simp only [Storage.setAt_putHash] at member
    rw [if_neg (by simp)] at member
    obtain ⟨e, before, held⟩ := valid.listed x member
    exact ⟨e, registered x e before, does.indexed e x held⟩
  · intro name
    simpa using valid.legacy name
  · intro x holder
    refine does.claimed (valid.holders x (holder_of_entries ?_ holder))
    intro k bearer
    apply Storage.entry_write_ne
    rintro rfl
    cases bearer

/-- The admin flag of an account changes nothing about whose email it is. -/
theorem writes_flag {id : String} (claimed : Claimed s id) (isAdmin : Bool)
    {mine : String → Prop} :
    SignUpsValid ((Command.setField (.user id) "is_admin" (AdminVal.flag isAdmin)).apply s) ∧
      SignsUp mine s
        ((Command.setField (.user id) "is_admin" (AdminVal.flag isAdmin)).apply s) := by
  refine writes_record valid (.inl claimed) (fun e whole => registered_flag whole isAdmin) ?_
  intro _
  simp [epochOf, decodeSessionEpoch]

/-- The claim of an email that nobody has, for a record that is whole. -/
theorem claims_email {email id : String} (normal : normalizeEmail email = email)
    (free : s.bytesAt (.userByEmail email) = none) (registered : Registered s id email)
    {mine : String → Prop} (own : mine id) :
    SignUpsValid (s.put (.userByEmail email) (.text id) none) ∧
      SignsUp mine s (s.put (.userByEmail email) (.text id) none) := by
  have users : ∀ x, (s.put (.userByEmail email) (.text id) none).hashAt (.user x) =
      s.hashAt (.user x) := by simp
  have emails : ∀ e, (s.put (.userByEmail email) (.text id) none).bytesAt (.userByEmail e) =
      if e = email then some (.text id) else s.bytesAt (.userByEmail e) := by simp
  have whole : ∀ x e, Registered s x e →
      Registered (s.put (.userByEmail email) (.text id) none) x e :=
    fun x e => registered_of_hash (users x)
  have indexed : ∀ e x, Indexed s e x → Indexed
      (s.put (.userByEmail email) (.text id) none) e x := by
    intro e x held
    have other : e ≠ email := by
      rintro rfl
      rw [Indexed, free] at held
      cases held
    rw [Indexed, emails, if_neg other]
    exact held
  refine ⟨⟨Storage.wellKinded_put valid.kinded rfl _ _, ?_, ?_, ?_, ?_, ?_⟩,
    ⟨indexed, whole, by simp, fun x _ => (epochOf_of_hash (users x)).symm.le, ?_⟩⟩
  · intro e v found
    rw [emails] at found
    split at found
    · rename_i same
      subst same
      cases found
      exact ⟨normal, id, rfl, whole id e registered⟩
    · obtain ⟨normal', x, rfl, before⟩ := valid.index e v found
      exact ⟨normal', x, rfl, whole x e before⟩
  · intro provider subject v found
    simp only [Storage.bytesAt_put] at found
    rw [if_neg (by simp)] at found
    obtain ⟨x, e, rfl, before, held⟩ := valid.identity provider subject v found
    exact ⟨x, e, rfl, whole x e before, indexed e x held⟩
  · intro x member
    simp only [Storage.setAt_put] at member
    rw [if_neg (by simp)] at member
    obtain ⟨e, before, held⟩ := valid.listed x member
    exact ⟨e, whole x e before, indexed e x held⟩
  · intro name
    simpa using valid.legacy name
  · intro x holder
    obtain ⟨e, held⟩ := valid.holders x
      (holder_apply (.put (.userByEmail email) (.text id)) rfl holder)
    exact ⟨e, indexed e x held⟩
  · intro x other unclaimed
    refine ⟨users x, ?_⟩
    rintro ⟨e, held⟩
    rw [Indexed, emails] at held
    split at held
    · cases held
      exact other own
    · exact unclaimed ⟨e, held⟩

theorem lists_account {id email : String} (registered : Registered s id email)
    (indexed : Indexed s email id) (mine : String → Prop) :
    SignUpsValid (s.addMember .userAll id) ∧ SignsUp mine s (s.addMember .userAll id) := by
  have users : ∀ x, (s.addMember .userAll id).hashAt (.user x) = s.hashAt (.user x) := by simp
  have emails : ∀ e, (s.addMember .userAll id).bytesAt (.userByEmail e) =
      s.bytesAt (.userByEmail e) := by simp
  have does : SignsUp mine s (s.addMember .userAll id) := by
    refine ⟨?_, fun x e => registered_of_hash (users x), ?_,
      fun x _ => (epochOf_of_hash (users x)).symm.le, ?_⟩
    · intro e x held
      rw [Indexed, emails]
      exact held
    · intro x member
      simp only [Storage.setAt_addMember, if_true]
      exact List.mem_insert_of_mem member
    · intro x _ free
      refine ⟨users x, ?_⟩
      rintro ⟨e, held⟩
      rw [Indexed, emails] at held
      exact free ⟨e, held⟩
  refine ⟨⟨Storage.wellKinded_addMember valid.kinded rfl _, ?_, ?_, ?_, ?_, ?_⟩, does⟩
  · intro e v found
    rw [emails] at found
    obtain ⟨normal, x, rfl, whole⟩ := valid.index e v found
    exact ⟨normal, x, rfl, does.registered x e whole⟩
  · intro provider subject v found
    simp only [Storage.bytesAt_addMember] at found
    rw [if_neg (by simp)] at found
    obtain ⟨x, e, rfl, whole, held⟩ := valid.identity provider subject v found
    exact ⟨x, e, rfl, does.registered x e whole, does.indexed e x held⟩
  · intro x member
    simp only [Storage.setAt_addMember, if_true] at member
    rcases List.mem_insert_iff.mp member with rfl | old
    · exact ⟨email, does.registered x email registered, does.indexed email x indexed⟩
    · obtain ⟨e, whole, held⟩ := valid.listed x old
      exact ⟨e, does.registered x e whole, does.indexed e x held⟩
  · intro name
    simpa using valid.legacy name
  · intro x holder
    exact does.claimed (valid.holders x (holder_apply (.addMember .userAll id) rfl holder))

end Commands


/-! Programs among sign-ups -/

/-- A program with the drawn id `n` that writes no records of its own but those under `mine`. -/
def SafeSignUp {Err A : Type} (n : Option String) (mine : String → Prop)
    (post : Except Err A → AdminStore → Prop) : Prog AdminStore Err A → AdminStore → Prop :=
  Safe SignUpsValid (SignsUp (fun id => n ≠ some id)) (SignsUp mine) post

/-- Accounts, their index and their list only grow. -/
abbrev AccountsGrow (s t : AdminStore) : Prop := SignsUp (fun _ => True) s t

section Programs
variable {Err A B : Type} {n : Option String} {mine : String → Prop}
  {post : Except Err A → AdminStore → Prop} {s : AdminStore}

theorem safe_seq_signUp {first : Except Err B → AdminStore → Prop} {p : Prog AdminStore Err B}
    {k : B → Prog AdminStore Err A} (valid : SignUpsValid s) (safe : SafeSignUp n mine first p s)
    (resume : ∀ b t, SignUpsValid t → AccountsGrow s t → first (.ok b) t →
      SafeSignUp n mine post (k b) t)
    (fails : ∀ e t, SignUpsValid t → AccountsGrow s t → first (.error e) t → post (.error e) t) :
    SafeSignUp n mine post (p >>= k) s :=
  safe_seq (SignsUp.refl _) (SignsUp.refl _) (fun _ _ _ => SignsUp.trans)
    (fun _ _ does => does.mono (fun _ _ => trivial))
    (fun _ _ does => does.mono (fun _ _ => trivial)) valid safe resume fails

theorem safe_answer {a : A} (stable : ∀ t, SignUpsValid t → AccountsGrow s t → post (.ok a) t) :
    SafeSignUp n mine post (pure a) s :=
  safe_pure (fun t other valid => stable t valid (other.mono (fun _ _ => trivial)))

/-- What holds from one growth of the accounts to the next still holds at the end. -/
theorem safe_grown (fact : AdminStore → Prop) (stable : ∀ t u, fact t → AccountsGrow t u → fact u)
    {p : Prog AdminStore Err A} (safe : SafeSignUp n mine post p s) (holds : fact s) :
    SafeSignUp n mine (fun r t => post r t ∧ fact t) p s :=
  safe_carry (fun t u held other _ => stable t u held (other.mono (fun _ _ => trivial)))
    (fun t u held does _ => stable t u held (does.mono (fun _ _ => trivial))) safe holds

/-- A read of the store. -/
theorem safe_read {p : Prog AdminStore Err A} (one : Single p)
    (reads : ∀ t, SignUpsValid t → AccountsGrow s t → ∃ r, run p t = (r, t) ∧
      ∀ u, SignUpsValid u → AccountsGrow t u → post r u) : SafeSignUp n mine post p s := by
  apply safe_single one
  intro t other valid
  obtain ⟨r, ran, stable⟩ := reads t valid (other.mono (fun _ _ => trivial))
  exact ⟨r, t, ran, valid, .refl _ _,
    fun u other' valid' => stable u valid' (other'.mono (fun _ _ => trivial))⟩

/-- A command of a program. -/
theorem safe_write [FromStoreError AdminKey Err] {c : Command AdminKey AdminVal} (typed : c.Typed)
    {holds : AdminStore → Prop}
    (writes : ∀ t, SignUpsValid t → SignsUp (fun id => n ≠ some id) s t →
      (SignUpsValid (c.apply t) ∧ SignsUp mine t (c.apply t)) ∧
      ∀ u, SignUpsValid u → SignsUp (fun id => n ≠ some id) (c.apply t) u → holds u) :
    SafeSignUp n mine (fun (r : Except Err Unit) u => r = .ok () ∧ holds u) c.prog s := by
  apply safe_single c.single_prog
  intro t other valid
  obtain ⟨⟨after, does⟩, stable⟩ := writes t valid other
  have leads : Leads _ (c.prog : Prog AdminStore Err Unit) t () (c.apply t) := c.leads_prog typed t
  exact ⟨_, _, leads.run_eq valid.kinded, after, does,
    fun u other' valid' => ⟨rfl, stable u valid' other'⟩⟩

/-- The same, followed by the rest of the program. -/
theorem safe_then [FromStoreError AdminKey Err] {c : Command AdminKey AdminVal} (typed : c.Typed)
    {rest : Prog AdminStore Err A}
    (valid : SignUpsValid s) (holds : AdminStore → Prop)
    (writes : ∀ t, SignUpsValid t → SignsUp (fun id => n ≠ some id) s t →
      (SignUpsValid (c.apply t) ∧ SignsUp mine t (c.apply t)) ∧
      ∀ u, SignUpsValid u → SignsUp (fun id => n ≠ some id) (c.apply t) u → holds u)
    (resume : ∀ t, SignUpsValid t → AccountsGrow s t → holds t → SafeSignUp n mine post rest t) :
    SafeSignUp n mine post (c.prog >>= fun _ => rest) s := by
  refine safe_seq_signUp valid (safe_write typed writes) ?_ ?_
  · exact fun _ t valid' grows here => resume t valid' grows here.2
  · rintro e t _ _ ⟨wrong, _⟩
    cases wrong

/-! Looking for an account -/

theorem single_readUserById (id : String) : Single (readUserById id) := by
  apply single_bind (single_atomic _)
  intro fields
  show Finished (if fields.entries.isEmpty then _ else _)
  split
  · trivial
  · cases decodeUser fields <;> trivial

/-- A user as it was read: an account under its email, whose epoch is not behind. -/
structure UserStands (user : User) (s : AdminStore) : Prop where
  registered : Registered s user.id user.email
  indexed : Indexed s user.email user.id
  stamped : user.sessionEpoch ≤ epochOf s user.id

theorem UserStands.later {user : User} {t : AdminStore} (stands : UserStands user s)
    (does : SignsUp mine s t) : UserStands user t where
  registered := does.registered _ _ stands.registered
  indexed := does.indexed _ _ stands.indexed
  stamped := Nat.le_trans stands.stamped (does.epochs _ ⟨_, stands.indexed⟩)

/-- The record of an account that is there is read whole. -/
theorem safe_readUserById {id email : String} (registered : Registered s id email)
    (indexed : Indexed s email id) :
    SafeSignUp n mine (fun r t => ∃ user, r = .ok (some user) ∧ user.id = id ∧
      user.email = email ∧ UserStands user t) (readUserById id) s := by
  apply safe_read (single_readUserById id)
  intro t valid grows
  have whole := grows.registered id email registered
  obtain ⟨user, answer, rfl, rfl⟩ := registered_answer whole
  have stands : UserStands user t :=
    ⟨whole, grows.indexed _ _ indexed, (answer_epoch answer).le⟩
  refine ⟨_, run_readUserById valid.kinded user.id, ?_⟩
  rw [answer]
  exact fun u _ later => ⟨user, rfl, rfl, rfl, stands.later later⟩

/-- An account that is found by an email is the one the email leads to. -/
def FoundBy (email : String) (r : Except AuthError (Option User)) (s : AdminStore) : Prop :=
  r = .ok none ∨
    ∃ user, r = .ok (some user) ∧ user.email = email ∧ UserStands user s

theorem safe_scanUsers (valid : SignUpsValid s) (email : String) (ids : List String)
    (listed : ∀ id ∈ ids, ∃ e, Registered s id e ∧ Indexed s e id) :
    SafeSignUp n mine (FoundBy email) (scanUsers email ids) s := by
  induction ids generalizing s with
  | nil => exact safe_answer (fun t _ _ => .inl rfl)
  | cons id rest ih =>
    obtain ⟨e, registered, indexed⟩ := listed id List.mem_cons_self
    refine safe_seq_signUp valid (safe_readUserById registered indexed) ?_ ?_
    · rintro _ t valid' grows ⟨user, answer, rfl, rfl, stands⟩
      cases answer
      show SafeSignUp n mine _ (if user.email = email then _ else _) t
      split
      · rename_i same
        subst same
        have found : ∀ u, AccountsGrow t u → FoundBy user.email (.ok (some user)) u := by
          exact fun u later => .inr ⟨user, rfl, rfl, stands.later later⟩
        by_cases address : user.email.toList.contains '@'
        · rw [if_pos address]
          refine safe_then (c := .put (.userByEmail user.email) (.text user.id)) rfl valid'
            (fun _ => True) ?_ ?_
          · intro u valid'' other
            have same := same_put_email valid'' (other.indexed _ _ stands.indexed)
            exact ⟨⟨same.valid valid'', same.signsUp mine⟩, fun _ _ _ => trivial⟩
          · intro u _ grows' _
            exact safe_answer (fun v _ later => found v (grows'.trans later))
        · rw [if_neg address]
          exact safe_answer (fun u _ later => found u later)
      · apply ih valid'
        intro x member
        obtain ⟨e', whole, held⟩ := listed x (List.mem_cons_of_mem _ member)
        exact ⟨e', grows.registered x e' whole, grows.indexed e' x held⟩
    · rintro e t _ _ ⟨user, answer, _⟩
      cases answer

theorem safe_scanAllUsers (valid : SignUpsValid s) (email : String) :
    SafeSignUp n mine (FoundBy email) (scanAllUsers email) s := by
  have reads : SafeSignUp n mine (fun r t => ∃ ids, r = .ok ids ∧
      ∀ id ∈ ids, ∃ e, Registered t id e ∧ Indexed t e id)
      (Bucket.setMembers .userAll : AuthProg _) s := by
    apply safe_read (single_atomic _)
    intro t valid' _
    refine ⟨_, run_setMembers valid'.kinded rfl, ?_⟩
    intro u _ later
    refine ⟨_, rfl, ?_⟩
    intro id member
    obtain ⟨e, registered, indexed⟩ := valid'.listed id member
    exact ⟨e, later.registered id e registered, later.indexed e id indexed⟩
  refine safe_seq_signUp valid reads ?_ ?_
  · rintro ids t valid' _ ⟨_, same, listed⟩
    cases same
    exact safe_scanUsers valid' email ids listed
  · rintro e t _ _ ⟨_, same, _⟩
    cases same

/-- No index entry is ever found stale. -/
theorem safe_findUserByEmail (valid : SignUpsValid s) (email : String) :
    SafeSignUp n mine (FoundBy email) (findUserByEmail email) s := by
  have reads : SafeSignUp n mine (fun r t => r = .ok none ∨ ∃ id, r = .ok (some (.text id)) ∧
      Registered t id email ∧ Indexed t email id)
      (Bucket.get (.userByEmail email) : AuthProg _) s := by
    apply safe_read (single_atomic _)
    intro t valid' _
    refine ⟨_, run_get valid'.kinded rfl, ?_⟩
    intro u _ later
    cases found : t.bytesAt (.userByEmail email) with
    | none => exact .inl rfl
    | some v =>
      obtain ⟨_, id, rfl, registered⟩ := valid'.index email v found
      exact .inr ⟨id, rfl, later.registered id email registered, later.indexed email id found⟩
  refine safe_seq_signUp valid reads ?_ ?_
  · rintro _ t valid' _ (same | ⟨id, same, registered, indexed⟩)
    · cases same
      exact safe_scanAllUsers valid' email
    · cases same
      show SafeSignUp n mine _ (readUserById id >>= _) t
      refine safe_seq_signUp valid' (safe_readUserById registered indexed) ?_ ?_
      · rintro _ u _ _ ⟨user, answer, rfl, rfl, stands⟩
        cases answer
        show SafeSignUp n mine _ (if user.email = user.email then _ else _) u
        rw [if_pos rfl]
        exact safe_answer (fun v _ later => .inr ⟨user, rfl, rfl, stands.later later⟩)
      · rintro e u _ _ ⟨user, answer, _⟩
        cases answer
  · rintro e t _ _ (same | ⟨_, same, _⟩)
    · cases same
    · cases same

end Programs

/-! Making an account -/

/-- What is under a drawn id that nothing leads to. -/
def Owns (x : String) (h : Fields AdminVal) (s : AdminStore) : Prop :=
  s.hashAt (.user x) = h ∧ ¬ Claimed s x

/-- A program that writes the record under its drawn id. -/
abbrev SafeOwner {A : Type} (x : String) (post : Except AuthError A → AdminStore → Prop)
    (p : AuthProg A) (s : AdminStore) : Prop :=
  SafeSignUp (some x) (fun id => some x = some id) post p s

section Making
variable {A : Type} {x : String} {post : Except AuthError A → AdminStore → Prop} {s t : AdminStore}
  {h : Fields AdminVal}

theorem Owns.kept (owns : Owns x h s) (other : SignsUp (fun id => some x ≠ some id) s t) :
    Owns x h t := by
  obtain ⟨same, free⟩ := other.others x (fun different => different rfl) owns.2
  exact ⟨same.trans owns.1, free⟩

/-- A program that writes no records leaves what is owned. -/
theorem safe_owned {p : AuthProg A} (safe : SafeSignUp (some x) (fun _ => False) post p s)
    (owns : Owns x h s) : SafeOwner x (fun r t => post r t ∧ Owns x h t) p s := by
  have carried := safe_carry (fun _ _ owns other _ => Owns.kept owns other)
    (fun t u (owns : Owns x h t) does _ => by
      obtain ⟨same, free⟩ := does.others x (fun impossible => impossible) owns.2
      exact ⟨same.trans owns.1, free⟩) safe owns
  exact safe_guar (fun _ _ does => does.mono (fun _ impossible => impossible.elim)) carried

theorem writes_owned (valid : SignUpsValid s) (owns : Owns x h s)
    (unfinished : h.lookup "session_epoch" = none) (f : String) (v : AdminVal) :
    (SignUpsValid ((Command.setField (.user x) f v).apply s) ∧
      SignsUp (fun id => some x = some id) s ((Command.setField (.user x) f v).apply s)) ∧
      Owns x (h.insert f v) ((Command.setField (.user x) f v).apply s) := by
  obtain ⟨same, free⟩ := owns
  refine ⟨writes_record valid (.inr rfl) ?_ (fun claimed => absurd claimed free), ?_, ?_⟩
  · intro email registered
    obtain ⟨n, epoch, _⟩ := registered.epochField
    rw [same, unfinished] at epoch
    cases epoch
  · simp [Command.apply, same]
  · rintro ⟨email, held⟩
    simp only [Indexed, Command.apply, Storage.bytesAt_putHash] at held
    rw [if_neg (by simp)] at held
    exact free ⟨email, held⟩

theorem safe_field {f : String} {v : AdminVal} {rest : AuthProg A} (valid : SignUpsValid s)
    (owns : Owns x h s) (unfinished : h.lookup "session_epoch" = none)
    (resume : ∀ t, SignUpsValid t → Owns x (h.insert f v) t → SafeOwner x post rest t) :
    SafeOwner x post ((Command.setField (.user x) f v).prog >>= fun _ => rest) s := by
  refine safe_then (c := .setField (.user x) f v) rfl valid (Owns x (h.insert f v)) ?_ ?_
  · intro t valid' other
    obtain ⟨does, owned⟩ := writes_owned valid' (owns.kept other) unfinished f v
    exact ⟨does, fun u _ other' => owned.kept other'⟩
  · exact fun t valid' _ owned => resume t valid' owned

def userFields (user : User) : Fields AdminVal :=
  ((((AList.insert "id" (.text user.id) (∅ : Fields AdminVal)).insert "primary_email"
    (.text user.email)).insert "is_admin" (AdminVal.flag user.isAdmin)).insert "created_at"
    (.time user.createdAt)).insert "session_epoch" (.int 0)

theorem registered_fields {user : User} (whole : s.hashAt (.user user.id) = userFields user) :
    Registered s user.id user.email := by
  constructor
  · simp [whole, userFields, -AList.insert_empty]
  · simp [whole, userFields, -AList.insert_empty]
  · exact ⟨user.isAdmin, by simp [whole, userFields, -AList.insert_empty]⟩
  · exact ⟨user.createdAt, by simp [whole, userFields, -AList.insert_empty]⟩
  · exact ⟨0, by simp [whole, userFields, -AList.insert_empty], by decide⟩

theorem safe_writeUserFields (valid : SignUpsValid s) (user : User) (owns : Owns user.id ∅ s) :
    SafeOwner user.id (fun r t => r = .ok () ∧ Owns user.id (userFields user) t)
      (writeUserFields user) s := by
  refine safe_field valid owns (by simp) ?_
  intro t valid owns
  refine safe_field valid owns (by simp [-AList.insert_empty]) ?_
  intro t valid owns
  refine safe_field valid owns (by simp [-AList.insert_empty]) ?_
  intro t valid owns
  refine safe_field valid owns (by simp [-AList.insert_empty]) ?_
  intro t valid owns
  apply safe_write (c := .setField (.user user.id) "session_epoch" (.int 0)) rfl
  intro u valid' other
  obtain ⟨does, owned⟩ := writes_owned valid' (owns.kept other) (by simp [-AList.insert_empty])
    "session_epoch" (.int 0)
  exact ⟨does, fun v _ other' => owned.kept other'⟩

/-- A new account is made under the drawn id, or the email is another account's. -/
def MadeOrTaken (x email : String) (r : Except AuthError User) (s : AdminStore) : Prop :=
  (∃ user, r = .ok user ∧ user.id = x ∧ user.email = email ∧ UserStands user s ∧
    x ∈ s.setAt .userAll) ∨
  (r = .error (.emailTaken email) ∧ ¬ Claimed s x ∧ ∃ id, Indexed s email id)

/-- The claim of the email decides. -/
theorem safe_claimEmail (valid : SignUpsValid s) (user : User) (first : user.sessionEpoch = 0)
    (normal : normalizeEmail user.email = user.email)
    (owns : Owns user.id (userFields user) s) :
    SafeOwner user.id (MadeOrTaken user.id user.email) (claimEmail user) s := by
  have claims : SafeOwner user.id (fun r t =>
      (r = .ok true ∧ Registered t user.id user.email ∧ Indexed t user.email user.id) ∨
      (r = .ok false ∧ ¬ Claimed t user.id ∧ ∃ id, Indexed t user.email id))
      (Bucket.setIfAbsent (.userByEmail user.email) (.text user.id)) s := by
    apply safe_single (single_atomic _)
    intro t other valid'
    have owned := owns.kept other
    have ran : run (Bucket.setIfAbsent (.userByEmail user.email) (.text user.id) : AuthProg Bool) t
        = _ := run_setIfAbsent valid'.kinded rfl (.text user.id)
    cases found : t.bytesAt (.userByEmail user.email) with
    | some v =>
      rw [found] at ran
      obtain ⟨_, id, rfl, _⟩ := valid'.index _ v found
      refine ⟨_, t, ran, valid', .refl _ _, ?_⟩
      intro u other' _
      exact .inr ⟨rfl, (owned.kept other').2, id, other'.indexed _ _ found⟩
    | none =>
      rw [found] at ran
      have registered := registered_fields owned.1
      have claimed : SignUpsValid (t.put (.userByEmail user.email) (.text user.id) none) ∧
          SignsUp (fun id => some user.id = some id) t
            (t.put (.userByEmail user.email) (.text user.id) none) :=
        claims_email valid' normal found registered rfl
      obtain ⟨after, does⟩ := claimed
      refine ⟨_, _, ran, after, does, ?_⟩
      intro u other' _
      refine .inl ⟨rfl, ?_, ?_⟩
      · exact other'.registered _ _ (does.registered _ _ registered)
      · exact other'.indexed _ _ (by simp [Indexed])
  refine safe_seq_signUp valid claims ?_ ?_
  · rintro _ t valid' _ (⟨same, registered, indexed⟩ | ⟨same, free, taken⟩)
    · cases same
      show SafeOwner user.id _ (if ¬ true = true then _ else _) t
      rw [if_neg (by simp)]
      refine safe_then (c := .addMember .userAll user.id) rfl valid'
        (fun u => user.id ∈ u.setAt .userAll) ?_ ?_
      · intro u valid'' other
        refine ⟨lists_account valid'' (other.registered _ _ registered)
          (other.indexed _ _ indexed) _, ?_⟩
        intro v _ other'
        apply other'.listed
        simp [Command.apply]
      · intro u _ grows listed
        have stands : UserStands user t := ⟨registered, indexed, first ▸ Nat.zero_le _⟩
        exact safe_answer (fun v _ later =>
          .inl ⟨user, rfl, rfl, rfl, (stands.later grows).later later, later.listed _ listed⟩)
    · cases same
      show SafeOwner user.id _ (if ¬ false = true then _ else _) t
      rw [if_pos (by simp)]
      intro u other _
      obtain ⟨id, held⟩ := taken
      refine .inr ⟨rfl, ?_, id, other.indexed _ _ held⟩
      exact (other.others user.id (fun different => different rfl) free).2
  · rintro e t _ _ (⟨same, _⟩ | ⟨same, _⟩)
    · cases same
    · cases same

theorem safe_writeNewUser (valid : SignUpsValid s) {email : String}
    (normal : normalizeEmail email = email) (isAdmin : Bool) (now : Time) (owns : Owns x ∅ s) :
    SafeOwner x (MadeOrTaken x email) (writeNewUser email isAdmin x now) s := by
  refine safe_seq_signUp valid (safe_owned (safe_findUserByEmail valid email) owns) ?_ ?_
  · rintro _ t valid' _ ⟨same | ⟨user, same, rfl, stands⟩, owned⟩
    · cases same
      let user := newUser email isAdmin x now
      refine safe_seq_signUp valid' (safe_writeUserFields valid' user owned) ?_ ?_
      · rintro _ u valid'' _ ⟨_, owned'⟩
        exact safe_claimEmail valid'' user rfl normal owned'
      · rintro e u _ _ ⟨same, _⟩
        cases same
    · cases same
      intro u other _
      exact .inr ⟨rfl, (owned.kept other).2, user.id, other.indexed _ _ stands.indexed⟩
  · rintro e t _ _ ⟨same | ⟨_, same, _⟩, _⟩
    · cases same
    · cases same

end Making

/-! Requests -/

inductive SignUp where
  | createUser (email : String) (isAdmin : Bool) (id : String) (now : Time)
  | upsertLocalUser (email : String) (isAdmin : Bool) (id : String) (now : Time)
  | upsertOauthUser (provider subject email : String) (isAdmin : Bool) (id : String) (now : Time)
  | bootstrapAdmin (email plaintext id tokenId : String) (now : Time)

inductive SignUpAnswer where
  | account (user : User)
  | made (new : Bool)
  deriving DecidableEq

namespace SignUp

def id : SignUp → String
  | createUser _ _ id _ => id
  | upsertLocalUser _ _ id _ => id
  | upsertOauthUser _ _ _ _ id _ => id
  | bootstrapAdmin _ _ id _ _ => id

def email : SignUp → String
  | createUser email _ _ _ => normalizeEmail email
  | upsertLocalUser email _ _ _ => normalizeEmail email
  | upsertOauthUser _ _ email _ _ _ => normalizeEmail email
  | bootstrapAdmin email _ _ _ _ => normalizeEmail email

def byIdentity : SignUp → Bool
  | upsertOauthUser _ _ _ _ _ _ => true
  | _ => false

def program [Digest] [DateText] : SignUp → AuthProg SignUpAnswer
  | createUser email isAdmin id now =>
    .account <$> WireMirage.createUser email isAdmin id now
  | upsertLocalUser email isAdmin id now =>
    .account <$> WireMirage.upsertLocalUser email isAdmin id now
  | upsertOauthUser provider subject email isAdmin id now =>
    .account <$> WireMirage.upsertOauthUser provider subject email isAdmin id now
  | bootstrapAdmin email plaintext id tokenId now =>
    .made <$> WireMirage.bootstrapAdmin email plaintext id tokenId now

/-- A sign-up that made its account. -/
def Won (r : SignUp) (answer : Except AuthError SignUpAnswer) (s : AdminStore) : Prop :=
  r.id ∈ s.setAt .userAll ∧ Registered s r.id r.email ∧ Indexed s r.email r.id ∧
    (answer = .ok (.made true) ∨
      ∃ user, answer = .ok (.account user) ∧ user.id = r.id ∧ user.email = r.email)

/-- A sign-up that made none: the email was another's, or there was an account for it. -/
def Lost (r : SignUp) (answer : Except AuthError SignUpAnswer) (s : AdminStore) : Prop :=
  ¬ Claimed s r.id ∧
    (((answer = .error (.emailTaken r.email) ∨ answer = .ok (.made false)) ∧
        ∃ id, Indexed s r.email id) ∨
      ∃ user, answer = .ok (.account user) ∧ Registered s user.id user.email ∧
        Indexed s user.email user.id ∧ (user.email = r.email ∨ r.byIdentity = true))

def Settled (r : SignUp) (answer : Except AuthError SignUpAnswer) (s : AdminStore) : Prop :=
  r.Won answer s ∨ r.Lost answer s

end SignUp

section Requests
variable [Digest] {x : String} {s : AdminStore}

/-- The account that a sign-up ends with: its own new one, or one that was there. -/
def Ends (x email : String) (byIdentity : Bool) (r : Except AuthError User) (s : AdminStore) :
    Prop :=
  MadeOrTaken x email r s ∨ ∃ user, r = .ok user ∧ ¬ Claimed s x ∧ UserStands user s ∧
    (user.email = email ∨ byIdentity = true)

omit [Digest] in
theorem safe_syncAdmin (valid : SignUpsValid s) {user : User} (stands : UserStands user s)
    (free : Owns x ∅ s) (isAdmin : Bool) :
    SafeOwner x (fun r t => ∃ u, r = .ok u ∧ u.email = user.email ∧ Owns x ∅ t ∧ UserStands u t)
      (syncAdmin user isAdmin) s := by
  unfold syncAdmin
  split
  · refine safe_then (c := .setField (.user user.id) "is_admin" (AdminVal.flag isAdmin)) rfl valid
      (fun t => Owns x ∅ t) ?_ ?_
    · intro t valid' other
      have stands' := stands.later other
      have owned := free.kept other
      have apart : x ≠ user.id := by
        rintro rfl
        exact owned.2 ⟨_, stands'.indexed⟩
      refine ⟨writes_flag valid' ⟨_, stands'.indexed⟩ isAdmin, ?_⟩
      · intro u _ other'
        have kept : Owns x ∅ ((Command.setField (.user user.id) "is_admin"
            (AdminVal.flag isAdmin)).apply t) := by
          refine ⟨by simpa [Command.apply, apart] using owned.1, ?_⟩
          rintro ⟨e, held⟩
          simp only [Indexed, Command.apply, Storage.bytesAt_putHash] at held
          rw [if_neg (by simp)] at held
          exact owned.2 ⟨e, held⟩
        exact kept.kept other'
    · intro t _ grows owned u other _
      have stands' := (stands.later grows).later other
      exact ⟨_, rfl, rfl, owned.kept other, ⟨stands'.registered, stands'.indexed,
        stands'.stamped⟩⟩
  · exact fun t other _ => ⟨user, rfl, rfl, free.kept other, stands.later other⟩

omit [Digest] in
/-- Linking an identity to an account that is there. -/
theorem safe_link {n : Option String} {mine : String → Prop} {provider subject id email : String}
    (registered : Registered s id email) (indexed : Indexed s email id) :
    SafeSignUp n mine (fun r _ => r = .ok () ∧ True)
      (Bucket.set (.userByIdentity provider subject) (.text id) : AuthProg Unit) s := by
  apply safe_write (c := .put (.userByIdentity provider subject) (.text id)) rfl
  intro t valid other
  refine ⟨?_, fun _ _ _ => trivial⟩
  exact links_identity valid (other.registered _ _ registered) (other.indexed _ _ indexed) mine

section Beside
omit [Digest]
variable {Err A : Type} [FromStoreError AdminKey Err] {n : Option String} {mine : String → Prop}
  {c : Command AdminKey AdminVal}

/-- A command that changes nothing about the accounts. -/
theorem safe_beside (typed : c.Typed)
    (same : ∀ t, SignUpsValid t → AccountsGrow s t → SameAccounts t (c.apply t)) :
    SafeSignUp n mine (fun (r : Except Err Unit) _ => r = .ok ()) c.prog s := by
  have writes : SafeSignUp n mine (fun (r : Except Err Unit) _ => r = .ok () ∧ True) c.prog s := by
    apply safe_write typed
    intro t valid other
    have stays := same t valid (other.mono (fun _ _ => trivial))
    exact ⟨⟨stays.valid valid, stays.signsUp mine⟩, fun _ _ _ => trivial⟩
  exact safe_weaken writes (fun r _ _ here => here.1)

theorem safe_aside {post : Except Err A → AdminStore → Prop} {rest : Prog AdminStore Err A}
    (valid : SignUpsValid s) (typed : c.Typed)
    (same : ∀ t, SignUpsValid t → AccountsGrow s t → SameAccounts t (c.apply t))
    (resume : ∀ t, SignUpsValid t → AccountsGrow s t → SafeSignUp n mine post rest t) :
    SafeSignUp n mine post (c.prog >>= fun _ => rest) s := by
  refine safe_seq_signUp valid (safe_beside typed same) ?_ ?_
  · exact fun _ t valid' grows _ => resume t valid' grows
  · intro e t _ _ wrong
    cases wrong

end Beside

/-- A token is written beside the accounts. -/
theorem safe_writeNewToken [DateText] {n : Option String} {mine : String → Prop}
    (valid : SignUpsValid s) {ownerId : String} (claimed : Claimed s ownerId)
    (name plaintext id : String) (now : Time) :
    SafeSignUp n mine (fun r _ => ∃ token, r = .ok token)
      (writeNewToken ownerId name plaintext none id now) s := by
  let token := newToken ownerId name plaintext none id now
  have other : ∀ (f : String) (v : AdminVal), f ≠ "owner_id" → ∀ s t, SignUpsValid t →
      AccountsGrow s t → SameAccounts t ((Command.setField (.token id) f v).apply t) :=
    fun f v different s t valid _ =>
      same_token_field valid (fun same => absurd same different)
  have index : ∀ c : Command AdminKey AdminVal, c.Typed → c.key.elsewhere = true →
      c.key.isBearer = false → ∀ s t, SignUpsValid t → AccountsGrow s t →
      SameAccounts t (c.apply t) :=
    fun c typed elsewhere aside s t valid _ =>
      same_elsewhere valid typed elsewhere (fun x holder => .inl (holder_apply c aside holder))
  have fields : SafeSignUp n mine (fun r _ => r = .ok ()) (writeTokenFields token) s := by
    refine safe_aside (c := .setField (.token id) "id" (.text id)) valid rfl
      (other _ _ (by decide) s) ?_
    intro t valid grows
    refine safe_aside (c := .setField (.token id) "name" (.text name)) valid rfl
      (other _ _ (by decide) t) ?_
    intro t' valid grows'
    refine safe_aside (c := .setField (.token id) "owner_id" (.text ownerId)) valid rfl ?_ ?_
    · intro u valid grows''
      refine same_token_field valid (fun _ owner same => ?_)
      cases same
      exact ((grows.trans grows').trans grows'').claimed claimed
    intro t valid _
    refine safe_aside (c := .setField (.token id) "hash" (.text token.hash)) valid rfl
      (other _ _ (by decide) t) ?_
    intro t valid _
    refine safe_aside (c := .setField (.token id) "created_at" (.time now)) valid rfl
      (other _ _ (by decide) t) ?_
    intro t valid _
    exact safe_beside (c := .setField (.token id) "scopes" (.scopes token.scopes)) rfl
      (other _ _ (by decide) t)
  refine safe_seq_signUp valid fields ?_ ?_
  · intro _ t valid _ _
    refine safe_aside (c := .put (.tokenByHash token.hash) (.text id)) valid rfl
      (index (.put (.tokenByHash token.hash) (.text id)) rfl rfl rfl t) ?_
    intro t valid _
    refine safe_aside (c := .put (.tokenByName ownerId name) (.text id)) valid rfl
      (index (.put (.tokenByName ownerId name) (.text id)) rfl rfl rfl t) ?_
    intro t valid _
    refine safe_aside (c := .addMember (.tokenByOwner ownerId) id) valid rfl
      (index (.addMember (.tokenByOwner ownerId) id) rfl rfl rfl t) ?_
    intro t valid _
    exact safe_answer (fun _ _ _ => ⟨token, rfl⟩)
  · intro e t _ _ wrong
    cases wrong

omit [Digest] in
/-- A new account that an identity is linked to at once. -/
theorem safe_newLinked (valid : SignUpsValid s) {provider subject email : String}
    {byIdentity : Bool} (normal : normalizeEmail email = email) (isAdmin : Bool) (now : Time)
    (owns : Owns x ∅ s) : SafeOwner x (Ends x email byIdentity)
      (writeNewUser email isAdmin x now >>= fun user =>
        Bucket.set (.userByIdentity provider subject) (.text user.id) >>=
          fun _ => pure user) s := by
  refine safe_seq_signUp valid (safe_writeNewUser valid normal isAdmin now owns) ?_ ?_
  · rintro user t valid' _ (⟨_, same, rfl, rfl, stands, listed⟩ | ⟨same, _⟩)
    · cases same
      refine safe_seq_signUp valid' (safe_link stands.registered stands.indexed) ?_ ?_
      · intro _ u _ grows _
        exact safe_answer (fun v _ later => .inl (.inl ⟨user, rfl, rfl, rfl,
          (stands.later grows).later later, later.listed _ (grows.listed _ listed)⟩))
      · rintro e u _ _ ⟨wrong, _⟩
        cases wrong
    · cases same
  · rintro _ t _ _ (⟨_, same, _⟩ | ⟨same, free, taken⟩)
    · cases same
    · cases same
      exact .inl (.inr ⟨rfl, free, taken⟩)

omit [Digest] in
theorem safe_upsertLocalUser (valid : SignUpsValid s) (email : String) (isAdmin : Bool)
    (now : Time) (owns : Owns x ∅ s) :
    SafeOwner x (Ends x (normalizeEmail email) false) (upsertLocalUser email isAdmin x now) s := by
  unfold upsertLocalUser
  have normal := normalizeEmail_idem email
  generalize normalizeEmail email = e at normal
  refine safe_seq_signUp valid (safe_owned (safe_findUserByEmail valid e) owns) ?_ ?_
  · rintro _ t valid' _ ⟨same | ⟨user, same, rfl, stands⟩, owned⟩
    · cases same
      exact safe_newLinked valid' normal isAdmin now owned
    · cases same
      refine safe_seq_signUp valid' (safe_syncAdmin valid' stands owned isAdmin) ?_ ?_
      · rintro user' u valid'' _ ⟨_, same, sameEmail, owned', stands'⟩
        cases same
        refine safe_seq_signUp valid''
          (safe_owned (safe_link stands'.registered stands'.indexed) owned') ?_ ?_
        · rintro _ v _ grows ⟨_, owned''⟩ w other _
          exact .inr ⟨user', rfl, (owned''.kept other).2, (stands'.later grows).later other,
            .inl sameEmail⟩
        · rintro e v _ _ ⟨⟨wrong, _⟩, _⟩
          cases wrong
      · rintro e u _ _ ⟨_, same, _⟩
        cases same
  · rintro e t _ _ ⟨same | ⟨_, same, _⟩, _⟩
    · cases same
    · cases same

omit [Digest] in
theorem safe_firstSeenIdentity (valid : SignUpsValid s) (provider subject : String) {email : String}
    (normal : normalizeEmail email = email) (isAdmin : Bool) (now : Time) (owns : Owns x ∅ s) :
    SafeOwner x (Ends x email true)
      (firstSeenIdentity provider subject email isAdmin x now) s := by
  refine safe_seq_signUp valid (safe_owned (safe_findUserByEmail valid email) owns) ?_ ?_
  · rintro _ t valid' _ ⟨same | ⟨user, same, rfl, stands⟩, owned⟩
    · cases same
      exact safe_newLinked valid' normal isAdmin now owned
    · cases same
      refine safe_seq_signUp valid'
        (safe_owned (safe_link stands.registered stands.indexed) owned) ?_ ?_
      · rintro _ u valid'' grows ⟨_, owned'⟩
        refine safe_weaken (safe_syncAdmin valid'' (stands.later grows) owned' isAdmin) ?_
        rintro _ v _ ⟨user', rfl, sameEmail, owned'', stands'⟩
        exact .inr ⟨user', rfl, owned''.2, stands', .inl sameEmail⟩
      · rintro e u _ _ ⟨⟨wrong, _⟩, _⟩
        cases wrong
  · rintro e t _ _ ⟨same | ⟨_, same, _⟩, _⟩
    · cases same
    · cases same

omit [Digest] in
/-- An account with an email only has its index entry written again. -/
theorem safe_backfillEmail {n : Option String} {mine : String → Prop} (valid : SignUpsValid s)
    {user : User} (registered : Registered s user.id user.email)
    (indexed : Indexed s user.email user.id) (email : String) :
    SafeSignUp n mine (fun r _ => r = .ok user) (backfillEmail user email) s := by
  have reads : SafeSignUp n mine (fun r t => ∃ fields, r = .ok fields ∧
      (fields.lookup "primary_email").isSome)
      (Bucket.hashGetAll (.user user.id) : AuthProg _) s := by
    apply safe_read (single_atomic _)
    intro t valid' grows
    refine ⟨_, run_hashGetAll valid'.kinded rfl, ?_⟩
    intro u _ _
    refine ⟨_, rfl, ?_⟩
    rw [(grows.registered _ _ registered).emailField]
    rfl
  refine safe_seq_signUp valid reads ?_ ?_
  · rintro fields t valid' grows ⟨_, same, present⟩
    cases same
    show SafeSignUp n mine _ (if (fields.lookup "primary_email").isNone then _ else _) t
    have kept : ¬ (fields.lookup "primary_email").isNone = true := by
      rw [Option.isNone_iff_eq_none]
      intro missing
      rw [missing] at present
      cases present
    rw [if_neg kept]
    refine safe_then (c := .put (.userByEmail user.email) (.text user.id)) rfl valid'
      (fun _ => True) ?_ (fun u _ _ _ => safe_answer (fun _ _ _ => rfl))
    intro u valid'' other
    have same := same_put_email valid'' (other.indexed _ _ (grows.indexed _ _ indexed))
    exact ⟨⟨same.valid valid'', same.signsUp mine⟩, fun _ _ _ => trivial⟩
  · rintro e t _ _ ⟨_, same, _⟩
    cases same

omit [Digest] in
theorem safe_upsertOauthUser (valid : SignUpsValid s) (provider subject email : String)
    (isAdmin : Bool) (now : Time) (owns : Owns x ∅ s) :
    SafeOwner x (Ends x (normalizeEmail email) true)
      (upsertOauthUser provider subject email isAdmin x now) s := by
  unfold upsertOauthUser
  have normal := normalizeEmail_idem email
  generalize normalizeEmail email = e at normal
  have reads : SafeSignUp (some x) (fun _ => False) (fun r t => r = .ok none ∨
      ∃ id email, r = .ok (some (.text id)) ∧ Registered t id email ∧ Indexed t email id)
      (Bucket.get (.userByIdentity provider subject) : AuthProg _) s := by
    apply safe_read (single_atomic _)
    intro t valid' _
    refine ⟨_, run_get valid'.kinded rfl, ?_⟩
    intro u _ later
    cases found : t.bytesAt (.userByIdentity provider subject) with
    | none => exact .inl rfl
    | some v =>
      obtain ⟨id, email, rfl, registered, indexed⟩ := valid'.identity provider subject v found
      exact .inr ⟨id, email, rfl, later.registered _ _ registered, later.indexed _ _ indexed⟩
  refine safe_seq_signUp valid (safe_owned reads owns) ?_ ?_
  · rintro _ t valid' _ ⟨same | ⟨id, email', same, registered, indexed⟩, owned⟩
    · cases same
      exact safe_firstSeenIdentity valid' provider subject normal isAdmin now owned
    · cases same
      show SafeOwner x _ (readUserById id >>= _) t
      refine safe_seq_signUp valid' (safe_owned (safe_readUserById registered indexed) owned) ?_ ?_
      · rintro _ u valid'' _ ⟨⟨user, answer, rfl, rfl, stands⟩, owned'⟩
        cases answer
        refine safe_seq_signUp valid'' (safe_syncAdmin valid'' stands owned' isAdmin) ?_ ?_
        · rintro user' v valid3 _ ⟨_, same, _, owned3, stands3⟩
          cases same
          have backfills := safe_owned
            (safe_backfillEmail valid3 stands3.registered stands3.indexed e) owned3
          have stays := safe_grown (UserStands user') (fun _ _ => UserStands.later) backfills
            stands3
          refine safe_weaken stays ?_
          rintro _ w _ ⟨⟨rfl, owned4⟩, stands4⟩
          exact .inr ⟨user', rfl, owned4.2, stands4, .inr rfl⟩
        · rintro e v _ _ ⟨_, same, _⟩
          cases same
      · rintro e u _ _ ⟨⟨_, same, _⟩, _⟩
        cases same
  · rintro e t _ _ ⟨same | ⟨_, _, same, _⟩, _⟩
    · cases same
    · cases same

omit [Digest] in
/-- No record is left under a retired name. -/
theorem safe_adoptBootstrap {n : Option String} {mine : String → Prop} (valid : SignUpsValid s)
    (email : String) :
    SafeSignUp n mine (fun r _ => r = .ok false) (adoptBootstrap email) s := by
  have reads : SafeSignUp n mine (fun r _ => r = .ok none)
      (Bucket.get (.userByName "bootstrap") : AuthProg _) s := by
    apply safe_read (single_atomic _)
    intro t valid' _
    refine ⟨_, run_get valid'.kinded rfl, ?_⟩
    intro u _ _
    rw [valid'.legacy]
  refine safe_seq_signUp valid reads ?_ ?_
  · intro _ t _ _ same
    cases same
    exact safe_answer (fun _ _ _ => rfl)
  · intro e t _ _ same
    cases same

/-- The first admin is made with a token, or there is an account with the email. -/
theorem safe_bootstrapAdmin [DateText] (valid : SignUpsValid s) (email plaintext tokenId : String)
    (now : Time) (owns : Owns x ∅ s) :
    SafeOwner x (fun r t =>
      (r = .ok true ∧ Registered t x (normalizeEmail email) ∧ Indexed t (normalizeEmail email) x ∧
        x ∈ t.setAt .userAll) ∨
      (r = .ok false ∧ ¬ Claimed t x ∧ ∃ id, Indexed t (normalizeEmail email) id))
      (bootstrapAdmin email plaintext x tokenId now) s := by
  unfold bootstrapAdmin
  have normal := normalizeEmail_idem email
  generalize normalizeEmail email = e at normal
  have loses : ∀ {t : AdminStore} {id : String}, Indexed t e id → ¬ Claimed t x →
      SafeOwner x (fun r t =>
        (r = .ok true ∧ Registered t x e ∧ Indexed t e x ∧ x ∈ t.setAt .userAll) ∨
        (r = .ok false ∧ ¬ Claimed t x ∧ ∃ id, Indexed t e id)) (pure false) t := by
    intro t id held free u other _
    refine .inr ⟨rfl, ?_, id, other.indexed _ _ held⟩
    exact (other.others x (fun different => different rfl) free).2
  refine safe_seq_signUp valid (safe_owned (safe_findUserByEmail valid e) owns) ?_ ?_
  · rintro _ t valid' _ ⟨same | ⟨user, same, rfl, stands⟩, owned⟩
    · cases same
      refine safe_seq_signUp valid' (safe_owned (safe_adoptBootstrap valid' e) owned) ?_ ?_
      · rintro _ u valid'' _ ⟨same, owned'⟩
        cases same
        show SafeOwner x _ (Prog.attempt (writeNewUser e true x now) >>= _) u
        have tries : SafeOwner x (fun r t => ∃ made, r = .ok made ∧ MadeOrTaken x e made t)
            (Prog.attempt (writeNewUser e true x now) : AuthProg (Except AuthError User)) u := by
          apply safe_attempt
          refine safe_weaken (safe_writeNewUser valid'' normal true now owned') ?_
          exact fun r v _ made => ⟨r, rfl, made⟩
        refine safe_seq_signUp valid'' tries ?_ ?_
        · rintro _ v valid3 _ ⟨_, same, ⟨user, rfl, rfl, rfl, stands, listed⟩ |
            ⟨rfl, free, id, held⟩⟩
          · cases same
            refine safe_seq_signUp valid3 (safe_writeNewToken valid3 ⟨_, stands.indexed⟩
              "bootstrap" plaintext tokenId now) ?_ ?_
            · intro _ w _ grows _
              refine safe_answer (fun _ _ later => .inl ⟨rfl, ?_, ?_, ?_⟩)
              · exact later.registered _ _ (grows.registered _ _ stands.registered)
              · exact later.indexed _ _ (grows.indexed _ _ stands.indexed)
              · exact later.listed _ (grows.listed _ listed)
            · rintro wrong w _ _ ⟨_, same⟩
              cases same
          · cases same
            exact loses held free
        · rintro wrong v _ _ ⟨_, same, _⟩
          cases same
      · rintro wrong u _ _ ⟨same, _⟩
        cases same
    · cases same
      exact loses stands.indexed owned.2
  · rintro wrong t _ _ ⟨same | ⟨_, same, _⟩, _⟩
    · cases same
    · cases same

theorem safe_program [DateText] (r : SignUp) (valid : SignUpsValid s) (owns : Owns r.id ∅ s) :
    SafeOwner r.id r.Settled r.program s := by
  have made : ∀ {user : User} {t : AdminStore}, user.id = r.id → user.email = r.email →
      Registered t r.id r.email → Indexed t r.email r.id → r.id ∈ t.setAt .userAll →
      r.Settled (.ok (.account user)) t :=
    fun sameId sameEmail registered indexed listed =>
      .inl ⟨listed, registered, indexed, .inr ⟨_, rfl, sameId, sameEmail⟩⟩
  have ends : ∀ (answer : Except AuthError User) (t : AdminStore),
      Ends r.id r.email r.byIdentity answer t → r.Settled (answer.map .account) t := by
    rintro answer t ((⟨user, rfl, sameId, sameEmail, stands, listed⟩ |
      ⟨rfl, free, taken⟩) | ⟨user, rfl, free, stands, same⟩)
    · exact made sameId sameEmail (sameId ▸ sameEmail ▸ stands.registered)
        (sameId ▸ sameEmail ▸ stands.indexed) listed
    · exact .inr ⟨free, .inl ⟨.inl rfl, taken⟩⟩
    · exact .inr ⟨free, .inr ⟨user, rfl, stands.registered, stands.indexed, same⟩⟩
  cases r with
  | createUser email isAdmin id now =>
    apply safe_map
    refine safe_weaken (safe_writeNewUser valid (normalizeEmail_idem email) isAdmin now owns) ?_
    exact fun answer t _ here => ends answer t (.inl here)
  | upsertLocalUser email isAdmin id now =>
    apply safe_map
    exact safe_weaken (safe_upsertLocalUser valid email isAdmin now owns)
      (fun answer t _ => ends answer t)
  | upsertOauthUser provider subject email isAdmin id now =>
    apply safe_map
    exact safe_weaken (safe_upsertOauthUser valid provider subject email isAdmin now owns)
      (fun answer t _ => ends answer t)
  | bootstrapAdmin email plaintext id tokenId now =>
    apply safe_map
    refine safe_weaken (safe_bootstrapAdmin valid email plaintext tokenId now owns) ?_
    rintro _ t _ (⟨rfl, registered, indexed, listed⟩ | ⟨rfl, free, taken⟩)
    · exact .inl ⟨listed, registered, indexed, .inl rfl⟩
    · exact .inr ⟨free, .inl ⟨.inr rfl, taken⟩⟩

end Requests

/-! Sign-ups that interleave -/

/-- A sign-up for each id that is drawn, over a bucket that holds nothing at first. -/
def signUps [Digest] [DateText] : Machine
    (Pool AdminStore (Launched SignUp AdminStore AuthError SignUpAnswer) (List String))
    (PoolAction SignUp Empty) :=
  pool (namedWork (fun r => some r.id) SignUp.program Empty.elim)
    (fun s drawn => (∃ backend, s = Storage.empty backend) ∧ drawn = [])

/-- Every sign-up is safe, and whatever an email leads to was drawn for one of them. -/
structure SignUpsInv
    (p : Pool AdminStore (Launched SignUp AdminStore AuthError SignUpAnswer) (List String)) :
    Prop where
  peaceful : Peaceful signUpTreaty (fun r : SignUp => some r.id) SignUp.Settled p
  asked : ∀ id, Claimed p.shared id → ∃ t ∈ p.tasks, t.request.id = id

theorem signUpsValid_empty (backend : Backend) :
    SignUpsValid (Storage.empty backend : AdminStore) := by
  constructor
  · exact Storage.wellKinded_empty backend
  · intro email v found
    simp at found
  · intro provider subject v found
    simp at found
  · intro id member
    simp at member
  · intro name
    simp
  · intro id holder
    cases holder with
    | session token session found own => simp at found
    | token tokenId v found own => simp at found
    | access hash token found own => simp at found

theorem signUps_start [Digest] [DateText]
    {p : Pool AdminStore (Launched SignUp AdminStore AuthError SignUpAnswer) (List String)}
    (start : signUps.start p) : SignUpsInv p := by
  obtain ⟨shared, tasks, drawn⟩ := p
  obtain ⟨⟨⟨backend, rfl⟩, rfl⟩, rfl⟩ := start
  have free : ∀ id, ¬ Claimed (Storage.empty backend : AdminStore) id := by
    rintro id ⟨email, held⟩
    simp [Indexed] at held
  refine ⟨⟨signUpsValid_empty backend, ?_, ?_, ?_, ?_⟩, fun id claimed => absurd claimed (free id)⟩
  · intro x _
    exact ⟨by simp, free x⟩
  · intro t member
    simp at member
  · intro i j t u x one
    simp at one
  · intro t member
    simp at member

theorem signUps_step [Digest] [DateText]
    {p q : Pool AdminStore (Launched SignUp AdminStore AuthError SignUpAnswer) (List String)}
    {a : PoolAction SignUp Empty} (inv : SignUpsInv p) (next : signUps.step p a = some q) :
    SignUpsInv q := by
  obtain ⟨peaceful, asked⟩ := inv
  rcases pool_cases next with ⟨r, t, l, rfl, begun, rfl⟩ | ⟨i, t, u, s, rfl, found, taken, rfl⟩ |
    ⟨⟨⟩, _⟩
  · refine ⟨peaceful_launched peaceful ?_ begun, ?_⟩
    · exact fun s valid owns => safe_program r valid (owns r.id rfl)
    · intro id claimed
      obtain ⟨v, member, same⟩ := asked id claimed
      exact ⟨v, List.mem_append_left _ member, same⟩
  · obtain ⟨does, peaceful'⟩ := peaceful_resumed peaceful found taken
    refine ⟨peaceful', ?_⟩
    have request : u.request = t.request := by
      simp only [namedWork, Option.map_eq_some_iff, Prod.mk.injEq] at taken
      obtain ⟨b, _, rfl, _⟩ := taken
      rfl
    intro id claimed
    by_cases own : t.request.id = id
    · exact ⟨u, moved_mem found u, by rw [request, own]⟩
    · have before : Claimed p.shared id := by
        by_contra free
        exact (does.others id (fun same => own (Option.some.inj same)) free).2 claimed
      obtain ⟨v, member, same⟩ := asked id before
      rcases mem_stays found member u with rfl | stays
      · exact absurd same own
      · exact ⟨v, stays, same⟩

/-- A listed account, as it is read. -/
def Account (s : AdminStore) (id : String) (user : User) : Prop :=
  id ∈ s.setAt .userAll ∧ run (readUserById id) s = (.ok (some user), s)

structure EmailsUnique (s : AdminStore) : Prop where
  whole : ∀ id ∈ s.setAt .userAll, ∃ user, Account s id user ∧ user.id = id
  unique : ∀ id id' user user', Account s id user → Account s id' user' →
    normalizeEmail user.email = normalizeEmail user'.email → id = id'
  indexed : ∀ id user, Account s id user → Indexed s user.email id

/-- What a sign-up that made no account answers: that the email is taken, or with an account
    that is there. -/
def SignUp.Refused (r : SignUp) (answer : Except AuthError SignUpAnswer) (s : AdminStore) : Prop :=
  r.id ∉ s.setAt .userAll ∧
    (((answer = .error (.emailTaken r.email) ∨ answer = .ok (.made false)) ∧
        ∃ id user, Account s id user ∧ user.email = r.email) ∨
      ∃ user user', answer = .ok (.account user) ∧ Account s user.id user' ∧
        user'.email = user.email ∧ (user.email = r.email ∨ r.byIdentity = true))

theorem account_registered {s : AdminStore} (valid : SignUpsValid s) {id : String} {user : User}
    (account : Account s id user) : user.id = id ∧ Registered s id user.email ∧
      Indexed s user.email id := by
  obtain ⟨listed, read⟩ := account
  obtain ⟨email, registered, indexed⟩ := valid.listed id listed
  obtain ⟨user', answer, sameId, rfl⟩ := registered_answer registered
  rw [run_readUserById valid.kinded, answer] at read
  cases read
  exact ⟨sameId, registered, indexed⟩

theorem registered_account {s : AdminStore} (valid : SignUpsValid s) {id email : String}
    (registered : Registered s id email) (listed : id ∈ s.setAt .userAll) :
    ∃ user, Account s id user ∧ user.id = id ∧ user.email = email := by
  obtain ⟨user, answer, sameId, sameEmail⟩ := registered_answer registered
  refine ⟨user, ⟨listed, ?_⟩, sameId, sameEmail⟩
  rw [run_readUserById valid.kinded, answer]

theorem emailsUnique_of_valid {s : AdminStore} (valid : SignUpsValid s) : EmailsUnique s where
  whole := by
    intro id listed
    obtain ⟨email, registered, _⟩ := valid.listed id listed
    obtain ⟨user, account, same, _⟩ := registered_account valid registered listed
    exact ⟨user, account, same⟩
  unique := by
    intro id id' user user' one two same
    obtain ⟨_, _, indexed⟩ := account_registered valid one
    obtain ⟨_, _, indexed'⟩ := account_registered valid two
    rw [(valid.index _ _ indexed).1, (valid.index _ _ indexed').1] at same
    rw [Indexed, same, indexed'] at indexed
    exact (AdminVal.text.inj (Option.some.inj indexed)).symm
  indexed := fun id user account => (account_registered valid account).2.2

/-- With no sign-up in flight, what an email leads to is listed. -/
theorem claimed_listed
    {p : Pool AdminStore (Launched SignUp AdminStore AuthError SignUpAnswer) (List String)}
    (inv : SignUpsInv p) (quiet : ∀ t ∈ p.tasks, ∃ answer, t.prog.answer = some answer)
    {id : String} (claimed : Claimed p.shared id) : id ∈ p.shared.setAt .userAll := by
  obtain ⟨t, member, rfl⟩ := inv.asked id claimed
  obtain ⟨answer, ended⟩ := quiet t member
  rcases peaceful_answer inv.peaceful member ended with ⟨listed, _⟩ | ⟨free, _⟩
  · exact listed
  · exact absurd claimed free

/-- With no sign-up in flight an email belongs to one account, which its index entry leads to;
    every sign-up made the account of its email, or says that it is taken or whose it is. -/
theorem sign_ups_unique [Digest] [DateText]
    (p : Pool AdminStore (Launched SignUp AdminStore AuthError SignUpAnswer) (List String))
    (reached : Reached signUps (fun _ _ => True) p)
    (quiet : ∀ t ∈ p.tasks, ∃ answer, t.prog.answer = some answer) :
    EmailsUnique p.shared ∧ ∀ t ∈ p.tasks, ∀ answer, t.prog.answer = some answer →
      t.request.Won answer p.shared ∨ t.request.Refused answer p.shared := by
  have inv : SignUpsInv p :=
    reached_invariant (fun _ start => signUps_start start)
      (fun _ _ _ before _ next => signUps_step before next) reached
  have valid : SignUpsValid p.shared := inv.peaceful.valid
  refine ⟨emailsUnique_of_valid valid, ?_⟩
  intro t member answer ended
  rcases peaceful_answer inv.peaceful member ended with won | ⟨free, lost⟩
  · exact .inl won
  · refine .inr ⟨?_, ?_⟩
    · intro listed
      obtain ⟨email, _, indexed⟩ := valid.listed _ listed
      exact free ⟨email, indexed⟩
    · rcases lost with ⟨told, id, indexed⟩ | ⟨user, told, registered, indexed, same⟩
      · have listed := claimed_listed inv quiet ⟨_, indexed⟩
        obtain ⟨_, _, same, registered⟩ := valid.index _ _ indexed
        cases same
        obtain ⟨user, account, _, sameEmail⟩ := registered_account valid registered listed
        exact .inl ⟨told, _, user, account, sameEmail⟩
      · have listed := claimed_listed inv quiet ⟨_, indexed⟩
        obtain ⟨user', account, _, sameEmail⟩ := registered_account valid registered listed
        exact .inr ⟨user, user', told, account, sameEmail, same⟩

namespace Sample

/-- Two first logins with one email, the second of which looks before the first has written. -/
def firstLogins : List (PoolAction SignUp Empty) :=
  [.launch (.createUser "Ann@Example.com" false ann 1),
    .launch (.upsertLocalUser "Ann@Example.com" false bob 1)]

def nothing : Pool AdminStore (Launched SignUp AdminStore AuthError SignUpAnswer) (List String) :=
  ⟨Storage.empty .valkey, [], []⟩

end Sample

open Sample in
theorem sign_ups_unique_race :
    ∃ p : Pool AdminStore (Launched SignUp AdminStore AuthError SignUpAnswer) (List String),
      p.tasks.map (fun t => t.prog.answer.bind Except.toOption) =
        [some (.account ⟨ann, "ann@example.com", false, 1, 0⟩), none] ∧
      EmailsUnique p.shared := by
  have ran : (exec signUps nothing (firstLogins ++ List.replicate 2 (.resume 0) ++
      List.replicate 4 (.resume 1) ++ List.replicate 7 (.resume 0) ++
      List.replicate 6 (.resume 1))).map (fun p => (p.tasks.map (fun t => t.prog.answer.isSome),
        p.tasks.map (fun t => t.prog.answer.bind Except.toOption))) =
      some ([true, true],
        [some (.account ⟨ann, "ann@example.com", false, 1, 0⟩), none]) := by
    decide +kernel
  obtain ⟨p, done, shape⟩ := Option.map_eq_some_iff.mp ran
  obtain ⟨ended, answers⟩ := Prod.mk.inj shape
  refine ⟨p, answers, (sign_ups_unique p ?_ ?_).1⟩
  · exact reached_of_exec (m := signUps) _ ⟨⟨⟨.valkey, rfl⟩, rfl⟩, rfl⟩ done
  · intro t member
    have known := List.mem_map_of_mem (f := fun t => t.prog.answer.isSome) member
    rw [ended] at known
    exact Option.isSome_iff_exists.mp (by simpa using known)

end WireMirage
