import WireMirage.Auth.Writes
import WireMirage.Library.Timeline

/-!
The lifetime of a token. The number of seconds that a client asks for is read as a signed
number, made a span and added to the present, and each of the three has a range of its own.
The date is stored as a text, and not every text that is written can be read.
-/
namespace WireMirage
open Prog

section Creation
variable {t : Timeline} [Digest] [DateText]

/-- A date, where there is one, whose text can be read. -/
def LegibleDate (expiresAt : Option Time) : Prop := ∀ ts ∈ expiresAt, DateText.legible ts

instance (expiresAt : Option Time) : Decidable (LegibleDate expiresAt) :=
  match expiresAt with
  | none => .isTrue (by simp [LegibleDate])
  | some ts => decidable_of_iff (DateText.legible ts = true) (by simp [LegibleDate])

/-- What `create_token` refuses before it makes a token. -/
def checkNewToken (ownerId name : String) : AuthProg Unit := do
  match ← readUserById ownerId with
  | none => Prog.fail .notFound
  | some _ =>
    match ← Bucket.get (.tokenByName ownerId name) with
    | some _ => Prog.fail (.nameTaken name)
    | none => return ()

def storeToken (token : Token) : AuthProg Unit := do
  writeTokenFields token
  Bucket.set (.tokenByHash token.hash) (.text token.id)
  Bucket.set (.tokenByName token.ownerId token.name) (.text token.id)
  Bucket.setAdd (.tokenByOwner token.ownerId) token.id

/-- `now + Duration::seconds(s as i64)`, or nothing where it panics. -/
def expiry (now : t.Instant) : Option UInt64 → Option (Option t.Instant)
  | none => some none
  | some s => (now.after s.toInt64.toInt).map some

def tokenUntil (ownerId name plaintext id : String) (now : t.Instant)
    (expires : Option t.Instant) : Token where
  id := id
  name := name
  ownerId := ownerId
  hash := Digest.sha256Hex plaintext
  createdAt := now.pos
  lastUsedAt := none
  expiresAt := expires.map Timeline.Instant.pos
  scopes := fullAccessScopes

/-- `create_token` on a bounded calendar. It answers nothing where it panics. -/
def createTokenAt (ownerId name plaintext : String) (ttlSeconds : Option UInt64) (id : String)
    (now : t.Instant) : AuthProg (Option (Token × String)) := do
  checkNewToken ownerId name
  match expiry now ttlSeconds with
  | none => return none
  | some expires => do
    let token := tokenUntil ownerId name plaintext id now expires
    storeToken token
    return some (token, plaintext)

/-- An error with nothing stored, or a stored token that reads as made and expires so long after
    its creation. -/
def ExactLifetime (t : Timeline) (ttlSeconds : Option UInt64) (now : Time) (s : AdminStore)
    (answer : Except AuthError (Option (Token × String)) × AdminStore) : Prop :=
  match answer.1 with
  | .error _ => answer.2 = s
  | .ok none => False
  | .ok (some (token, _)) =>
    token.createdAt = now ∧
      token.expiresAt = ttlSeconds.map (fun n => now + n.toNat * t.second) ∧
      run (readTokenById token.id) answer.2 = (.ok (some token), answer.2)

/-- The lifetime is a signed number, a span and a distance to a date. -/
def LifetimeInRange (now : t.Instant) : Option UInt64 → Prop
  | none => True
  | some n => n.toNat ≤ i64Max ∧ n.toNat ≤ t.longest ∧ now.pos + n.toNat * t.second ≤ t.latest

/-- The date that the lifetime leads to. -/
def endOf (now : t.Instant) (ttlSeconds : Option UInt64) : Option Time :=
  ttlSeconds.map (fun n => now.pos + n.toNat * t.second)

/-- The owner is unknown or has a token of this name, or a record cannot be read. -/
def RefusesToken (ownerId name : String) (s : AdminStore) : Prop :=
  ∃ e, (run (checkNewToken ownerId name) s).1 = .error e

end Creation

/-! The check -/

theorem acts_checkNewToken (ok : Command AdminKey AdminVal → Prop) (ownerId name : String) :
    Acts ok (checkNewToken ownerId name) := by
  apply acts_bind _ _ (acts_readUserById ownerId)
  rintro (_ | user)
  · trivial
  · apply acts_bind _ _ (acts_get rfl)
    rintro (_ | v) <;> trivial

/-! Storing a token -/

section Storing
variable [DateText]

def writtenFields (token : Token) : List (Command AdminKey AdminVal) :=
  [.setField (.token token.id) "id" (.text token.id),
    .setField (.token token.id) "name" (.text token.name),
    .setField (.token token.id) "owner_id" (.text token.ownerId),
    .setField (.token token.id) "hash" (.text token.hash),
    .setField (.token token.id) "created_at" (.time token.createdAt)] ++
  (token.expiresAt.map (fun ts => Command.setField (.token token.id) "expires_at"
    (.date ts))).toList ++
  [.setField (.token token.id) "scopes" (.scopes token.scopes)]

def indexesOf (token : Token) : List (Command AdminKey AdminVal) :=
  [.put (.tokenByHash token.hash) (.text token.id),
    .put (.tokenByName token.ownerId token.name) (.text token.id),
    .addMember (.tokenByOwner token.ownerId) token.id]

theorem leads_writeTokenFields (token : Token) (s : AdminStore) :
    Leads Storage.WellKinded (writeTokenFields token) s ()
      ((writtenFields token).foldl Command.apply s) := by
  unfold writeTokenFields writtenFields
  cases token.expiresAt with
  | none =>
    exact (leads_hashSet rfl).bind ((leads_hashSet rfl).bind ((leads_hashSet rfl).bind
      ((leads_hashSet rfl).bind ((leads_hashSet rfl).bind (Leads.pure.bind
        (leads_hashSet rfl))))))
  | some ts =>
    exact (leads_hashSet rfl).bind ((leads_hashSet rfl).bind ((leads_hashSet rfl).bind
      ((leads_hashSet rfl).bind ((leads_hashSet rfl).bind ((leads_hashSet rfl).bind
        (leads_hashSet rfl))))))

theorem leads_storeToken (token : Token) (s : AdminStore) :
    Leads Storage.WellKinded (storeToken token) s ()
      ((indexesOf token).foldl Command.apply ((writtenFields token).foldl Command.apply s)) :=
  (leads_writeTokenFields token s).bind ((leads_set rfl).bind ((leads_set rfl).bind
    (leads_setAdd rfl)))

/-- The commands of a new token change its record by its fields alone. -/
theorem hashAt_stored (token : Token) (s : AdminStore) :
    ((indexesOf token).foldl Command.apply
      ((writtenFields token).foldl Command.apply s)).hashAt (.token token.id) =
      ((writtenFields token).foldl Command.apply s).hashAt (.token token.id) := by
  simp [indexesOf, Command.apply]

theorem written_ne_empty (token : Token) {s : AdminStore}
    (nothing : s.hashAt (.token token.id) = ∅) :
    (((writtenFields token).foldl Command.apply s).hashAt (.token token.id)).entries ≠ [] := by
  cases expires : token.expiresAt <;>
    simp [writtenFields, expires, Command.apply, nothing, -AList.insert_empty]

theorem decode_written (token : Token) (unused : token.lastUsedAt = none)
    (legible : LegibleDate token.expiresAt) {s : AdminStore}
    (nothing : s.hashAt (.token token.id) = ∅) :
    decodeToken (((writtenFields token).foldl Command.apply s).hashAt (.token token.id)) =
      .ok token := by
  obtain ⟨id, name, ownerId, hash, createdAt, lastUsedAt, expiresAt, scopes⟩ := token
  cases unused
  cases expiresAt with
  | none =>
    simp [writtenFields, Command.apply, nothing, decodeToken, optionalUserTs, decodeScopes,
      userText, requiredUserTs, userTs, AdminVal.utf8, AList.lookup_insert_ne, pure, Except.pure,
      Bind.bind, Except.bind, -AList.insert_empty]
  | some ts =>
    have readable : AdminVal.date ts = .time ts := AdminVal.date_legible (legible ts rfl)
    simp [writtenFields, Command.apply, nothing, decodeToken, optionalUserTs, decodeScopes,
      userText, requiredUserTs, userTs, AdminVal.utf8, AList.lookup_insert_ne, pure, Except.pure,
      Bind.bind, Except.bind, Except.map, readable, -AList.insert_empty]

/-- The record of a token that expires too late is written, and cannot be read. -/
theorem decode_far (token : Token) (far : ¬ LegibleDate token.expiresAt) {s : AdminStore}
    (nothing : s.hashAt (.token token.id) = ∅) :
    decodeToken (((writtenFields token).foldl Command.apply s).hashAt (.token token.id)) =
      .error (.malformed "timestamp") := by
  unfold LegibleDate at far
  push Not at far
  obtain ⟨ts, expires, unread⟩ := far
  rw [Option.mem_def] at expires
  simp [writtenFields, expires, Command.apply, nothing, decodeToken, optionalUserTs, userTs,
    AdminVal.date_far unread, AList.lookup_insert_ne, Bind.bind, Except.bind, Except.map,
    -AList.insert_empty]

/-- The record of a new token reads as the token, or fails where its expiry is not legible. -/
theorem read_newToken (token : Token) (unused : token.lastUsedAt = none) {s : AdminStore}
    (wk : s.WellKinded) (nothing : s.hashAt (.token token.id) = ∅) :
    let stored := (indexesOf token).foldl Command.apply
      ((writtenFields token).foldl Command.apply s)
    run (readTokenById token.id) stored =
      (if LegibleDate token.expiresAt then .ok (some token) else .error (.malformed "timestamp"),
        stored) := by
  intro stored
  have kinded : stored.WellKinded := (leads_storeToken token s wk).2
  have written := written_ne_empty token nothing
  rw [← hashAt_stored] at written
  unfold readTokenById
  rw [run_bind, run_hashGetAll kinded rfl]
  split
  · rename_i legible
    have decoded := decode_written token unused legible nothing
    rw [← hashAt_stored] at decoded
    simp [stored, decoded, written]
  · rename_i far
    have decoded := decode_far token far nothing
    rw [← hashAt_stored] at decoded
    simp [stored, decoded, written]

end Storing

/-! Spans of a client's choice -/

theorem asI64_eq (n : UInt64) :
    n.toInt64.toInt =
      if n.toNat ≤ i64Max then (n.toNat : Int) else n.toNat - 18446744073709551616 := by
  have cast : n.toInt64.toInt = n.toBitVec.toInt := rfl
  have size : n.toBitVec.toNat = n.toNat := rfl
  rw [cast, BitVec.toInt_eq_toNat_cond, size, i64Max]
  split <;> split <;> omega

section
variable {t : Timeline} {now : t.Instant}

/-- A lifetime in range leads to the date it says, and any other one to a panic or the past. -/
theorem expiry_some (n : UInt64) {ex : Option t.Instant} (dated : expiry now (some n) = some ex) :
    ex.map Timeline.Instant.pos = some (now.pos + n.toNat * t.second) ↔
      LifetimeInRange now (some n) := by
  obtain ⟨j, after_, rfl⟩ := Option.map_eq_some_iff.mp dated
  obtain ⟨short, date⟩ := Timeline.Instant.after_eq_some.mp after_
  have last := j.inside
  have ticking := t.ticking
  have small := n.toNat_lt
  rw [asI64_eq] at short date
  simp only [LifetimeInRange, Option.map_some, Option.some.injEq]
  by_cases signed : n.toNat ≤ i64Max
  · rw [if_pos signed] at short date
    norm_cast at date
    constructor
    · intro same
      exact ⟨signed, by omega, by omega⟩
    · intro _
      exact date
  · rw [if_neg signed] at short date
    constructor
    · intro same
      have wrapped : (n.toNat : Int) * t.second =
          ((n.toNat : Int) - 18446744073709551616) * t.second := by
        push_cast [same] at date
        omega
      have equal := Int.eq_of_mul_eq_mul_right (by omega : (t.second : Int) ≠ 0) wrapped
      omega
    · rintro ⟨within_, _⟩
      exact absurd within_ signed

theorem expiry_of_range {n : UInt64} (range : LifetimeInRange now (some n)) :
    (expiry now (some n)).isSome := by
  obtain ⟨signed, short, early⟩ := range
  have room : (now.pos : Int) + n.toNat * t.second ≤ t.latest := by exact_mod_cast early
  have span : (0 : Int) ≤ n.toNat * t.second :=
    Int.mul_nonneg (Int.natCast_nonneg _) (Int.natCast_nonneg _)
  have held : (now.after n.toInt64.toInt).isSome := by
    rw [Timeline.Instant.after_isSome, asI64_eq, if_pos signed]
    exact ⟨by omega, by omega, room⟩
  simp [expiry, held]

end

section
variable {t : Timeline} [Digest] [DateText] {ownerId name plaintext id : String} {now : t.Instant}
  {ttlSeconds : Option UInt64} {s : AdminStore}

theorem run_createTokenAt (wk : s.WellKinded) :
    run (createTokenAt ownerId name plaintext ttlSeconds id now) s =
      match (run (checkNewToken ownerId name) s).1 with
      | .error e => (.error e, s)
      | .ok _ =>
        match expiry now ttlSeconds with
        | none => (.ok none, s)
        | some expires =>
          let token := tokenUntil ownerId name plaintext id now expires
          ((run (storeToken token) s).1.map (fun _ => some (token, plaintext)),
            (run (storeToken token) s).2) := by
  have kept := run_of_reads (acts_checkNewToken _ ownerId name) wk
  rw [createTokenAt, run_bind]
  rcases checked : run (checkNewToken ownerId name) s with ⟨e | u, s'⟩
  · rw [checked] at kept
    cases kept
    rfl
  · have same : s' = s := by
      rw [checked] at kept
      exact kept
    subst same
    dsimp only
    cases expiry now ttlSeconds with
    | none => rfl
    | some expires =>
      let token := tokenUntil ownerId name plaintext id now expires
      show run (storeToken token >>= fun _ => Pure.pure (some (token, plaintext))) s' = _
      rw [run_bind]
      rcases stored : run (storeToken token) s' with ⟨e | u, s''⟩
      · simp only [stored, token, andThen]
        rfl
      · simp only [stored, token, andThen]
        rfl

/-- A stored token has its lifetime when its date is the one asked for and can be read. -/
theorem exact_stored (wk : s.WellKinded) (fresh : s.lookup (.token id) = none)
    (expires : Option t.Instant) :
    let token := tokenUntil ownerId name plaintext id now expires
    ExactLifetime t ttlSeconds now.pos s
        ((run (storeToken token) s).1.map (fun _ => some (token, plaintext)),
          (run (storeToken token) s).2) ↔
      expires.map Timeline.Instant.pos = endOf now ttlSeconds ∧
        LegibleDate (expires.map Timeline.Instant.pos) := by
  intro token
  have nothing : s.hashAt (.token token.id) = ∅ := by
    rw [Storage.hashAt, show s.lookup (.token token.id) = none from fresh]
    rfl
  have reads := read_newToken token rfl wk nothing
  have date : token.expiresAt = expires.map Timeline.Instant.pos := rfl
  rw [date] at reads
  rw [(leads_storeToken token s wk).1]
  constructor
  · rintro ⟨_, same, back⟩
    refine ⟨same, ?_⟩
    by_contra far
    rw [reads, if_neg far] at back
    cases back
  · rintro ⟨same, legible⟩
    refine ⟨rfl, same, ?_⟩
    rw [reads, if_pos legible]

omit [Digest] [DateText] in
theorem endOf_expiry {expires : Option t.Instant} (dated : expiry now ttlSeconds = some expires) :
    expires.map Timeline.Instant.pos = endOf now ttlSeconds ↔ LifetimeInRange now ttlSeconds := by
  cases ttlSeconds with
  | none =>
    cases dated
    simp [LifetimeInRange, endOf]
  | some n => exact expiry_some n dated

/-- A token is made with its lifetime, or refused, exactly when it is refused or its lifetime
    is in the range of a signed number, of a span and of the dates, and leads to a date that
    can be read. -/
theorem token_lifetime_iff (wk : s.WellKinded) (fresh : s.lookup (.token id) = none) :
    ExactLifetime t ttlSeconds now.pos s
        (run (createTokenAt ownerId name plaintext ttlSeconds id now) s) ↔
      RefusesToken ownerId name s ∨
        LifetimeInRange now ttlSeconds ∧ LegibleDate (endOf now ttlSeconds) := by
  rw [run_createTokenAt wk, RefusesToken]
  cases checked : (run (checkNewToken ownerId name) s).1 with
  | error e => simp [ExactLifetime]
  | ok u =>
    simp only [reduceCtorEq, exists_false, false_or]
    cases dated : expiry now ttlSeconds with
    | none =>
      simp only [ExactLifetime, false_iff]
      cases ttlSeconds with
      | none => cases dated
      | some n =>
        rintro ⟨range, _⟩
        have held := expiry_of_range range
        rw [dated] at held
        cases held
    | some expires =>
      refine (exact_stored wk fresh expires).trans ?_
      rw [← endOf_expiry dated]
      refine and_congr_right fun same => ?_
      rw [same]

/-- The operation on dates without an end, as a check and a write. -/
theorem run_createToken (ttl : Option Nat) (made : Time) :
    run (createToken ownerId name plaintext ttl id made) s =
      run (checkNewToken ownerId name >>= fun _ =>
        storeToken (newToken ownerId name plaintext ttl id made) >>= fun _ =>
          Pure.pure (newToken ownerId name plaintext ttl id made, plaintext)) s := by
  unfold createToken checkNewToken
  rw [run_bind, run_bind, run_bind]
  rcases run (readUserById ownerId) s with ⟨e | _ | user, s'⟩
  · rfl
  · rfl
  · simp only [andThen_ok, run_bind]
    rcases run (Bucket.get (.tokenByName ownerId name) : AuthProg _) s' with ⟨e | _ | v, s''⟩
    · rfl
    · let token := newToken ownerId name plaintext ttl id made
      show run (writeNewToken ownerId name plaintext ttl id made >>= fun token =>
        Pure.pure (token, plaintext)) s'' = run (storeToken token >>= fun _ =>
          Pure.pure (token, plaintext)) s''
      have stored : run (writeNewToken ownerId name plaintext ttl id made) s'' =
          run (storeToken token >>= fun _ => Pure.pure token) s'' := by
        unfold storeToken writeNewToken
        simp only [bind_assoc]
        rfl
      rw [run_bind, run_bind, stored, run_bind]
      rcases run (storeToken token) s'' with ⟨e | u, s3⟩ <;> rfl
    · rfl

/-- A lifetime in range makes the token that it makes where dates have no end. -/
theorem createTokenAt_eq (wk : s.WellKinded) (range : LifetimeInRange now ttlSeconds) :
    run (createTokenAt ownerId name plaintext ttlSeconds id now) s =
      ((run (createToken ownerId name plaintext
          (ttlSeconds.map (fun n => n.toNat * t.second)) id now.pos) s).1.map some,
        (run (createToken ownerId name plaintext
          (ttlSeconds.map (fun n => n.toNat * t.second)) id now.pos) s).2) := by
  have dated : ∃ ex, expiry now ttlSeconds = some ex ∧ ex.map Timeline.Instant.pos =
      (ttlSeconds.map (fun n => n.toNat * t.second)).map (now.pos + ·) := by
    cases ttlSeconds with
    | none => exact ⟨none, rfl, rfl⟩
    | some n =>
      obtain ⟨ex, dated⟩ := Option.isSome_iff_exists.mp (expiry_of_range range)
      exact ⟨ex, dated, (expiry_some n dated).mpr range⟩
  obtain ⟨ex, dated, same⟩ := dated
  have token : tokenUntil ownerId name plaintext id now ex = newToken ownerId name plaintext
      (ttlSeconds.map (fun n => n.toNat * t.second)) id now.pos := by
    rw [tokenUntil, same]
    rfl
  have kept := run_of_reads (acts_checkNewToken _ ownerId name) wk
  rw [run_createTokenAt wk, run_createToken, run_bind, dated]
  rcases checked : run (checkNewToken ownerId name) s with ⟨e | u, s'⟩
  · rw [checked] at kept
    cases kept
    rfl
  · have unchanged : s' = s := by
      rw [checked] at kept
      exact kept
    subst unchanged
    simp only [andThen_ok, token, run_bind]
    rcases stored : run (storeToken (newToken ownerId name plaintext
      (ttlSeconds.map (fun n => n.toNat * t.second)) id now.pos)) s' with ⟨e | u, s''⟩
    · rw [stored]
      rfl
    · rw [stored]
      rfl

end

namespace Sample

/-- The dates of the calendar in seconds from its first day, and the longest span. -/
def calendar : Timeline := ⟨16544868105599, 1, 9223372036854775, by decide⟩

def noon : calendar.Instant := ⟨8336379816000, by decide⟩

def enrolled : AdminStore :=
  (run (upsertLocalUser "ann@shop.test" false ann 0) (Storage.empty .inMemory)).2

open Sample in
def minted (ttlSeconds : Option UInt64) : Except AuthError (Option (Option Time)) :=
  (run (createTokenAt ann "cli" apiToken ttlSeconds tokenId noon) enrolled).1.map
    (fun made => made.map (fun token => token.1.expiresAt))

theorem enrolled_kinded : enrolled.WellKinded := by
  have acts : Acts (fun _ => True) (upsertLocalUser "ann@shop.test" false ann 0) :=
    acts_upsertLocalUser (fun _ _ => trivial) _ _ _ _
  exact (entry_of_acts (fun _ => True) acts (Storage.wellKinded_empty .inMemory)).1

theorem enrolled_fresh : enrolled.lookup (.token tokenId) = none :=
  Option.isNone_iff_eq_none.mp (by decide +kernel)

theorem hour_in_range :
    LifetimeInRange noon (some 3600) ∧ LegibleDate (endOf noon (some 3600)) := by
  refine ⟨?_, by decide +kernel⟩
  unfold LifetimeInRange
  decide +kernel

/-- What the record of a new token reads as. -/
def readBack (ttlSeconds : Option UInt64) : Except AuthError (Option Token) :=
  (run (readTokenById tokenId)
    (run (createTokenAt ann "cli" apiToken ttlSeconds tokenId noon) enrolled).2).1

end Sample

open Sample in
theorem token_lifetime_hour :
    enrolled.WellKinded ∧ ExactLifetime calendar (some 3600) noon.pos enrolled
      (run (createTokenAt ann "cli" apiToken (some 3600) tokenId noon) enrolled) := by
  refine ⟨enrolled_kinded, (token_lifetime_iff enrolled_kinded enrolled_fresh).mpr ?_⟩
  exact .inr hour_in_range

open Sample in
/-- The longest lifetime a client can ask for is a token that has expired, half of it a panic,
    and one of eight thousand years a token that the store cannot read. -/
theorem token_lifetime_wraps :
    ¬ (∀ ttlSeconds, ExactLifetime calendar ttlSeconds noon.pos enrolled
      (run (createTokenAt ann "cli" apiToken ttlSeconds tokenId noon) enrolled)) ∧
    minted (some 18446744073709551615) = .ok (some (some (noon.pos - 1))) ∧
    minted (some 9223372036854775807) = .ok none ∧
    minted (some 252000000000) = .ok (some (some (noon.pos + 252000000000))) ∧
    readBack (some 252000000000) = .error (.malformed "timestamp") := by
  have panics : minted (some 9223372036854775807) = .ok none := by decide +kernel
  refine ⟨?_, by decide +kernel, panics, by decide +kernel, by decide +kernel⟩
  intro exact_
  have here := exact_ (some 9223372036854775807)
  unfold minted at panics
  generalize run (createTokenAt ann "cli" apiToken (some 9223372036854775807) tokenId noon)
    enrolled = answer at here panics
  obtain ⟨e | _ | made, s'⟩ := answer
  · cases panics
  · exact here
  · cases panics

end WireMirage
