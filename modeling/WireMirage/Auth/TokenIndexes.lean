import WireMirage.Auth.TokenLifetime

/-!
The records of tokens and the three indexes that lead to them. What a set of tokens looks like
in the store is a predicate, and each write of an operation takes the set to another one.
-/
namespace WireMirage
open Prog

/-- A token as it was minted, under the name it has now. -/
structure Minted where
  id : String
  ownerId : String
  name : String
  plaintext : String
  createdAt : Time
  expiresAt : Option Time
  deriving DecidableEq, Repr

/-- A token under another name. -/
def Minted.named (id name : String) (m : Minted) : Minted :=
  if m.id = id then { m with name := name } else m

theorem named_id (id name : String) (m : Minted) : (m.named id name).id = m.id := by
  unfold Minted.named
  split <;> rfl

theorem named_owner (id name : String) (m : Minted) : (m.named id name).ownerId = m.ownerId := by
  unfold Minted.named
  split <;> rfl

theorem named_plaintext (id name : String) (m : Minted) :
    (m.named id name).plaintext = m.plaintext := by
  unfold Minted.named
  split <;> rfl

theorem named_other {id : String} (name : String) {m : Minted} (other : m.id ≠ id) :
    m.named id name = m := if_neg other

theorem named_same (name : String) (m : Minted) :
    m.named m.id name = { m with name := name } := if_pos rfl

/-- Fields that decode to a token, and none that a deletion would leave behind. -/
structure Holds (fields : Fields AdminVal) (token : Token) : Prop where
  decoded : decodeToken fields = .ok token
  known : ∀ f, f ∉ deletedTokenFields → fields.lookup f = none

/-! Fields -/

section Fields
variable {fields : Fields AdminVal} {token : Token}

theorem lookup_userText {name : String} {text : String} (read : userText fields name = .ok text) :
    ∃ v, fields.lookup name = some v := by
  unfold userText at read
  cases found : fields.lookup name with
  | none =>
    rw [found] at read
    cases read
  | some v => exact ⟨v, rfl⟩

theorem holds_ne_empty (holds : Holds fields token) : fields.entries.isEmpty = false := by
  have decoded := holds.decoded
  simp only [decodeToken, ok_bind_iff] at decoded
  obtain ⟨_, _, _, _, _, _, id, read, _⟩ := decoded
  obtain ⟨v, found⟩ := lookup_userText read
  rw [Bool.eq_false_iff]
  intro empty
  rw [Storage.hash_eq_empty_of_isEmpty empty] at found
  simp at found

theorem holds_erased (holds : Holds fields token) :
    Storage.eraseFields fields deletedTokenFields = ∅ := by
  apply AList.ext
  apply List.eq_nil_iff_forall_not_mem.mpr
  rintro ⟨f, v⟩ inside
  have held := AList.mem_lookup_iff.mpr inside
  rw [Option.mem_def, Storage.lookup_eraseFields] at held
  split at held
  · cases held
  · rename_i other
    rw [holds.known f other] at held
    cases held

theorem holds_named (holds : Holds fields token) (name : String) :
    Holds (fields.insert "name" (.text name)) { token with name := name } := by
  constructor
  · have decoded := holds.decoded
    simp only [decodeToken, ok_bind_iff, pure, Except.pure, Except.ok.injEq] at decoded ⊢
    obtain ⟨e, expires, l, used, ss, scopes, id, idRead, _, _, o, owner, h, hash, c, created,
      rfl⟩ := decoded
    refine ⟨e, ?_, l, ?_, ss, ?_, id, ?_, name, ?_, o, ?_, h, ?_, c, ?_, rfl⟩
    · simpa [optionalUserTs, lookup_insert] using expires
    · simpa [optionalUserTs, lookup_insert] using used
    · simpa [decodeScopes, lookup_insert] using scopes
    · simpa [userText, lookup_insert] using idRead
    · simp [userText, AdminVal.utf8]
    · simpa [userText, lookup_insert] using owner
    · simpa [userText, lookup_insert] using hash
    · simpa [requiredUserTs, lookup_insert] using created
  · intro f other
    rw [lookup_insert, if_neg, holds.known f other]
    rintro rfl
    exact other (by decide)

theorem holds_used (holds : Holds fields token) (now : Time) :
    Holds (fields.insert "last_used_at" (.time now)) { token with lastUsedAt := some now } := by
  constructor
  · have decoded := holds.decoded
    simp only [decodeToken, ok_bind_iff, pure, Except.pure, Except.ok.injEq] at decoded ⊢
    obtain ⟨e, expires, _, _, ss, scopes, id, idRead, n, nameRead, o, owner, h, hash, c, created,
      rfl⟩ := decoded
    refine ⟨e, ?_, some now, ?_, ss, ?_, id, ?_, n, ?_, o, ?_, h, ?_, c, ?_, rfl⟩
    · simpa [optionalUserTs, lookup_insert] using expires
    · simp [optionalUserTs, userTs, Except.map]
    · simpa [decodeScopes, lookup_insert] using scopes
    · simpa [userText, lookup_insert] using idRead
    · simpa [userText, lookup_insert] using nameRead
    · simpa [userText, lookup_insert] using owner
    · simpa [userText, lookup_insert] using hash
    · simpa [requiredUserTs, lookup_insert] using created
  · intro f other
    rw [lookup_insert, if_neg, holds.known f other]
    rintro rfl
    exact other (by decide)

theorem holds_written [DateText] (token : Token) (unused : token.lastUsedAt = none)
    (legible : LegibleDate token.expiresAt) {s : AdminStore}
    (nothing : s.hashAt (.token token.id) = ∅) :
    Holds (((writtenFields token).foldl Command.apply s).hashAt (.token token.id)) token := by
  refine ⟨decode_written token unused legible nothing, ?_⟩
  intro f other
  simp only [deletedTokenFields, List.mem_cons, not_or] at other
  cases expires : token.expiresAt with
  | none => simp [writtenFields, expires, Command.apply, nothing, other,
      -AList.insert_empty]
  | some ts => simp [writtenFields, expires, Command.apply, nothing, other,
      -AList.insert_empty]

end Fields

/-! What is written -/

/-- The store with a new token in it. -/
def withToken [DateText] (token : Token) (s : AdminStore) : AdminStore :=
  (indexesOf token).foldl Command.apply ((writtenFields token).foldl Command.apply s)

/-- The store with a token out of it. -/
def withoutToken (token : Token) (s : AdminStore) : AdminStore :=
  ((((s.erase (.tokenByHash token.hash)).erase (.tokenByName token.ownerId token.name)).dropMember
    (.tokenByOwner token.ownerId) token.id).dropFields (.token token.id) deletedTokenFields)

theorem leads_deleteToken (token : Token) (s : AdminStore) :
    Leads Storage.WellKinded (deleteToken token) s () (withoutToken token s) := by
  have cleared : ∀ t : AdminStore, Leads Storage.WellKinded
      (Prog.forEach deletedTokenFields (fun f => Bucket.hashDelete (.token token.id) f) :
        AuthProg Unit) t () (t.dropFields (.token token.id) deletedTokenFields) :=
    fun t => Leads.forEach (fun f _ u => leads_hashDelete rfl)
  exact leads_delete.bind (leads_delete.bind ((leads_setRemove rfl).bind (cleared _)))

/-- The store with a token renamed in it. -/
def withTokenName (m : Minted) (name : String) (s : AdminStore) : AdminStore :=
  (((s.put (.tokenByName m.ownerId name) (.text m.id) none).putHash (.token m.id)
    ((s.hashAt (.token m.id)).insert "name" (.text name))).erase (.tokenByName m.ownerId m.name))

/-! Tokens in the store -/

section
variable [Digest]

def Minted.hash (m : Minted) : String := Digest.sha256Hex m.plaintext

def Minted.record (m : Minted) (lastUsedAt : Option Time) : Token where
  id := m.id
  name := m.name
  ownerId := m.ownerId
  hash := m.hash
  createdAt := m.createdAt
  lastUsedAt := lastUsedAt
  expiresAt := m.expiresAt
  scopes := fullAccessScopes

theorem named_hash (id name : String) (m : Minted) : (m.named id name).hash = m.hash :=
  congrArg Digest.sha256Hex (named_plaintext id name m)

/-- The store holds these tokens, and each index leads to them and to nothing else. -/
structure TokensIndexed (tokens : Minted → Prop) (s : AdminStore) : Prop where
  kinded : s.WellKinded
  record : ∀ m, tokens m → ∃ used, Holds (s.hashAt (.token m.id)) (m.record used)
  single : ∀ m m', tokens m → tokens m' → m.id = m'.id → m = m'
  absent : ∀ id, (∀ m, tokens m → m.id ≠ id) → s.hashAt (.token id) = ∅
  byHash : ∀ h v, s.bytesAt (.tokenByHash h) = some v ↔
    ∃ m, tokens m ∧ m.hash = h ∧ v = .text m.id
  byName : ∀ owner name v, s.bytesAt (.tokenByName owner name) = some v ↔
    ∃ m, tokens m ∧ m.ownerId = owner ∧ m.name = name ∧ v = .text m.id
  byOwner : ∀ owner id, id ∈ s.setAt (.tokenByOwner owner) ↔
    ∃ m, tokens m ∧ m.ownerId = owner ∧ m.id = id

def AdminKey.ofTokens : AdminKey → Bool
  | .token _ => true
  | .tokenByHash _ => true
  | .tokenByName _ _ => true
  | .tokenByOwner _ => true
  | _ => false

/-! Other keys -/

section Tokens
variable {tokens : Minted → Prop} {s t : AdminStore}

/-- Only what stands under the keys of tokens counts. -/
theorem indexed_of_views (indexed : TokensIndexed tokens s) (kinded : t.WellKinded)
    (fields : ∀ id, t.hashAt (.token id) = s.hashAt (.token id))
    (hashes : ∀ h, t.bytesAt (.tokenByHash h) = s.bytesAt (.tokenByHash h))
    (names : ∀ owner name, t.bytesAt (.tokenByName owner name) =
      s.bytesAt (.tokenByName owner name))
    (owners : ∀ owner, t.setAt (.tokenByOwner owner) = s.setAt (.tokenByOwner owner)) :
    TokensIndexed tokens t where
  kinded := kinded
  record m live := by
    rw [fields]
    exact indexed.record m live
  single := indexed.single
  absent id none := by
    rw [fields]
    exact indexed.absent id none
  byHash h v := by
    rw [hashes]
    exact indexed.byHash h v
  byName owner name v := by
    rw [names]
    exact indexed.byName owner name v
  byOwner owner id := by
    rw [owners]
    exact indexed.byOwner owner id

theorem indexed_of_entries (indexed : TokensIndexed tokens s) (kinded : t.WellKinded)
    (same : ∀ k : AdminKey, k.ofTokens → t.entry k = s.entry k) : TokensIndexed tokens t :=
  indexed_of_views indexed kinded (fun _ => Storage.hashAt_of_entry (same _ rfl))
    (fun _ => Storage.bytesAt_of_entry (same _ rfl))
    (fun _ _ => Storage.bytesAt_of_entry (same _ rfl))
    (fun _ => Storage.setAt_of_entry (same _ rfl))

theorem indexed_congr {others : Minted → Prop} (same : ∀ m, others m ↔ tokens m)
    (indexed : TokensIndexed tokens s) : TokensIndexed others s := by
  have equal : others = tokens := funext fun m => propext (same m)
  rw [equal]
  exact indexed

/-! Writes -/

theorem indexed_used (indexed : TokensIndexed tokens s) {m : Minted} (live : tokens m)
    (now : Time) : TokensIndexed tokens (s.putHash (.token m.id)
      ((s.hashAt (.token m.id)).insert "last_used_at" (.time now))) where
  kinded := Storage.wellKinded_putHash indexed.kinded rfl _
  record m' live' := by
    simp only [Storage.hashAt_putHash, AdminKey.token.injEq]
    split
    · rename_i same
      obtain rfl := indexed.single m' m live' live same
      obtain ⟨used, holds⟩ := indexed.record m' live'
      exact ⟨some now, holds_used holds now⟩
    · exact indexed.record m' live'
  single := indexed.single
  absent id none := by
    rw [Storage.hashAt_putHash, if_neg, indexed.absent id none]
    exact fun same => none m live (AdminKey.token.inj same).symm
  byHash h v := by simpa using indexed.byHash h v
  byName owner name v := by simpa using indexed.byName owner name v
  byOwner owner id := by simpa using indexed.byOwner owner id

theorem indexed_stored [DateText] (indexed : TokensIndexed tokens s) {m : Minted}
    (legible : LegibleDate m.expiresAt)
    (newId : ∀ m', tokens m' → m'.id ≠ m.id) (newHash : ∀ m', tokens m' → m'.hash ≠ m.hash)
    (newName : ∀ m', tokens m' → m'.ownerId = m.ownerId → m'.name ≠ m.name) :
    TokensIndexed (fun m' => m' = m ∨ tokens m') (withToken (m.record none) s) := by
  have kinded := ((leads_storeToken (m.record none) s) indexed.kinded).2
  have nothing := indexed.absent m.id newId
  have fields : ∀ id, (withToken (m.record none) s).hashAt (.token id) =
      if id = m.id then ((writtenFields (m.record none)).foldl Command.apply s).hashAt (.token m.id)
      else s.hashAt (.token id) := by
    intro id
    split
    · rename_i here
      rw [here]
      exact hashAt_stored (m.record none) s
    · rename_i other
      cases expires : m.expiresAt <;>
        simp [withToken, indexesOf, writtenFields, Command.apply, Minted.record, expires, other]
  have hashes : ∀ h, (withToken (m.record none) s).bytesAt (.tokenByHash h) =
      if h = m.hash then some (.text m.id) else s.bytesAt (.tokenByHash h) := by
    intro h
    cases expires : m.expiresAt <;>
      simp [withToken, indexesOf, writtenFields, Command.apply, Minted.record, expires]
  have names : ∀ owner name, (withToken (m.record none) s).bytesAt (.tokenByName owner name) =
      if owner = m.ownerId ∧ name = m.name then some (.text m.id)
      else s.bytesAt (.tokenByName owner name) := by
    intro owner name
    cases expires : m.expiresAt <;>
      simp [withToken, indexesOf, writtenFields, Command.apply, Minted.record, expires]
  have owners : ∀ owner, (withToken (m.record none) s).setAt (.tokenByOwner owner) =
      if owner = m.ownerId then (s.setAt (.tokenByOwner owner)).insert m.id
      else s.setAt (.tokenByOwner owner) := by
    intro owner
    by_cases here : owner = m.ownerId
    · subst here
      cases expires : m.expiresAt <;>
        simp [withToken, indexesOf, writtenFields, Command.apply, Minted.record, expires]
    · cases expires : m.expiresAt <;>
        simp [withToken, indexesOf, writtenFields, Command.apply, Minted.record, expires, here]
  refine ⟨kinded, ?_, ?_, ?_, ?_, ?_, ?_⟩
  · rintro m' (rfl | live)
    · rw [fields, if_pos rfl]
      exact ⟨none, holds_written (m'.record none) rfl legible nothing⟩
    · rw [fields, if_neg (newId m' live)]
      exact indexed.record m' live
  · rintro m₁ m₂ (rfl | live) (rfl | live') same
    · rfl
    · exact absurd same.symm (newId m₂ live')
    · exact absurd same (newId m₁ live)
    · exact indexed.single m₁ m₂ live live' same
  · intro id none
    rw [fields, if_neg (fun same => none m (.inl rfl) same.symm)]
    exact indexed.absent id (fun m' live => none m' (.inr live))
  · intro h v
    rw [hashes]
    split
    · rename_i here
      subst here
      constructor
      · rintro ⟨⟩
        exact ⟨m, .inl rfl, rfl, rfl⟩
      · rintro ⟨m', rfl | live, same, rfl⟩
        · rfl
        · exact absurd same (newHash m' live)
    · rename_i other
      rw [indexed.byHash]
      constructor
      · rintro ⟨m', live, same, value⟩
        exact ⟨m', .inr live, same, value⟩
      · rintro ⟨m', rfl | live, same, value⟩
        · exact absurd same.symm other
        · exact ⟨m', live, same, value⟩
  · intro owner name v
    rw [names]
    split
    · rename_i here
      obtain ⟨rfl, rfl⟩ := here
      constructor
      · rintro ⟨⟩
        exact ⟨m, .inl rfl, rfl, rfl, rfl⟩
      · rintro ⟨m', rfl | live, same, named, rfl⟩
        · rfl
        · exact absurd named (newName m' live same)
    · rename_i other
      rw [indexed.byName]
      constructor
      · rintro ⟨m', live, rest⟩
        exact ⟨m', .inr live, rest⟩
      · rintro ⟨m', rfl | live, same, named, value⟩
        · exact absurd ⟨same.symm, named.symm⟩ other
        · exact ⟨m', live, same, named, value⟩
  · intro owner id
    rw [owners]
    split
    · rename_i here
      rw [List.mem_insert_iff, indexed.byOwner]
      constructor
      · rintro (rfl | ⟨m', live, rest⟩)
        · exact ⟨m, .inl rfl, here.symm, rfl⟩
        · exact ⟨m', .inr live, rest⟩
      · rintro ⟨m', rfl | live, same, rfl⟩
        · exact .inl rfl
        · exact .inr ⟨m', live, same, rfl⟩
    · rename_i other
      rw [indexed.byOwner]
      constructor
      · rintro ⟨m', live, rest⟩
        exact ⟨m', .inr live, rest⟩
      · rintro ⟨m', rfl | live, same, rfl⟩
        · exact absurd same.symm other
        · exact ⟨m', live, same, rfl⟩

/-- No two tokens are of one hash. -/
theorem indexed_hash (indexed : TokensIndexed tokens s) {m m' : Minted} (live : tokens m)
    (live' : tokens m') (same : m.hash = m'.hash) : m = m' := by
  have first := (indexed.byHash m.hash _).mpr ⟨m, live, rfl, rfl⟩
  have second := (indexed.byHash m.hash _).mpr ⟨m', live', same.symm, rfl⟩
  rw [first, Option.some.injEq, AdminVal.text.injEq] at second
  exact indexed.single m m' live live' second

/-- No two tokens of one owner are of one name. -/
theorem indexed_name (indexed : TokensIndexed tokens s) {m m' : Minted} (live : tokens m)
    (live' : tokens m') (owner : m.ownerId = m'.ownerId) (name : m.name = m'.name) : m = m' := by
  have first := (indexed.byName m.ownerId m.name _).mpr ⟨m, live, rfl, rfl, rfl⟩
  have second := (indexed.byName m.ownerId m.name _).mpr ⟨m', live', owner.symm, name.symm, rfl⟩
  rw [first, Option.some.injEq, AdminVal.text.injEq] at second
  exact indexed.single m m' live live' second

theorem indexed_deleted (indexed : TokensIndexed tokens s) {m : Minted} (live : tokens m)
    (used : Option Time) :
    TokensIndexed (fun m' => tokens m' ∧ m'.id ≠ m.id) (withoutToken (m.record used) s) := by
  have kinded := (leads_deleteToken (m.record used) s indexed.kinded).2
  have fields : ∀ id, (withoutToken (m.record used) s).hashAt (.token id) =
      if id = m.id then ∅ else s.hashAt (.token id) := by
    intro id
    obtain ⟨last, holds⟩ := indexed.record m live
    by_cases here : id = m.id
    · subst here
      simp [withoutToken, Minted.record, holds_erased holds]
    · simp [withoutToken, Minted.record, here]
  have hashes : ∀ h, (withoutToken (m.record used) s).bytesAt (.tokenByHash h) =
      if h = m.hash then none else s.bytesAt (.tokenByHash h) := by
    intro h
    simp [withoutToken, Minted.record]
  have names : ∀ owner name, (withoutToken (m.record used) s).bytesAt (.tokenByName owner name) =
      if owner = m.ownerId ∧ name = m.name then none else s.bytesAt (.tokenByName owner name) := by
    intro owner name
    simp [withoutToken, Minted.record]
  have owners : ∀ owner, (withoutToken (m.record used) s).setAt (.tokenByOwner owner) =
      if owner = m.ownerId then (s.setAt (.tokenByOwner owner)).erase m.id
      else s.setAt (.tokenByOwner owner) := by
    intro owner
    by_cases here : owner = m.ownerId
    · subst here
      simp [withoutToken, Minted.record]
    · simp [withoutToken, Minted.record, here]
  -- another token shares neither its hash nor its name with the one that goes
  have apart : ∀ m', tokens m' → (m'.id ≠ m.id ↔ m' ≠ m) := by
    intro m' live'
    exact not_congr ⟨indexed.single m' m live' live, fun same => same ▸ rfl⟩
  refine ⟨kinded, ?_, ?_, ?_, ?_, ?_, ?_⟩
  · rintro m' ⟨live', other⟩
    rw [fields, if_neg other]
    exact indexed.record m' live'
  · rintro m₁ m₂ ⟨live₁, _⟩ ⟨live₂, _⟩ same
    exact indexed.single m₁ m₂ live₁ live₂ same
  · intro id none
    rw [fields]
    split
    · rfl
    · rename_i other
      apply indexed.absent id
      rintro m' live' rfl
      exact none m' ⟨live', other⟩ rfl
  · intro h v
    rw [hashes]
    split
    · rename_i here
      subst here
      refine iff_of_false (by simp) ?_
      rintro ⟨m', ⟨live', other⟩, same, _⟩
      exact (apart m' live').mp other (indexed_hash indexed live' live same)
    · rename_i other
      rw [indexed.byHash]
      constructor
      · rintro ⟨m', live', same, value⟩
        refine ⟨m', ⟨live', (apart m' live').mpr ?_⟩, same, value⟩
        rintro rfl
        exact other same.symm
      · rintro ⟨m', ⟨live', _⟩, rest⟩
        exact ⟨m', live', rest⟩
  · intro owner name v
    rw [names]
    split
    · rename_i here
      obtain ⟨rfl, rfl⟩ := here
      refine iff_of_false (by simp) ?_
      rintro ⟨m', ⟨live', other⟩, owned, named, _⟩
      exact (apart m' live').mp other (indexed_name indexed live' live owned named)
    · rename_i other
      rw [indexed.byName]
      constructor
      · rintro ⟨m', live', owned, named, value⟩
        refine ⟨m', ⟨live', (apart m' live').mpr ?_⟩, owned, named, value⟩
        rintro rfl
        exact other ⟨owned.symm, named.symm⟩
      · rintro ⟨m', ⟨live', _⟩, rest⟩
        exact ⟨m', live', rest⟩
  · intro owner id
    rw [owners]
    split
    · rename_i here
      subst here
      rw [Storage.mem_setAt_erase, indexed.byOwner]
      constructor
      · rintro ⟨other, m', live', owned, rfl⟩
        exact ⟨m', ⟨live', other⟩, owned, rfl⟩
      · rintro ⟨m', ⟨live', other⟩, owned, rfl⟩
        exact ⟨other, m', live', owned, rfl⟩
    · rename_i other
      rw [indexed.byOwner]
      constructor
      · rintro ⟨m', live', owned, rfl⟩
        refine ⟨m', ⟨live', (apart m' live').mpr ?_⟩, owned, rfl⟩
        rintro rfl
        exact other owned.symm
      · rintro ⟨m', ⟨live', _⟩, rest⟩
        exact ⟨m', live', rest⟩

theorem indexed_renamed (indexed : TokensIndexed tokens s) {m : Minted} (live : tokens m)
    {name : String} (newName : ∀ m', tokens m' → m'.ownerId = m.ownerId → m'.name ≠ name) :
    TokensIndexed (fun m' => ∃ old, tokens old ∧ m' = old.named m.id name)
      (withTokenName m name s) := by
  have kinded : (withTokenName m name s).WellKinded := Storage.wellKinded_erase
    (Storage.wellKinded_putHash (Storage.wellKinded_put indexed.kinded rfl _ _) rfl _)
  have fields : ∀ id, (withTokenName m name s).hashAt (.token id) =
      if id = m.id then (s.hashAt (.token m.id)).insert "name" (.text name)
      else s.hashAt (.token id) := by
    intro id
    simp [withTokenName]
  have hashes : ∀ h, (withTokenName m name s).bytesAt (.tokenByHash h) =
      s.bytesAt (.tokenByHash h) := by
    intro h
    simp [withTokenName]
  have names : ∀ owner name', (withTokenName m name s).bytesAt (.tokenByName owner name') =
      if owner = m.ownerId ∧ name' = m.name then none
      else if owner = m.ownerId ∧ name' = name then some (.text m.id)
      else s.bytesAt (.tokenByName owner name') := by
    intro owner name'
    simp [withTokenName]
  have owners : ∀ owner, (withTokenName m name s).setAt (.tokenByOwner owner) =
      s.setAt (.tokenByOwner owner) := by
    intro owner
    simp [withTokenName]
  have moved : name ≠ m.name := fun same => newName m live rfl same.symm
  refine ⟨kinded, ?_, ?_, ?_, ?_, ?_, ?_⟩
  · rintro _ ⟨old, live', rfl⟩
    obtain ⟨used, holds⟩ := indexed.record old live'
    rw [named_id, fields]
    split
    · rename_i here
      obtain rfl := indexed.single old m live' live here
      rw [named_same]
      exact ⟨used, holds_named holds name⟩
    · rename_i other
      rw [named_other name other]
      exact ⟨used, holds⟩
  · rintro _ _ ⟨old, live₁, rfl⟩ ⟨old', live₂, rfl⟩ same
    rw [named_id, named_id] at same
    rw [indexed.single old old' live₁ live₂ same]
  · intro id none
    have unheld : ∀ m', tokens m' → m'.id ≠ id := by
      intro m' live'
      have other := none _ ⟨m', live', rfl⟩
      rw [named_id] at other
      exact other
    rw [fields, if_neg (unheld m live).symm]
    exact indexed.absent id unheld
  · intro h v
    rw [hashes, indexed.byHash]
    constructor
    · rintro ⟨old, live', same, value⟩
      exact ⟨_, ⟨old, live', rfl⟩, (named_hash _ _ _).trans same,
        (named_id m.id name old).symm ▸ value⟩
    · rintro ⟨_, ⟨old, live', rfl⟩, same, value⟩
      rw [named_hash] at same
      rw [named_id] at value
      exact ⟨old, live', same, value⟩
  · intro owner name' v
    rw [names]
    split
    · -- the old name leads nowhere
      rename_i here
      obtain ⟨rfl, rfl⟩ := here
      refine iff_of_false (by simp) ?_
      rintro ⟨_, ⟨old, live', rfl⟩, owned, called, _⟩
      rw [named_owner] at owned
      by_cases same : old.id = m.id
      · obtain rfl := indexed.single old m live' live same
        rw [named_same] at called
        exact moved called
      · rw [named_other name same] at called
        exact same (congrArg Minted.id (indexed_name indexed live' live owned called))
    · rename_i notOld
      split
      · -- the new name leads to the token
        rename_i here
        obtain ⟨rfl, rfl⟩ := here
        constructor
        · rintro ⟨⟩
          refine ⟨_, ⟨m, live, rfl⟩, named_owner _ _ _, ?_, ?_⟩
          · rw [named_same]
          · rw [named_id]
        · rintro ⟨_, ⟨old, live', rfl⟩, owned, called, rfl⟩
          rw [named_owner] at owned
          rw [named_id]
          by_cases same : old.id = m.id
          · rw [same]
          · rw [named_other _ same] at called
            exact absurd called (newName old live' owned)
      · rename_i notNew
        rw [indexed.byName]
        constructor
        · rintro ⟨old, live', owned, called, value⟩
          have other : old.id ≠ m.id := by
            intro same
            obtain rfl := indexed.single old m live' live same
            exact notOld ⟨owned.symm, called.symm⟩
          rw [← named_other name other] at owned called value
          exact ⟨_, ⟨old, live', rfl⟩, owned, called, value⟩
        · rintro ⟨_, ⟨old, live', rfl⟩, owned, called, value⟩
          have other : old.id ≠ m.id := by
            intro same
            obtain rfl := indexed.single old m live' live same
            rw [named_same] at owned called
            exact notNew ⟨owned.symm, called.symm⟩
          rw [named_other name other] at owned called value
          exact ⟨old, live', owned, called, value⟩
  · intro owner id
    rw [owners, indexed.byOwner]
    constructor
    · rintro ⟨old, live', owned, same⟩
      exact ⟨_, ⟨old, live', rfl⟩, (named_owner _ _ _).trans owned, (named_id _ _ _).trans same⟩
    · rintro ⟨_, ⟨old, live', rfl⟩, owned, same⟩
      rw [named_owner] at owned
      rw [named_id] at same
      exact ⟨old, live', owned, same⟩

end Tokens
end
end WireMirage
