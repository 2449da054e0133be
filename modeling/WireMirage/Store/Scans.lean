import WireMirage.Store.Handles

/-!
Scans for a prefix. The in-memory store compares the prefix with its keys; on Valkey the
prefix becomes the front of a glob pattern, and the scan may report a key again.
-/
namespace WireMirage

section Scans
variable (reporting : Reporting) (p userPrefix : String) (s : Backing)

/-- The root of the buckets of a dry run, or none. -/
inductive IsRoot : String → Prop where
  | stored : IsRoot ""
  | dryRun (runId : String) (ulid : isUlid runId) : IsRoot ("dryrun:" ++ runId ++ ":")

/-- The prefixes that buckets are opened with. -/
inductive IsBucket : String → Prop where
  | admin : IsBucket adminBucket
  | route (root groupUlid routeUlid : String) (under : IsRoot root) (group : isUlid groupUlid)
      (route : isUlid routeUlid) : IsBucket (routeBucketUnder root groupUlid routeUlid)
  | group (root groupUlid : String) (under : IsRoot root) (group : isUlid groupUlid) :
      IsBucket (groupBucketUnder root groupUlid)

/-- The keys of a bucket that begin with a prefix, each once. -/
def ListsExactly : Prop :=
  (listKeys reporting p (some userPrefix) s).Nodup ∧
    ∀ key, key ∈ listKeys reporting p (some userPrefix) s ↔
      (∃ v, s.lookup (p ++ key) = some v) ∧ startsWith userPrefix key = true

/-- The keys that begin with a prefix are gone, and their number is the answer. -/
def DeletesExactly : Prop :=
  (∀ k, (deleteWithPrefix reporting p userPrefix s).2.lookup k =
      if startsWith (p ++ userPrefix) k = true then none else s.lookup k) ∧
    (deleteWithPrefix reporting p userPrefix s).1 =
      (s.entries.keys.filter (startsWith (p ++ userPrefix))).length

/-- The scan tells every key once, and reads the prefix as every stored key takes it literally. -/
def ReadsLiterally : Prop :=
  s.backend = .inMemory ∨
    (scanWithPrefix reporting (p ++ userPrefix) s).Nodup ∧
      ∀ k v, s.lookup k = some v →
        Glob.isMatch (utf8Bytes (p ++ userPrefix ++ "*")) (utf8Bytes k) =
          startsWith (p ++ userPrefix) k

end Scans

section
variable {reporting : Reporting} {p userPrefix : String} {s : Backing}

theorem startsWith_append (p u key : String) :
    startsWith (p ++ u) (p ++ key) = startsWith u key := by
  rw [Bool.eq_iff_iff, startsWith_iff, startsWith_iff]
  constructor
  · rintro ⟨t, same⟩
    rw [String.append_assoc] at same
    exact ⟨t, append_left_cancel same⟩
  · rintro ⟨t, rfl⟩
    exact ⟨t, String.append_assoc.symm⟩

theorem prefix_of_startsWith {u k : String} (starts : startsWith (p ++ u) k = true) :
    ∃ key, k = p ++ key := by
  obtain ⟨t, rfl⟩ := (startsWith_iff _ _).mp starts
  exact ⟨u ++ t, String.append_assoc⟩

/-- What a scan for a bucket's keys reports stands behind the prefix of the bucket. -/
theorem scan_in_bucket (plain : Glob.Literal (utf8Bytes p)) {k : String}
    (scanned : k ∈ scanWithPrefix reporting (p ++ userPrefix) s) : ∃ key, k = p ++ key := by
  unfold scanWithPrefix at scanned
  cases backend : s.backend with
  | inMemory =>
    simp only [backend, List.mem_filter] at scanned
    exact prefix_of_startsWith scanned.2
  | valkey =>
    simp only [backend, reporting.mem_report, List.mem_filter, utf8Bytes_append,
      List.append_assoc] at scanned
    have starts := Glob.prefix_of_isMatch plain scanned.2
    exact (startsWith_iff p k).mp (List.isPrefixOf_iff_prefix.mpr starts)

theorem mem_listed (plain : Glob.Literal (utf8Bytes p)) (key : String) :
    key ∈ listKeys reporting p (some userPrefix) s ↔
      p ++ key ∈ scanWithPrefix reporting (p ++ userPrefix) s := by
  simp only [listKeys, Option.getD_some, List.mem_map]
  constructor
  · rintro ⟨k, scanned, rfl⟩
    obtain ⟨key, rfl⟩ := scan_in_bucket plain scanned
    rw [stripKeyPrefix_append]
    exact scanned
  · intro scanned
    refine ⟨p ++ key, scanned, ?_⟩
    rw [stripKeyPrefix_append]
    rfl

theorem nodup_listed (plain : Glob.Literal (utf8Bytes p)) :
    (listKeys reporting p (some userPrefix) s).Nodup ↔
      (scanWithPrefix reporting (p ++ userPrefix) s).Nodup := by
  have whole : listKeys reporting p (some userPrefix) s =
      (scanWithPrefix reporting (p ++ userPrefix) s).map
        (fun k => (stripKeyPrefix p k).getD k) := rfl
  rw [whole]
  constructor
  · intro once
    exact once.of_map _
  · intro once
    apply once.map_on
    intro a first b second same
    obtain ⟨x, rfl⟩ := scan_in_bucket plain first
    obtain ⟨y, rfl⟩ := scan_in_bucket plain second
    simp only [stripKeyPrefix_append, Option.getD_some] at same
    rw [same]

/-! The prefixes of buckets -/

theorem literal_root {root : String} (under : IsRoot root) : Glob.Literal (utf8Bytes root) := by
  cases under with
  | stored =>
    unfold Glob.Literal
    decide +kernel
  | dryRun runId ulid =>
    have dryRun : Glob.Literal (utf8Bytes "dryrun:") := by
      unfold Glob.Literal
      decide +kernel
    have colon : Glob.Literal (utf8Bytes ":") := by
      unfold Glob.Literal
      decide +kernel
    simp only [utf8Bytes_append]
    exact literal_append (literal_append dryRun (literal_ulid ulid)) colon

/-- No byte of a bucket's prefix is special in a pattern. -/
theorem literal_bucket (bucket : IsBucket p) : Glob.Literal (utf8Bytes p) := by
  cases bucket with
  | admin =>
    unfold Glob.Literal
    decide +kernel
  | route root groupUlid routeUlid under group route =>
    have stored := literal_routeBucket group route
    have joined : routeBucketUnder root groupUlid routeUlid =
        root ++ routeBucket groupUlid routeUlid := by
      simp only [routeBucket, routeBucketUnder, String.append_assoc, String.empty_append]
    rw [joined, utf8Bytes_append]
    exact literal_append (literal_root under) stored
  | group root groupUlid under group =>
    have stored := literal_groupBucket group
    have joined : groupBucketUnder root groupUlid = root ++ groupBucket groupUlid := by
      simp only [groupBucket, groupBucketUnder, String.append_assoc, String.empty_append]
    rw [joined, utf8Bytes_append]
    exact literal_append (literal_root under) stored

/-! What is listed -/

theorem mem_scan (full k : String) :
    k ∈ scanWithPrefix reporting full s ↔ (∃ v, s.lookup k = some v) ∧
      (match s.backend with
       | .inMemory => startsWith full k
       | .valkey => Glob.isMatch (utf8Bytes (full ++ "*")) (utf8Bytes k)) = true := by
  unfold scanWithPrefix
  cases s.backend with
  | inMemory => simp only [List.mem_filter, mem_keys_iff]
  | valkey => simp only [reporting.mem_report, List.mem_filter, mem_keys_iff]

theorem scan_inMemory_nodup (full : String) (backend : s.backend = .inMemory) :
    (scanWithPrefix reporting full s).Nodup := by
  rw [scanWithPrefix, backend]
  exact s.entries.nodupKeys.filter _

theorem listsExactly_of_readsLiterally (plain : Glob.Literal (utf8Bytes p))
    (literal : ReadsLiterally reporting p userPrefix s) :
    ListsExactly reporting p userPrefix s := by
  unfold ListsExactly
  rw [nodup_listed plain]
  simp only [mem_listed plain, mem_scan]
  rcases literal with backend | ⟨once, same⟩
  · refine ⟨scan_inMemory_nodup _ backend, ?_⟩
    intro key
    rw [backend, startsWith_append]
  · refine ⟨once, ?_⟩
    intro key
    cases s.backend with
    | inMemory => rw [startsWith_append]
    | valkey =>
      constructor
      · rintro ⟨⟨v, held⟩, matched⟩
        have starts := (same _ v held).symm.trans matched
        rw [startsWith_append] at starts
        exact ⟨⟨v, held⟩, starts⟩
      · rintro ⟨⟨v, held⟩, starts⟩
        rw [← startsWith_append p] at starts
        exact ⟨⟨v, held⟩, (same _ v held).trans starts⟩

theorem readsLiterally_of_listsExactly (plain : Glob.Literal (utf8Bytes p))
    (lists : ListsExactly reporting p userPrefix s) :
    ReadsLiterally reporting p userPrefix s := by
  obtain ⟨once, members⟩ := lists
  rw [nodup_listed plain] at once
  cases backend : s.backend with
  | inMemory => exact .inl backend
  | valkey =>
    refine .inr ⟨once, ?_⟩
    intro k v held
    rw [Bool.eq_iff_iff]
    constructor
    · intro matched
      have scanned : k ∈ scanWithPrefix reporting (p ++ userPrefix) s := by
        rw [mem_scan, backend]
        exact ⟨⟨v, held⟩, matched⟩
      obtain ⟨key, rfl⟩ := scan_in_bucket plain scanned
      have starts := ((members key).mp ((mem_listed plain key).mpr scanned)).2
      rw [startsWith_append]
      exact starts
    · intro starts
      obtain ⟨key, rfl⟩ := prefix_of_startsWith starts
      rw [startsWith_append] at starts
      have listed := (members key).mpr ⟨⟨v, held⟩, starts⟩
      have scanned := (mem_listed plain key).mp listed
      rw [mem_scan, backend] at scanned
      exact scanned.2

/-! What is deleted -/

theorem lookup_deleteAll (p : String) (keys : List String) (s : Backing) (k : String) :
    (keys.foldl (fun s key => (inBucket p Storage.delete key s).2) s).lookup k =
      if k ∈ keys.map (p ++ ·) then none else s.lookup k := by
  induction keys generalizing s with
  | nil => simp
  | cons key keys ih =>
    have step : (inBucket p Storage.delete key s).2.lookup k =
        if k = p ++ key then none else s.lookup k := Storage.lookup_erase s (p ++ key) k
    rw [List.foldl_cons, ih, step]
    simp only [List.map_cons, List.mem_cons]
    by_cases here : k = p ++ key
    · simp [here]
    · simp [here]

/-- What is deleted is what is listed, and so is the number of deletions. -/
theorem deletesExactly_of_listsExactly (plain : Glob.Literal (utf8Bytes p))
    (lists : ListsExactly reporting p userPrefix s) :
    DeletesExactly reporting p userPrefix s := by
  obtain ⟨once, members⟩ := lists
  constructor
  · intro k
    simp only [deleteWithPrefix, lookup_deleteAll]
    by_cases starts : startsWith (p ++ userPrefix) k = true
    · rw [if_pos starts]
      obtain ⟨key, rfl⟩ := prefix_of_startsWith starts
      split
      · rfl
      · rename_i absent
        by_contra held
        obtain ⟨v, held⟩ := Option.ne_none_iff_exists'.mp held
        rw [startsWith_append] at starts
        exact absent (List.mem_map_of_mem ((members key).mpr ⟨⟨v, held⟩, starts⟩))
    · rw [if_neg starts, if_neg]
      intro listed
      obtain ⟨key, member, rfl⟩ := List.mem_map.mp listed
      rw [startsWith_append] at starts
      exact starts ((members key).mp member).2
  · have same : (scanWithPrefix reporting (p ++ userPrefix) s).Perm
        (s.entries.keys.filter (startsWith (p ++ userPrefix))) := by
      apply (List.perm_ext_iff_of_nodup ((nodup_listed plain).mp once)
        (s.entries.nodupKeys.filter _)).mpr
      intro k
      show _ ↔ k ∈ s.entries.keys.filter (startsWith (p ++ userPrefix))
      rw [List.mem_filter, mem_keys_iff]
      constructor
      · intro scanned
        obtain ⟨key, rfl⟩ := scan_in_bucket plain scanned
        rw [startsWith_append]
        exact (members key).mp ((mem_listed plain key).mpr scanned)
      · rintro ⟨held, starts⟩
        obtain ⟨key, rfl⟩ := prefix_of_startsWith starts
        rw [startsWith_append] at starts
        exact (mem_listed plain key).mp ((members key).mpr ⟨held, starts⟩)
    rw [← same.length_eq]
    simp [deleteWithPrefix, listKeys]

/-- A bucket lists and deletes the keys behind a prefix exactly when no key is told apart by
    reading the prefix as a pattern, which a prefix free of special bytes never does. -/
theorem prefix_scans_literal (bucket : IsBucket p) :
    (ListsExactly reporting p userPrefix s ∧ DeletesExactly reporting p userPrefix s ↔
      ReadsLiterally reporting p userPrefix s) ∧
    (Glob.Literal (utf8Bytes userPrefix) → ∀ k,
      Glob.isMatch (utf8Bytes (p ++ userPrefix ++ "*")) (utf8Bytes k) =
        startsWith (p ++ userPrefix) k) := by
  have plain := literal_bucket bucket
  constructor
  · constructor
    · rintro ⟨lists, _⟩
      exact readsLiterally_of_listsExactly plain lists
    · intro literal
      have lists := listsExactly_of_readsLiterally plain literal
      exact ⟨lists, deletesExactly_of_listsExactly plain lists⟩
  · intro chosen k
    have star : utf8Bytes "*" = [42] := by decide +kernel
    have both : Glob.Literal (utf8Bytes (p ++ userPrefix)) := by
      rw [utf8Bytes_append]
      exact literal_append plain chosen
    rw [Bool.eq_iff_iff, utf8Bytes_append, star, Glob.isMatch_literal both, startsWith,
      List.isPrefixOf_iff_prefix]

namespace Sample

def reported : Reporting := ⟨id, mem_as_held⟩

def carts : Backing :=
  Storage.replace ⟨.valkey, ∅, 0⟩ (groupBucket "01J9ZK6C3N0000000000000A01" ++ "cart")
    (.bytes [1]) none

end Sample

theorem prefix_scans_literal_carts :
    ListsExactly Sample.reported (groupBucket "01J9ZK6C3N0000000000000A01") "ca" Sample.carts ∧
      DeletesExactly Sample.reported (groupBucket "01J9ZK6C3N0000000000000A01") "ca"
        Sample.carts := by
  have bucket : IsBucket (groupBucket "01J9ZK6C3N0000000000000A01") :=
    .group "" "01J9ZK6C3N0000000000000A01" .stored (by decide +kernel)
  have scans := @prefix_scans_literal Sample.reported _ "ca" Sample.carts bucket
  have chosen : Glob.Literal (utf8Bytes "ca") := by
    unfold Glob.Literal
    decide +kernel
  exact scans.1.mpr (.inr ⟨by decide +kernel, fun k _ _ => scans.2 chosen k⟩)

/-- The prefix `ca?` begins no key, and a bucket with the key `cart` lists and deletes it. -/
theorem pattern_prefix_scans :
    ¬ (ListsExactly Sample.reported (groupBucket "01J9ZK6C3N0000000000000A01") "ca?"
        Sample.carts ∧
      DeletesExactly Sample.reported (groupBucket "01J9ZK6C3N0000000000000A01") "ca?"
        Sample.carts) := by
  rintro ⟨lists, _⟩
  have listed : "cart" ∈ listKeys Sample.reported (groupBucket "01J9ZK6C3N0000000000000A01")
      (some "ca?") Sample.carts := by decide +kernel
  have starts := ((lists.2 "cart").mp listed).2
  revert starts
  decide +kernel

end
end WireMirage
