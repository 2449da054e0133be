import WireMirage.Auth.LoginThrottle
import WireMirage.Auth.Records
import WireMirage.Store.Cells

/-!
Keys are texts, built from the prefix of a bucket and what a handler chose. Whatever it chose,
two buckets share no key, and no record of the host stands under a key of a bucket.
-/
namespace WireMirage

/-! The keys of the host's records, as text -/

def Key.text : Key → String
  | .group id => "group:" ++ id
  | .groupByName name => "group:by-name:" ++ name
  | .groupOwner owner => "group:owner:" ++ owner
  | .groupAll => "group:all"
  | .groupCounters id => "group:counters:" ++ id
  | .route id => "route:" ++ id
  | .routeByNumber groupId number => "route:by-number:" ++ groupId ++ ":" ++ toString number
  | .routeInGroup groupId => "route:in-group:" ++ groupId
  | .routeAll => "route:all"
  | .routeByOwner owner => "route:by-owner:" ++ owner
  | .kv groupId routeId key => routeBucket groupId routeId ++ key
  | .gkv groupId key => groupBucket groupId ++ key
  | .journal groupId id => "journal:" ++ groupId ++ ":" ++ id
  | .journalByNumber groupId number => "journal:by-number:" ++ groupId ++ ":" ++ toString number
  | .callback groupId id => "callback:" ++ groupId ++ ":" ++ id
  | .callbackByNumber groupId number => "callback:by-number:" ++ groupId ++ ":" ++ toString number
  | .unmatched id => "unmatched:" ++ id
  | .unmatchedByNumber number => "unmatched:by-number:" ++ toString number
  | .unmatchedCounter => "unmatched:counter"
  | .sweepLease => "sweep:lease"

def AdminKey.text : AdminKey → String
  | .user id => "user:" ++ id
  | .userByEmail email => "user:by-email:" ++ email
  | .userByName name => "user:by-name:" ++ name
  | .userByIdentity provider subject => "user:by-identity:" ++ provider ++ ":" ++ subject
  | .userAll => "user:all"
  | .token id => "token:" ++ id
  | .tokenByHash hash => "token:by-hash:" ++ hash
  | .tokenByName ownerId name => "token:by-name:" ++ ownerId ++ ":" ++ name
  | .tokenByOwner ownerId => "token:by-owner:" ++ ownerId
  | .session id => "session:" ++ id
  | .client clientId => "oauth:client:" ++ clientId
  | .pending state => "oauth:pending:" ++ state
  | .code id => "oauth:code:" ++ id
  | .refresh hash => "oauth:refresh:" ++ hash
  | .refreshByUser userId => "oauth:refresh:by-user:" ++ userId
  | .access hash => "oauth:access:" ++ hash

def ThrottleKey.text : ThrottleKey → String
  | .fails ip => "throttle:fails:" ++ ip
  | .window ip => "throttle:window:" ++ ip
  | .lock ip => "throttle:lock:" ++ ip

/-- A key that the host keeps a record of its own under. -/
inductive HostKey : String → Prop where
  | record (k : Key) (own : k.family.isSome) : HostKey k.text
  | admin (k : AdminKey) : HostKey k.text
  | throttle (k : ThrottleKey) : HostKey k.text
  | oauthState (nonce : String) : HostKey ("oauth_state:" ++ nonce)
  | oidcState (nonce : String) : HostKey ("oidc_state:" ++ nonce)

/-! Prefixes that no two keys share -/

/-- Texts of ULID length that two equal texts begin with are one. -/
theorem ulid_split {x y a b : String} (first : isUlid x) (second : isUlid y)
    (joined : x ++ a = y ++ b) : x = y ∧ a = b := by
  unfold isUlid at first second
  simp only [decide_eq_true_eq] at first second
  have chars := congrArg String.toList joined
  rw [String.toList_append, String.toList_append] at chars
  obtain ⟨heads, tails⟩ := List.append_inj chars (first.1.trans second.1.symm)
  exact ⟨String.toList_inj.mp heads, String.toList_inj.mp tails⟩

/-- The bucket of a route or of a group, outside any dry run. -/
inductive StoredBucket : String → Prop where
  | route (groupUlid routeUlid : String) (group : isUlid groupUlid) (route : isUlid routeUlid) :
      StoredBucket (routeBucket groupUlid routeUlid)
  | group (groupUlid : String) (group : isUlid groupUlid) : StoredBucket (groupBucket groupUlid)

theorem routeBucket_append (groupUlid routeUlid rest : String) :
    routeBucket groupUlid routeUlid ++ rest =
      "kv:" ++ (groupUlid ++ (":" ++ (routeUlid ++ (":" ++ rest)))) := by
  simp only [routeBucket, routeBucketUnder, String.append_assoc, String.empty_append]

theorem groupBucket_append (groupUlid rest : String) :
    groupBucket groupUlid ++ rest = "gkv:" ++ (groupUlid ++ (":" ++ rest)) := by
  simp only [groupBucket, groupBucketUnder, String.append_assoc, String.empty_append]

theorem kv_ne_gkv (a b : String) : "kv:" ++ a ≠ "gkv:" ++ b := apart_of_differ (by decide) a b

theorem scope_apart {p q : String} (first : StoredBucket p) (second : StoredBucket q)
    (other : p ≠ q) : PrefixesApart p q := by
  intro a b joined
  cases first with
  | route g r group route =>
    rw [routeBucket_append] at joined
    cases second with
    | route g' r' group' route' =>
      rw [routeBucket_append] at joined
      obtain ⟨rfl, rest⟩ := ulid_split group group' (append_left_cancel joined)
      obtain ⟨rfl, _⟩ := ulid_split route route' (append_left_cancel rest)
      exact other rfl
    | group g' group' =>
      rw [groupBucket_append] at joined
      exact kv_ne_gkv _ _ joined
  | group g group =>
    rw [groupBucket_append] at joined
    cases second with
    | route g' r' group' route' =>
      rw [routeBucket_append] at joined
      exact kv_ne_gkv _ _ joined.symm
    | group g' group' =>
      rw [groupBucket_append] at joined
      obtain ⟨rfl, _⟩ := ulid_split group group' (append_left_cancel joined)
      exact other rfl

theorem scope_of_bucket {p : String} (bucket : IsBucket p) (handlers : p ≠ adminBucket) :
    ∃ root scope, IsRoot root ∧ StoredBucket scope ∧ p = root ++ scope := by
  cases bucket with
  | admin => exact absurd rfl handlers
  | route root g r under group route =>
    refine ⟨root, routeBucket g r, under, .route g r group route, ?_⟩
    simp only [routeBucket, routeBucketUnder, String.append_assoc, String.empty_append]
  | group root g under group =>
    refine ⟨root, groupBucket g, under, .group g group, ?_⟩
    simp only [groupBucket, groupBucketUnder, String.append_assoc, String.empty_append]

/-- A key of a bucket begins as no other text does that differs from the two beginnings. -/
theorem scope_ne {p x : String} (scope : StoredBucket p) (routes : Differ "kv:" x)
    (groups : Differ "gkv:" x) (a b : String) : p ++ a ≠ x ++ b := by
  cases scope with
  | route g r _ _ =>
    rw [routeBucket_append]
    exact apart_of_differ routes _ _
  | group g _ =>
    rw [groupBucket_append]
    exact apart_of_differ groups _ _

theorem scope_ne_dryRun {p : String} (scope : StoredBucket p) (a b : String) :
    p ++ a ≠ "dryrun:" ++ b := scope_ne scope (by decide) (by decide) a b

theorem buckets_apart {p q : String} (first : IsBucket p) (second : IsBucket q)
    (handlers : p ≠ adminBucket) (handlers' : q ≠ adminBucket) (other : p ≠ q) :
    PrefixesApart p q := by
  obtain ⟨root, scope, under, within, rfl⟩ := scope_of_bucket first handlers
  obtain ⟨root', scope', under', within', rfl⟩ := scope_of_bucket second handlers'
  intro a b joined
  cases under with
  | stored =>
    cases under' with
    | stored =>
      rw [String.empty_append, String.empty_append] at joined
      rw [String.empty_append, String.empty_append] at other
      exact scope_apart within within' other a b joined
    | dryRun run ulid =>
      simp only [String.empty_append, String.append_assoc] at joined
      exact scope_ne_dryRun within a _ joined
  | dryRun run ulid =>
    cases under' with
    | stored =>
      simp only [String.empty_append, String.append_assoc] at joined
      exact scope_ne_dryRun within' b _ joined.symm
    | dryRun run' ulid' =>
      simp only [String.append_assoc] at joined
      obtain ⟨rfl, rest⟩ := ulid_split ulid ulid' (append_left_cancel joined)
      refine scope_apart within within' ?_ a b (append_left_cancel rest)
      intro same
      rw [same] at other
      exact other rfl

/-! Host keys -/

/-- What the keys of the host's records begin with. -/
def hostPrefixes : List String := [
  "group:", "group:by-name:", "group:owner:", "group:all", "group:counters:", "route:",
  "route:by-number:", "route:in-group:", "route:all", "route:by-owner:", "journal:",
  "journal:by-number:", "callback:", "callback:by-number:", "unmatched:",
  "unmatched:by-number:", "unmatched:counter", "sweep:lease", "user:", "user:by-email:",
  "user:by-name:", "user:by-identity:", "user:all", "token:", "token:by-hash:",
  "token:by-name:", "token:by-owner:", "session:", "oauth:client:", "oauth:pending:",
  "oauth:code:", "oauth:refresh:", "oauth:refresh:by-user:", "oauth:access:",
  "throttle:fails:", "throttle:window:", "throttle:lock:", "oauth_state:", "oidc_state:"]

theorem hostPrefixes_differ : hostPrefixes.all (fun x =>
    Differ "kv:" x && Differ "gkv:" x && Differ "dryrun:" x) = true := by decide

/-- A key of the host begins with one of the prefixes. -/
def Begins (k : String) : Prop := ∃ x ∈ hostPrefixes, ∃ rest, k = x ++ rest

theorem begins {x : String} (known : x ∈ hostPrefixes) (rest : String) : Begins (x ++ rest) :=
  ⟨x, known, rest, rfl⟩

theorem begins_whole {x : String} (known : x ∈ hostPrefixes) : Begins x :=
  ⟨x, known, "", String.append_empty.symm⟩

theorem begins_append {k : String} (starts : Begins k) (rest : String) : Begins (k ++ rest) := by
  obtain ⟨x, known, middle, rfl⟩ := starts
  exact ⟨x, known, middle ++ rest, String.append_assoc⟩

theorem begins_record (k : Key) (own : k.family.isSome) : Begins k.text := by
  cases k with
  | group id => exact begins (by decide) id
  | groupByName name => exact begins (by decide) name
  | groupOwner owner => exact begins (by decide) owner
  | groupAll => exact begins_whole (by decide)
  | groupCounters id => exact begins (by decide) id
  | route id => exact begins (by decide) id
  | routeByNumber g number => exact begins_append (begins_append (begins (by decide) g) _) _
  | routeInGroup g => exact begins (by decide) g
  | routeAll => exact begins_whole (by decide)
  | routeByOwner owner => exact begins (by decide) owner
  | kv g r key => cases own
  | gkv g key => cases own
  | journal g id => exact begins_append (begins_append (begins (by decide) g) _) _
  | journalByNumber g number => exact begins_append (begins_append (begins (by decide) g) _) _
  | callback g id => exact begins_append (begins_append (begins (by decide) g) _) _
  | callbackByNumber g number => exact begins_append (begins_append (begins (by decide) g) _) _
  | unmatched id => exact begins (by decide) id
  | unmatchedByNumber number => exact begins (by decide) _
  | unmatchedCounter => exact begins_whole (by decide)
  | sweepLease => exact begins_whole (by decide)

theorem begins_admin (k : AdminKey) : Begins k.text := by
  cases k with
  | user id => exact begins (by decide) id
  | userByEmail email => exact begins (by decide) email
  | userByName name => exact begins (by decide) name
  | userByIdentity provider subject =>
    exact begins_append (begins_append (begins (by decide) provider) _) _
  | userAll => exact begins_whole (by decide)
  | token id => exact begins (by decide) id
  | tokenByHash hash => exact begins (by decide) hash
  | tokenByName owner name => exact begins_append (begins_append (begins (by decide) owner) _) _
  | tokenByOwner owner => exact begins (by decide) owner
  | session id => exact begins (by decide) id
  | client id => exact begins (by decide) id
  | pending state => exact begins (by decide) state
  | code id => exact begins (by decide) id
  | refresh hash => exact begins (by decide) hash
  | refreshByUser user => exact begins (by decide) user
  | access hash => exact begins (by decide) hash

theorem begins_throttle (k : ThrottleKey) : Begins k.text := by
  cases k with
  | fails ip => exact begins (by decide) ip
  | window ip => exact begins (by decide) ip
  | lock ip => exact begins (by decide) ip

theorem begins_host {k : String} (host : HostKey k) : Begins k := by
  cases host with
  | record k own => exact begins_record k own
  | admin k => exact begins_admin k
  | throttle k => exact begins_throttle k
  | oauthState nonce => exact begins (by decide) nonce
  | oidcState nonce => exact begins (by decide) nonce

/-- No key of a bucket is a key of the host. -/
theorem host_outside {p k : String} (bucket : IsBucket p) (handlers : p ≠ adminBucket)
    (host : HostKey k) (key : String) : k ≠ p ++ key := by
  obtain ⟨x, known, rest, rfl⟩ := begins_host host
  have differ := List.all_eq_true.mp hostPrefixes_differ x known
  simp only [Bool.and_eq_true] at differ
  obtain ⟨root, scope, under, within, rfl⟩ := scope_of_bucket bucket handlers
  intro joined
  cases under with
  | stored =>
    rw [String.empty_append] at joined
    exact scope_ne within differ.1.1 differ.1.2 key rest joined.symm
  | dryRun run ulid =>
    simp only [String.append_assoc] at joined
    exact apart_of_differ differ.2 _ rest joined.symm

/-! Calls through one bucket -/

/-- The store after calls on a bucket. -/
def afterCalls (reporting : Reporting) (p : String) (calls : List BucketCall) (s : Backing) :
    Backing := calls.foldl (fun s call => (call.perform reporting p s).2) s

section AfterCalls
variable {reporting : Reporting} {p : String}

theorem lookup_afterCalls (calls : List BucketCall) (s : Backing) {k : String}
    (outside : ∀ key, k ≠ p ++ key) :
    (afterCalls reporting p calls s).lookup k = s.lookup k := by
  induction calls generalizing s with
  | nil => rfl
  | cons call calls ih => exact (ih _).trans (lookup_perform p s call outside)

theorem backend_afterCalls (calls : List BucketCall) (s : Backing) :
    (afterCalls reporting p calls s).backend = s.backend := by
  induction calls generalizing s with
  | nil => rfl
  | cons call calls ih => exact (ih _).trans (backend_perform p s call)

end AfterCalls

/-- Calls on a bucket of the in-memory store change no answer of another bucket and of no key of
    the host, and a bucket lists its own keys without the prefix. -/
theorem buckets_isolated {reporting : Reporting} {p : String} (bucket : IsBucket p)
    (handlers : p ≠ adminBucket) (calls : List BucketCall) (s : Backing)
    (memory : s.backend = .inMemory) :
    (∀ q (call : BucketCall), IsBucket q → q ≠ adminBucket → q ≠ p →
      SameReply (call.perform reporting q (afterCalls reporting p calls s)).1
        (call.perform reporting q s).1) ∧
    (∀ k (call : KeyCall), HostKey k →
      ((BucketCall.on k call).perform reporting adminBucket (afterCalls reporting p calls s)).1 =
        ((BucketCall.on k call).perform reporting adminBucket s).1) ∧
    (∀ userPrefix, (listKeys reporting p userPrefix s).map (p ++ ·) =
        s.entries.keys.filter (startsWith (p ++ userPrefix.getD "")) ∧
      ∀ key, key ∈ listKeys reporting p userPrefix s ↔
        (∃ v, s.lookup (p ++ key) = some v) ∧ startsWith (userPrefix.getD "") key = true) := by
  have memory' : (afterCalls reporting p calls s).backend = .inMemory :=
    (backend_afterCalls calls s).trans memory
  refine ⟨?_, ?_, ?_⟩
  · intro q call other handlers' ne
    have apart := buckets_apart other bucket handlers' handlers ne
    have same : SameBucket q (afterCalls reporting p calls s) q s := by
      refine ⟨memory', memory, ?_⟩
      intro key
      exact lookup_afterCalls calls s (fun own => apart key own)
    exact (perform_same other other same call).1
  · intro k call host
    rw [answer_on, answer_on, memory', memory, lookup_afterCalls calls s]
    intro key joined
    rw [adminBucket, String.empty_append] at joined
    exact host_outside bucket handlers host key joined
  · intro userPrefix
    have plain := literal_bucket bucket
    have lists : ListsExactly reporting p (userPrefix.getD "") s :=
      listsExactly_of_readsLiterally plain (.inl memory)
    refine ⟨?_, lists.2⟩
    have scan : scanWithPrefix reporting (p ++ userPrefix.getD "") s =
        s.entries.keys.filter (startsWith (p ++ userPrefix.getD "")) := by
      rw [scanWithPrefix, memory]
    have whole : ∀ k ∈ scanWithPrefix reporting (p ++ userPrefix.getD "") s,
        p ++ (stripKeyPrefix p k).getD k = k := by
      intro k scanned
      obtain ⟨key, rfl⟩ := scan_in_bucket plain scanned
      rw [stripKeyPrefix_append]
      rfl
    rw [listKeys, List.map_map, ← scan]
    exact (List.map_congr_left whole).trans (List.map_id _)

namespace Sample

/-- A counter of a group's, and the group's record. -/
def kept : Backing :=
  (Storage.hashSet "group:01J9ZK6C3N0000000000000A01" "name" (utf8Bytes "shop")
    (Storage.set (groupBucket "01J9ZK6C3N0000000000000A01" ++ "n") (utf8Bytes "1")
      (Storage.empty .inMemory)).2).2

end Sample

theorem buckets_isolated_kept :
    ((BucketCall.on "group:01J9ZK6C3N0000000000000A01" (.hashGet "name")).perform Sample.reported
      adminBucket (afterCalls Sample.reported (groupBucket "01J9ZK6C3N0000000000000A01")
        [.on "n" (.incr 1), .deleteWithPrefix ""] Sample.kept)).1 =
      .ok (.value (some (utf8Bytes "shop"))) := by
  have bucket : IsBucket (groupBucket "01J9ZK6C3N0000000000000A01") :=
    .group "" "01J9ZK6C3N0000000000000A01" .stored (by decide +kernel)
  have isolated := (@buckets_isolated Sample.reported _ bucket (by decide)
    [.on "n" (.incr 1), .deleteWithPrefix ""] Sample.kept rfl).2.1
  have host : HostKey "group:01J9ZK6C3N0000000000000A01" :=
    .record (.group "01J9ZK6C3N0000000000000A01") rfl
  rw [isolated _ _ host]
  decide +kernel

end WireMirage
