import WireMirage.Dispatch.Responses
import WireMirage.Library.Client
import WireMirage.Store.Isolation
import WireMirage.Wire

/-!
Dry runs on the in-memory store, where opening a bucket, copying and deleting cannot fail. The
handler runs on a copy of its two buckets under the root of the run, and the root is emptied
when the run ends, however it ends.
-/
namespace WireMirage
open Client

inductive LogLevel where
  | debug
  | info
  | warn
  | error
  deriving DecidableEq, Repr

def LogLevel.asStr : LogLevel → String
  | .debug => "debug"
  | .info => "info"
  | .warn => "warn"
  | .error => "error"

structure LogRecord where
  level : LogLevel
  message : String
  timestamp : Time
  deriving DecidableEq, Repr

structure DryRunLog where
  level : String
  message : String
  timestamp : Time
  deriving DecidableEq, Repr

def intoDryLog (r : LogRecord) : DryRunLog := ⟨r.level.asStr, r.message, r.timestamp⟩

structure DryRunRequest where
  method : String
  path : String
  headers : List (String × String)
  body : Bytes
  pathParams : Option (List (String × String))
  query : List (String × String)
  kvOverrides : Fields WireBytes
  gkvOverrides : Fields WireBytes

structure DryRunResponse where
  status : UInt16
  headers : List (String × String)
  body : Bytes
  handlerLogs : List DryRunLog
  error : Option String
  snapshotKeys : Nat
  deriving DecidableEq, Repr

structure WitRequest where
  method : String
  path : String
  matchedPattern : String
  pathParams : List (String × String)
  query : List (String × String)
  headers : List (String × String)
  body : Bytes

structure RunOk where
  status : UInt16
  headers : List (String × String)
  body : Bytes
  logs : List LogRecord
  snapshotKeys : Nat

structure RunFail where
  message : String
  logs : List LogRecord
  snapshotKeys : Nat

/-! Handlers -/

/-- The two buckets a handler holds. -/
inductive Held where
  | route
  | group
  deriving DecidableEq, Repr

abbrev HeldCall := Held × HandlerCall
abbrev HeldReply := Except (StoreError String) Answer

/-- What a handler comes to: the value it returns, beside the head and the chunks it may have
    streamed before, a failure to start it or a trap, or a task that has died. -/
inductive HandlerEnd where
  | returned (resp : WitResponse) (head : Option StreamHead) (chunks : List Bytes)
      (logs : List LogRecord)
  | failed (msg : String) (logs : List LogRecord)
  | joinError (msg : String)

abbrev Handler := Client HeldCall HeldReply HandlerEnd

/-- The case mappings of text. -/
class Casing where
  toUppercase : String → String
  toLowercase : String → String

/-- What turns a route into a handler. -/
structure Engines (Component : Type) where
  transpile : String → Except String String
  componentFor : Route → Except String Component
  component : Component → WitRequest → Handler
  engine : String → WitRequest → Handler

/-! Buckets under a root -/

/-- The prefix of the bucket that a route's handler holds under a root. -/
def bucketUnder (root : String) (route : Route) : Held → String
  | .route => routeBucketUnder root route.groupId route.id
  | .group => groupBucketUnder root route.groupId

/-- Calls on the buckets under a root. A listing may tell the names in any order. -/
def heldBuckets (reporting : Reporting) (root : String) (route : Route) :
    Server Backing HeldCall HeldReply := fun s call reply t =>
  let done := call.2.bucketCall.perform reporting (bucketUnder root route call.1) s
  SameReply done.1 reply ∧ t = done.2

/-! Snapshots -/

/-- The entries under one prefix as entries under another. -/
def movedPairs (src dst : String) (s : Backing) : List (String × MemValue Bytes) :=
  (s.entries.keys.filter (startsWith src)).filterMap fun k =>
    (s.lookup k).map fun v => (dst ++ (stripKeyPrefix src k).getD k, v)

def copyWithPrefix (src dst : String) (s : Backing) : Nat × Backing :=
  let pairs := movedPairs src dst s
  (pairs.length, pairs.foldl (fun s e => s.replace e.1 e.2 none) s)

/-- The two copies, and how many keys they hold. -/
def snapshot (root : String) (route : Route) (s : Backing) : Nat × Backing :=
  let kv := copyWithPrefix (bucketUnder "" route .route) (bucketUnder root route .route) s
  let gkv := copyWithPrefix (bucketUnder "" route .group) (bucketUnder root route .group) kv.2
  (kv.1 + gkv.1, gkv.2)

/-! Runs -/

section Runs
variable [Messages] [Casing]

def StoreError.text : StoreError String → String
  | .wrongType key actual expected => "WRONGTYPE: key " ++ Messages.debug key ++ " holds " ++
      actual ++ ", op requires " ++ expected
  | .notInteger key field =>
    "VALUE: key " ++ Messages.debug (key ++ field.elim "" ("." ++ ·)) ++
      " value is not a valid signed integer"
  | .incrOverflow key field =>
    "OVERFLOW: incr on key " ++ Messages.debug (key ++ field.elim "" ("." ++ ·)) ++
      " would overflow s64"
  | .backend msg => "BACKEND: " ++ msg

def overrideDecodeFail (ns key payload : String) (snapshotKeys : Nat) : RunFail :=
  ⟨"decode " ++ ns ++ " override " ++ Messages.debug key ++ ": " ++ Messages.decodeError payload,
    [], snapshotKeys⟩

/-- The overrides of one bucket, one after another until one fails. -/
def applyOverrides (ns p : String) (snapshotKeys : Nat) :
    List (String × WireBytes) → Backing → Except RunFail Unit × Backing
  | [], s => (.ok (), s)
  | (k, v) :: rest, s =>
    match v.intoBytes with
    | .error payload => (.error (overrideDecodeFail ns k payload snapshotKeys), s)
    | .ok bytes =>
      match inBucket p (Storage.set · bytes) k s with
      | (.error e, s) =>
        (.error ⟨"apply " ++ ns ++ " override " ++ Messages.debug k ++ ": " ++ e.text, [],
          snapshotKeys⟩, s)
      | (.ok (), s) => applyOverrides ns p snapshotKeys rest s

def seed (root : String) (route : Route) (req : DryRunRequest) (snapshotKeys : Nat) (s : Backing) :
    Except RunFail Unit × Backing :=
  match applyOverrides "kv" (bucketUnder root route .route) snapshotKeys
      req.kvOverrides.pairs s with
  | (.error fail, s) => (.error fail, s)
  | (.ok (), s) =>
    applyOverrides "gkv" (bucketUnder root route .group) snapshotKeys req.gkvOverrides.pairs s

def witRequest (route : Route) (req : DryRunRequest) : WitRequest where
  method := Casing.toUppercase req.method
  path := req.path
  matchedPattern := route.path
  pathParams := req.pathParams.getD []
  query := req.query
  headers := req.headers.map (fun h => (Casing.toLowercase h.1, h.2))
  body := req.body

/-- A handler about to run, and how its end is read: only the engine streams. -/
structure Loaded where
  handler : Handler
  streams : Bool

def loadHandler {Component : Type} (engines : Engines Component) (route : Route)
    (req : DryRunRequest) (snapshotKeys : Nat) : Except RunFail Loaded :=
  if route.language = "javascript" ∨ route.language = "typescript" then
    match route.source with
    | none =>
      .error ⟨"source-language route " ++ route.id ++ " has no source stored", [], snapshotKeys⟩
    | some original =>
      match engines.transpile original with
      | .error e => .error ⟨"transpile route " ++ route.id ++ ": " ++ e, [], snapshotKeys⟩
      | .ok source => .ok ⟨engines.engine source (witRequest route req), true⟩
  else
    match engines.componentFor route with
    | .error e => .error ⟨"compile component: " ++ e, [], snapshotKeys⟩
    | .ok component => .ok ⟨engines.component component (witRequest route req), false⟩

def outcome (streams : Bool) (snapshotKeys : Nat) : HandlerEnd → Except RunFail RunOk
  | .returned resp head chunks logs =>
    match head.filter (fun _ => streams) with
    | some head => .ok ⟨head.status, head.headers, chunks.flatten, logs, snapshotKeys⟩
    | none => .ok ⟨resp.status, resp.headers, resp.body, logs, snapshotKeys⟩
  | .failed msg logs => .error ⟨msg, logs, snapshotKeys⟩
  | .joinError msg => .error ⟨"dry-run task join error: " ++ msg, [], snapshotKeys⟩

variable {Component : Type} (reporting : Reporting) (engines : Engines Component) (root : String)
  (route : Route) (req : DryRunRequest)

/-- The overrides, and then the handler, on the buckets under a root. -/
inductive RunsUnder (snapshotKeys : Nat) (s : Backing) :
    List (HeldCall × HeldReply) → Except RunFail RunOk → Backing → Prop where
  | refused {fail : RunFail} {t : Backing} (seeded : seed root route req snapshotKeys s =
      (.error fail, t)) : RunsUnder snapshotKeys s [] (.error fail) t
  | unloaded {fail : RunFail} {t : Backing} (seeded : seed root route req snapshotKeys s =
      (.ok (), t)) (load : loadHandler engines route req snapshotKeys = .error fail) :
      RunsUnder snapshotKeys s [] (.error fail) t
  | ran {loaded : Loaded} {t u : Backing} {trace : List (HeldCall × HeldReply)} {out : HandlerEnd}
      (seeded : seed root route req snapshotKeys s = (.ok (), t))
      (load : loadHandler engines route req snapshotKeys = .ok loaded)
      (exchange : Exchange (heldBuckets reporting root route) loaded.handler t trace out u) :
      RunsUnder snapshotKeys s trace (outcome loaded.streams snapshotKeys out) u

def respondDry : Except RunFail RunOk → DryRunResponse
  | .ok out => ⟨out.status, out.headers, out.body, out.logs.map intoDryLog, none, out.snapshotKeys⟩
  | .error fail =>
    ⟨500, [], utf8Bytes fail.message, fail.logs.map intoDryLog, some fail.message,
      fail.snapshotKeys⟩

def dryRoot (runId : String) : String := "dryrun:" ++ runId ++ ":"

def cleanupDryRun (root : String) (s : Backing) : Backing :=
  (deleteWithPrefix reporting adminBucket root s).2

/-- A dry run, with what its handler asked and was told. -/
def DryRun (runId : String) (s : Backing) (trace : List (HeldCall × HeldReply))
    (resp : DryRunResponse) (u : Backing) : Prop :=
  let taken := snapshot (dryRoot runId) route s
  ∃ out t, RunsUnder reporting engines (dryRoot runId) route req taken.1 taken.2 trace out t ∧
    resp = respondDry out ∧ u = cleanupDryRun reporting (dryRoot runId) t

end Runs

/-! States that are reached -/

/-- The states of an in-memory store, after dry runs of some ids have begun. A dry run that has
    begun may have ended, or be in the middle of a step of its handler. -/
inductive StoreReached (reporting : Reporting) : List String → Backing → Prop where
  | empty : StoreReached reporting [] (Storage.empty .inMemory)
  | host {used : List String} {s : Backing} (before : StoreReached reporting used s) {k : String}
      (own : HostKey k) (call : KeyCall) : StoreReached reporting used
        ((BucketCall.on k call).perform reporting adminBucket s).2
  | handler {used : List String} {s : Backing} (before : StoreReached reporting used s) {p : String}
      (bucket : StoredBucket p) (call : BucketCall) :
      StoreReached reporting used (call.perform reporting p s).2
  | cleared {used : List String} {s : Backing} (before : StoreReached reporting used s)
      (keyPrefix : String) :
      StoreReached reporting used (deleteWithPrefix reporting adminBucket keyPrefix s).2
  | begun {used : List String} {s : Backing} (before : StoreReached reporting used s)
      {runId : String} (ulid : isUlid runId) : StoreReached reporting (runId :: used) s
  | copied {used : List String} {s : Backing} (before : StoreReached reporting used s)
      {runId : String} (known : runId ∈ used) (src rest : String) :
      StoreReached reporting used (copyWithPrefix src (dryRoot runId ++ rest) s).2
  | dry {used : List String} {s : Backing} (before : StoreReached reporting used s)
      {runId : String} (known : runId ∈ used) (rest : String) (call : BucketCall) :
      StoreReached reporting used (call.perform reporting (dryRoot runId ++ rest) s).2

/-- A key of the host, of a handler's bucket, or under the root of a dry run. -/
inductive Accounted (used : List String) : String → Prop where
  | host {k : String} (own : HostKey k) : Accounted used k
  | handler {p : String} (bucket : StoredBucket p) (key : String) : Accounted used (p ++ key)
  | dry {runId : String} (known : runId ∈ used) (rest : String) :
      Accounted used (dryRoot runId ++ rest)

/-! Copies -/

section Copies
variable (s : Backing)

theorem backend_writes (pairs : List (String × MemValue Bytes)) :
    (pairs.foldl (fun s e => s.replace e.1 e.2 none) s).backend = s.backend := by
  induction pairs generalizing s with
  | nil => rfl
  | cons e rest ih => exact ih _

theorem lookup_writes (f : String → Option (MemValue Bytes))
    (pairs : List (String × MemValue Bytes)) (agree : ∀ e ∈ pairs, f e.1 = some e.2) (k : String) :
    (pairs.foldl (fun s e => s.replace e.1 e.2 none) s).lookup k =
      if k ∈ pairs.map Prod.fst then f k else s.lookup k := by
  induction pairs generalizing s with
  | nil => simp
  | cons e rest ih =>
    have later : ∀ e ∈ rest, f e.1 = some e.2 :=
      fun e inside => agree e (List.mem_cons_of_mem _ inside)
    rw [List.foldl_cons, ih _ later, Storage.lookup_replace]
    simp only [List.map_cons, List.mem_cons]
    by_cases written : k ∈ rest.map Prod.fst
    · simp only [written, or_true, if_true]
    · by_cases here : k = e.1
      · rw [if_neg written, if_pos here, if_pos (Or.inl here), here]
        exact (agree e List.mem_cons_self).symm
      · simp only [written, here, or_self, if_false]

variable (src dst : String)

theorem mem_movedPairs (k : String) (v : MemValue Bytes) : (k, v) ∈ movedPairs src dst s ↔
    ∃ key, k = dst ++ key ∧ s.lookup (src ++ key) = some v := by
  simp only [movedPairs, List.mem_filterMap, List.mem_filter, mem_keys_iff,
    Option.map_eq_some_iff, Prod.mk.injEq]
  constructor
  · rintro ⟨_, ⟨_, starts⟩, v', found, rfl, rfl⟩
    obtain ⟨key, rfl⟩ := (startsWith_iff _ _).mp starts
    rw [stripKeyPrefix_append]
    exact ⟨key, rfl, found⟩
  · rintro ⟨key, rfl, found⟩
    refine ⟨src ++ key, ⟨⟨v, found⟩, (startsWith_iff _ _).mpr ⟨key, rfl⟩⟩, v, found, ?_, rfl⟩
    rw [stripKeyPrefix_append]
    rfl

theorem backend_copy : (copyWithPrefix src dst s).2.backend = s.backend := backend_writes s _

theorem lookup_copy (k : String) : (copyWithPrefix src dst s).2.lookup k =
    if k ∈ (movedPairs src dst s).map Prod.fst then
      s.lookup (src ++ (stripKeyPrefix dst k).getD k)
    else s.lookup k := by
  apply lookup_writes
  rintro ⟨k, v⟩ inside
  obtain ⟨key, rfl, found⟩ := (mem_movedPairs s src dst _ _).mp inside
  rw [stripKeyPrefix_append]
  exact found

theorem lookup_copied {key : String} (free : s.lookup (dst ++ key) = none) :
    (copyWithPrefix src dst s).2.lookup (dst ++ key) = s.lookup (src ++ key) := by
  rw [lookup_copy, stripKeyPrefix_append]
  split
  · rfl
  · rename_i absent
    rw [free]
    cases held : s.lookup (src ++ key) with
    | none => rfl
    | some v =>
      have moved := (mem_movedPairs s src dst _ v).mpr ⟨key, rfl, held⟩
      exact absurd (List.mem_map_of_mem moved) absent

theorem lookup_beside_copy {k : String} (outside : ∀ key, k ≠ dst ++ key) :
    (copyWithPrefix src dst s).2.lookup k = s.lookup k := by
  rw [lookup_copy, if_neg]
  intro moved
  obtain ⟨⟨_, v⟩, inside, rfl⟩ := List.mem_map.mp moved
  obtain ⟨key, same, _⟩ := (mem_movedPairs s src dst _ _).mp inside
  exact outside key same

end Copies

/-! The same buckets under two roots -/

theorem sameReply_symm {E : Type} {a b : Except E Answer} (same : SameReply a b) :
    SameReply b a := by
  cases same with
  | refl => exact .refl _
  | names perm => exact .names perm.symm

theorem sameReply_trans {E : Type} {a b c : Except E Answer} (first : SameReply a b)
    (second : SameReply b c) : SameReply a c := by
  cases first with
  | refl => exact second
  | names perm =>
    cases second with
    | refl => exact .names perm
    | names next => exact .names (perm.trans next)

theorem bucketUnder_root (root : String) (route : Route) (held : Held) :
    bucketUnder root route held = root ++ bucketUnder "" route held := by
  cases held <;>
    simp only [bucketUnder, routeBucketUnder, groupBucketUnder, String.append_assoc,
      String.empty_append]

section Held
variable {route : Route}

theorem held_apart (root : String) {held other : Held} (ne : held ≠ other) :
    PrefixesApart (bucketUnder root route held) (bucketUnder root route other) := by
  intro a b joined
  rw [bucketUnder_root, bucketUnder_root root route other, String.append_assoc,
    String.append_assoc] at joined
  have scopes := append_left_cancel joined
  have routes : bucketUnder "" route .route = routeBucket route.groupId route.id := rfl
  have groups : bucketUnder "" route .group = groupBucket route.groupId := rfl
  cases held with
  | route =>
    cases other with
    | route => exact ne rfl
    | group =>
      rw [routes, groups, routeBucket_append, groupBucket_append] at scopes
      exact kv_ne_gkv _ _ scopes
  | group =>
    cases other with
    | route =>
      rw [routes, groups, routeBucket_append, groupBucket_append] at scopes
      exact kv_ne_gkv _ _ scopes.symm
    | group => exact ne rfl

/-- The two buckets of a route hold the same under one root in one store as under another in
    another. -/
def SameHeld (route : Route) (root : String) (s : Backing) (root' : String) (t : Backing) : Prop :=
  ∀ held, SameBucket (bucketUnder root route held) s (bucketUnder root' route held) t

variable {root root' : String} {s t : Backing}

theorem sameHeld_symm (same : SameHeld route root s root' t) : SameHeld route root' t root s :=
  fun held => ⟨(same held).memory', (same held).memory, fun key => ((same held).cells key).symm⟩

variable (group : isUlid route.groupId) (ulid : isUlid route.id)
include group ulid

theorem held_stored (held : Held) : StoredBucket (bucketUnder "" route held) := by
  cases held with
  | route => exact .route _ _ group ulid
  | group => exact .group _ group

theorem held_bucket (under : IsRoot root) (held : Held) :
    IsBucket (bucketUnder root route held) := by
  cases held with
  | route => exact .route root _ _ under group ulid
  | group => exact .group root _ under group

variable (under : IsRoot root) (under' : IsRoot root') (same : SameHeld route root s root' t)
include under under' same

/-- A call on one of the buckets is answered alike, and both buckets stay the same. -/
theorem sameHeld_perform (reporting : Reporting) (held : Held) (call : BucketCall) :
    SameReply (call.perform reporting (bucketUnder root route held) s).1
        (call.perform reporting (bucketUnder root' route held) t).1 ∧
      SameHeld route root (call.perform reporting (bucketUnder root route held) s).2
        root' (call.perform reporting (bucketUnder root' route held) t).2 := by
  have called := @perform_same reporting _ _ _ _ (held_bucket group ulid under held)
    (held_bucket group ulid under' held) (same held) call
  refine ⟨called.1, ?_⟩
  intro other
  by_cases ne : other = held
  · rw [ne]
    exact called.2
  · refine ⟨called.2.memory, called.2.memory', ?_⟩
    intro key
    rw [lookup_perform _ _ _ (held_apart root ne key),
      lookup_perform _ _ _ (held_apart root' ne key)]
    exact (same other).cells key

omit same in
theorem heldBuckets_simulates (reporting : Reporting) :
    Simulates (heldBuckets reporting root route) (heldBuckets reporting root' route)
      (fun s t => SameHeld route root s root' t) := by
  intro s t call reply u related served
  obtain ⟨answered, rfl⟩ := served
  have called := sameHeld_perform group ulid under under' related reporting call.1 call.2.bucketCall
  exact ⟨_, ⟨sameReply_trans (sameReply_symm called.1) answered, rfl⟩, called.2⟩

theorem applyOverrides_same [Messages] (ns : String) (held : Held) (snapshotKeys : Nat)
    (overrides : List (String × WireBytes)) :
    (applyOverrides ns (bucketUnder root route held) snapshotKeys overrides s).1 =
        (applyOverrides ns (bucketUnder root' route held) snapshotKeys overrides t).1 ∧
      SameHeld route root
        (applyOverrides ns (bucketUnder root route held) snapshotKeys overrides s).2
        root' (applyOverrides ns (bucketUnder root' route held) snapshotKeys overrides t).2 := by
  induction overrides generalizing s t with
  | nil => exact ⟨rfl, same⟩
  | cons e rest ih =>
    obtain ⟨k, v⟩ := e
    simp only [applyOverrides]
    cases v.intoBytes with
    | error payload => exact ⟨rfl, same⟩
    | ok bytes =>
      -- a `set` cannot fail, so the loop goes on
      exact ih (sameHeld_perform group ulid under under' same ⟨id, mem_as_held⟩ held
        (.on k (.set bytes))).2

variable [Messages] (req : DryRunRequest) (snapshotKeys : Nat)

theorem seed_same :
    (seed root route req snapshotKeys s).1 = (seed root' route req snapshotKeys t).1 ∧
      SameHeld route root (seed root route req snapshotKeys s).2
        root' (seed root' route req snapshotKeys t).2 := by
  have kv := applyOverrides_same group ulid under under' same "kv" .route snapshotKeys
    req.kvOverrides.pairs
  unfold seed
  generalize applyOverrides "kv" (bucketUnder root route .route) snapshotKeys
    req.kvOverrides.pairs s = first at kv ⊢
  generalize applyOverrides "kv" (bucketUnder root' route .route) snapshotKeys
    req.kvOverrides.pairs t = second at kv ⊢
  obtain ⟨result, s'⟩ := first
  obtain ⟨result', t'⟩ := second
  obtain ⟨rfl, same'⟩ := kv
  cases result with
  | error fail => exact ⟨rfl, same'⟩
  | ok _ =>
    exact applyOverrides_same group ulid under under' same' "gkv" .group snapshotKeys
      req.gkvOverrides.pairs

/-- What a run may come to under one root, it may come to under the other. -/
theorem runsUnder_same [Casing] {Component : Type} {reporting : Reporting}
    {engines : Engines Component} {trace : List (HeldCall × HeldReply)}
    {out : Except RunFail RunOk} {u : Backing}
    (ran : RunsUnder reporting engines root route req snapshotKeys s trace out u) :
    ∃ u', RunsUnder reporting engines root' route req snapshotKeys t trace out u' := by
  have seeds := seed_same group ulid under under' same req snapshotKeys
  generalize reached : seed root' route req snapshotKeys t = second at seeds
  obtain ⟨result, t'⟩ := second
  cases ran with
  | refused seeded =>
    rw [seeded] at seeds
    obtain ⟨rfl, _⟩ := seeds
    exact ⟨t', .refused reached⟩
  | unloaded seeded load =>
    rw [seeded] at seeds
    obtain ⟨rfl, _⟩ := seeds
    exact ⟨t', .unloaded reached load⟩
  | ran seeded load exchange =>
    rw [seeded] at seeds
    obtain ⟨rfl, same'⟩ := seeds
    obtain ⟨u', exchange', _⟩ :=
      exchange_simulated (heldBuckets_simulates group ulid under under' reporting) exchange same'
    exact ⟨u', .ran reached load exchange'⟩

end Held

/-! What a dry run may change -/

/-- At most keys that begin with a text have changed. -/
structure Confined (root : String) (s t : Backing) : Prop where
  backend : t.backend = s.backend
  outside : ∀ k, (∀ rest, k ≠ root ++ rest) → t.lookup k = s.lookup k

section Confined
variable {root : String} {s t u : Backing}

theorem confined_trans (first : Confined root s t) (second : Confined root t u) :
    Confined root s u :=
  ⟨second.backend.trans first.backend,
    fun k out => (second.outside k out).trans (first.outside k out)⟩

theorem outside_under {k : String} (out : ∀ rest, k ≠ root ++ rest) (route : Route) (held : Held)
    (key : String) : k ≠ bucketUnder root route held ++ key := by
  rw [bucketUnder_root, String.append_assoc]
  exact out _

theorem confined_perform (reporting : Reporting) (route : Route) (held : Held)
    (call : BucketCall) (s : Backing) :
    Confined root s (call.perform reporting (bucketUnder root route held) s).2 :=
  ⟨backend_perform _ s call, fun _ out => lookup_perform _ s call (outside_under out route held)⟩

theorem confined_copy (route : Route) (src : String) (held : Held) (s : Backing) :
    Confined root s (copyWithPrefix src (bucketUnder root route held) s).2 :=
  ⟨backend_copy s src _, fun _ out => lookup_beside_copy s src _ (outside_under out route held)⟩

theorem confined_snapshot (route : Route) (s : Backing) :
    Confined root s (snapshot root route s).2 :=
  confined_trans (confined_copy route _ .route s) (confined_copy route _ .group _)

section Overrides
variable [Messages]

theorem confined_applyOverrides (root : String) (route : Route) (snapshotKeys : Nat)
    (ns : String) (held : Held) (overrides : List (String × WireBytes)) (s : Backing) :
    Confined root s
      (applyOverrides ns (bucketUnder root route held) snapshotKeys overrides s).2 := by
  induction overrides generalizing s with
  | nil => exact ⟨rfl, fun _ _ => rfl⟩
  | cons e rest ih =>
    obtain ⟨k, v⟩ := e
    simp only [applyOverrides]
    cases v.intoBytes with
    | error payload => exact ⟨rfl, fun _ _ => rfl⟩
    | ok bytes =>
      exact confined_trans (confined_perform ⟨id, mem_as_held⟩ route held (.on k (.set bytes)) s)
        (ih _)

theorem confined_seed (root : String) (route : Route) (snapshotKeys : Nat) (req : DryRunRequest)
    (s : Backing) :
    Confined root s (seed root route req snapshotKeys s).2 := by
  have kv := confined_applyOverrides root route snapshotKeys "kv" .route
    req.kvOverrides.pairs s
  unfold seed
  generalize applyOverrides "kv" (bucketUnder root route .route) snapshotKeys
    req.kvOverrides.pairs s = first at kv ⊢
  obtain ⟨result, s'⟩ := first
  cases result with
  | error fail => exact kv
  | ok _ =>
    exact confined_trans kv (confined_applyOverrides root route snapshotKeys "gkv" .group _ _)

theorem confined_run [Casing] {Component : Type} {route : Route} {snapshotKeys : Nat}
    {reporting : Reporting} {engines : Engines Component} {req : DryRunRequest}
    {trace : List (HeldCall × HeldReply)} {out : Except RunFail RunOk}
    (ran : RunsUnder reporting engines root route req snapshotKeys s trace out u) :
    Confined root s u := by
  have seeds := confined_seed root route snapshotKeys req s
  cases ran with
  | refused seeded =>
    rw [seeded] at seeds
    exact seeds
  | unloaded seeded load =>
    rw [seeded] at seeds
    exact seeds
  | ran seeded load exchange =>
    rw [seeded] at seeds
    have kept : ∀ t call reply u, Confined root s t →
        heldBuckets reporting root route t call reply u → Confined root s u := by
      rintro t call reply u before ⟨_, rfl⟩
      exact confined_trans before (confined_perform reporting route call.1 call.2.bucketCall t)
    exact exchange_invariant kept exchange seeds

end Overrides
end Confined

/-! The root of a new run -/

theorem accounted_more {used : List String} {k : String} (runId : String)
    (known : Accounted used k) : Accounted (runId :: used) k := by
  cases known with
  | host own => exact .host own
  | handler bucket key => exact .handler bucket key
  | dry inside rest => exact .dry (List.mem_cons_of_mem _ inside) rest

/-- What stands in a store that has been reached. -/
structure Stands (used : List String) (s : Backing) : Prop where
  memory : s.backend = .inMemory
  ulids : ∀ runId ∈ used, isUlid runId
  keys : ∀ k v, s.lookup k = some v → Accounted used k

section Stands
variable {reporting : Reporting} {used : List String} {s t : Backing}

/-- A step that writes to accounted keys alone. -/
theorem stands_step (stands : Stands used s) (memory : t.backend = s.backend)
    (changes : ∀ k, Accounted used k ∨ t.lookup k = s.lookup k) : Stands used t := by
  refine ⟨memory.trans stands.memory, stands.ulids, ?_⟩
  intro k v held
  rcases changes k with known | same
  · exact known
  · exact stands.keys k v (same ▸ held)

theorem stands_perform (stands : Stands used s) {p : String} (call : BucketCall)
    (bucket : ∀ key, Accounted used (p ++ key)) :
    Stands used (call.perform reporting p s).2 := by
  apply stands_step stands (backend_perform p s call)
  intro k
  by_cases inside : ∃ key, k = p ++ key
  · obtain ⟨key, rfl⟩ := inside
    exact .inl (bucket key)
  · exact .inr (lookup_perform p s call (fun key same => inside ⟨key, same⟩))

theorem stands_copy (stands : Stands used s) (src : String) {dst : String}
    (bucket : ∀ key, Accounted used (dst ++ key)) :
    Stands used (copyWithPrefix src dst s).2 := by
  apply stands_step stands (backend_copy s src dst)
  intro k
  by_cases inside : ∃ key, k = dst ++ key
  · obtain ⟨key, rfl⟩ := inside
    exact .inl (bucket key)
  · exact .inr (lookup_beside_copy s src dst (fun key same => inside ⟨key, same⟩))

theorem dry_key {runId : String} (known : runId ∈ used) (rest key : String) :
    Accounted used (dryRoot runId ++ rest ++ key) := by
  rw [String.append_assoc]
  exact .dry known _

theorem stands_reached (reached : StoreReached reporting used s) : Stands used s := by
  induction reached with
  | empty =>
    refine ⟨rfl, fun _ inside => absurd inside List.not_mem_nil, ?_⟩
    intro k v held
    cases held
  | host before own call ih =>
    apply stands_step ih (backend_perform _ _ _)
    intro k
    rw [lookup_on, adminBucket, String.empty_append]
    split
    · rename_i here
      exact .inl (here ▸ .host own)
    · exact .inr rfl
  | handler before bucket call ih => exact stands_perform ih call (.handler bucket)
  | cleared before keyPrefix ih =>
    refine ⟨(backend_deleteAll _ _ _).trans ih.memory, ih.ulids, ?_⟩
    intro k v held
    simp only [deleteWithPrefix, lookup_deleteAll] at held
    split at held
    · cases held
    · exact ih.keys k v held
  | begun before ulid ih =>
    refine ⟨ih.memory, ?_, fun k v held => accounted_more _ (ih.keys k v held)⟩
    intro runId inside
    rcases List.mem_cons.mp inside with rfl | inside
    · exact ulid
    · exact ih.ulids runId inside
  | copied before known src rest ih => exact stands_copy ih src (dry_key known rest)
  | dry before known rest call ih => exact stands_perform ih call (dry_key known rest)

/-- Nothing stands under the root of a run that has not begun. -/
theorem free_root (stands : Stands used s) {runId : String} (ulid : isUlid runId)
    (unused : runId ∉ used) (rest : String) : s.lookup (dryRoot runId ++ rest) = none := by
  by_contra held
  obtain ⟨v, held⟩ := Option.ne_none_iff_exists'.mp held
  have known := stands.keys _ v held
  have whole : dryRoot runId ++ rest = "dryrun:" ++ (runId ++ (":" ++ rest)) := by
    simp only [dryRoot, String.append_assoc]
  generalize same : dryRoot runId ++ rest = k at known
  rw [whole] at same
  cases known with
  | host own =>
    obtain ⟨x, listed, more, rfl⟩ := begins_host own
    have differ := List.all_eq_true.mp hostPrefixes_differ x listed
    simp only [Bool.and_eq_true] at differ
    exact apart_of_differ differ.2 _ more same
  | handler bucket key => exact scope_ne_dryRun bucket key _ same.symm
  | dry known more =>
    simp only [dryRoot, String.append_assoc] at same
    obtain ⟨rfl, _⟩ := ulid_split ulid (stands.ulids _ known) (append_left_cancel same)
    exact unused known

end Stands

section Snapshot
variable {route : Route} (group : isUlid route.groupId) (ulid : isUlid route.id) {s : Backing}
  {runId : String}
include group ulid

/-- A copy leaves the buckets of the route as they are. -/
theorem lookup_stored_copy (src : String) (copied held : Held) (key : String) (s : Backing) :
    (copyWithPrefix src (bucketUnder (dryRoot runId) route copied) s).2.lookup
      (bucketUnder "" route held ++ key) = s.lookup (bucketUnder "" route held ++ key) := by
  apply lookup_beside_copy
  intro other joined
  rw [bucketUnder_root (dryRoot runId), dryRoot] at joined
  simp only [String.append_assoc] at joined
  exact scope_ne_dryRun (held_stored group ulid held) key _ joined

variable (memory : s.backend = .inMemory)
include memory

theorem snapshot_same (free : ∀ rest, s.lookup (dryRoot runId ++ rest) = none) :
    SameHeld route "" s (dryRoot runId) (snapshot (dryRoot runId) route s).2 := by
  have unused : ∀ held key, s.lookup (bucketUnder (dryRoot runId) route held ++ key) = none := by
    intro held key
    rw [bucketUnder_root, String.append_assoc]
    exact free _
  intro held
  refine ⟨memory, (confined_snapshot route s).backend.trans memory, ?_⟩
  intro key
  symm
  cases held with
  | route =>
    have beside := lookup_beside_copy (copyWithPrefix (bucketUnder "" route .route)
      (bucketUnder (dryRoot runId) route .route) s).2 (bucketUnder "" route .group)
      (bucketUnder (dryRoot runId) route .group)
      (held_apart (dryRoot runId) (by decide : Held.route ≠ .group) key)
    exact beside.trans (lookup_copied s _ _ (unused .route key))
  | group =>
    have beside := lookup_beside_copy s (bucketUnder "" route .route)
      (bucketUnder (dryRoot runId) route .route)
      (held_apart (dryRoot runId) (by decide : Held.group ≠ .route) key)
    exact (lookup_copied _ _ _ (beside.trans (unused .group key))).trans
      (lookup_stored_copy group ulid _ .route .group key s)

omit group ulid in
theorem length_copied (reporting : Reporting) (src dst : String) :
    (copyWithPrefix src dst s).1 = (listKeys reporting src none s).length := by
  have every : ∀ k ∈ s.entries.keys.filter (startsWith src), ((s.lookup k).map fun v =>
      (dst ++ (stripKeyPrefix src k).getD k, v)).isSome = true := by
    intro k listed
    obtain ⟨v, held⟩ := (mem_keys_iff s k).mp (List.mem_filter.mp listed).1
    rw [held]
    rfl
  have whole : src ++ (none : Option String).getD "" = src := String.append_empty
  rw [listKeys, List.length_map, whole, scanWithPrefix, memory]
  exact List.filterMap_length_eq_length.mpr every

/-- A snapshot counts the keys of both buckets. -/
theorem snapshot_counts (reporting : Reporting) : (snapshot (dryRoot runId) route s).1 =
    (listKeys reporting (bucketUnder "" route .route) none s).length +
      (listKeys reporting (bucketUnder "" route .group) none s).length := by
  have memory' := (backend_copy s (bucketUnder "" route .route)
    (bucketUnder (dryRoot runId) route .route)).trans memory
  have bucket := held_bucket group ulid .stored .group
  have kept : SameBucket (bucketUnder "" route .group)
      (copyWithPrefix (bucketUnder "" route .route) (bucketUnder (dryRoot runId) route .route) s).2
      (bucketUnder "" route .group) s :=
    ⟨memory', memory, fun key => lookup_stored_copy group ulid _ .route .group key s⟩
  have lists := (@listKeys_perm reporting _ _ _ _ bucket bucket kept none).length_eq
  simp only [snapshot, length_copied memory reporting, length_copied memory' reporting, lists]

end Snapshot

section Faithful
variable [Messages] [Casing] {Component : Type} {reporting : Reporting}
  {engines : Engines Component} {route : Route} {req : DryRunRequest} {runId : String}

omit [Messages] [Casing] in
theorem lookup_cleanup {s : Backing} (memory : s.backend = .inMemory) (root k : String) :
    (cleanupDryRun reporting root s).lookup k =
      if startsWith root k = true then none else s.lookup k := by
  have lists : ListsExactly reporting adminBucket root s :=
    listsExactly_of_readsLiterally (literal_bucket .admin) (.inl memory)
  have deletes := (deletesExactly_of_listsExactly (literal_bucket .admin) lists).1 k
  rw [adminBucket, String.empty_append] at deletes
  exact deletes

/-- The root of a run is empty again, and the rest has not been touched. -/
theorem dry_run_no_trace {s u : Backing} (memory : s.backend = .inMemory)
    (free : ∀ rest, s.lookup (dryRoot runId ++ rest) = none)
    {trace : List (HeldCall × HeldReply)} {resp : DryRunResponse}
    (ran : DryRun reporting engines route req runId s trace resp u) :
    u.backend = s.backend ∧ ∀ k, u.lookup k = s.lookup k := by
  obtain ⟨out, t, run, _, rfl⟩ := ran
  have confined := confined_trans (confined_snapshot route s) (confined_run run)
  refine ⟨(backend_deleteAll _ _ _).trans confined.backend, ?_⟩
  intro k
  rw [lookup_cleanup (confined.backend.trans memory)]
  split
  · rename_i starts
    obtain ⟨rest, rfl⟩ := (startsWith_iff _ _).mp starts
    exact (free rest).symm
  · rename_i elsewhere
    apply confined.outside
    rintro rest rfl
    exact elsewhere ((startsWith_iff _ _).mpr ⟨rest, rfl⟩)

theorem runs_end (root : String) (snapshotKeys : Nat) (s : Backing) :
    ∃ trace out u, RunsUnder reporting engines root route req snapshotKeys s trace out u := by
  cases seeded : seed root route req snapshotKeys s with
  | mk result t =>
    cases result with
    | error fail => exact ⟨[], .error fail, t, .refused seeded⟩
    | ok _ =>
      cases load : loadHandler engines route req snapshotKeys with
      | error fail => exact ⟨[], .error fail, t, .unloaded seeded load⟩
      | ok loaded =>
        have replies : ∀ s call, ∃ reply t, heldBuckets reporting root route s call reply t :=
          fun s call => ⟨_, _, .refl _, rfl⟩
        obtain ⟨trace, out, u, exchange⟩ := exchange_exists replies loaded.handler t
        exact ⟨trace, outcome loaded.streams snapshotKeys out, u, .ran seeded load exchange⟩

/-- A dry run ends, comes to what the handler could come to on the buckets themselves with the
    overrides in them, asked and told the same on the way, and leaves the store as it was. -/
theorem dry_run_faithful {used : List String} {s : Backing}
    (reached : StoreReached reporting used s) (group : isUlid route.groupId)
    (ulid : isUlid route.id) (run : isUlid runId) (unused : runId ∉ used) :
    (∃ trace resp u, DryRun reporting engines route req runId s trace resp u) ∧
    (∀ trace resp, (∃ u, DryRun reporting engines route req runId s trace resp u) ↔
      ∃ out u, RunsUnder reporting engines "" route req (snapshot (dryRoot runId) route s).1 s
        trace out u ∧ resp = respondDry out) ∧
    (∀ trace resp u, DryRun reporting engines route req runId s trace resp u →
      u.backend = s.backend ∧ ∀ k, u.lookup k = s.lookup k) := by
  have stands := stands_reached reached
  have free := free_root stands run unused
  have same := snapshot_same group ulid stands.memory free
  refine ⟨?_, ?_, ?_⟩
  · obtain ⟨trace, out, t, ran⟩ := runs_end (dryRoot runId) _ (snapshot (dryRoot runId) route s).2
    exact ⟨trace, respondDry out, _, out, t, ran, rfl, rfl⟩
  · intro trace resp
    constructor
    · rintro ⟨u, out, t, ran, told, _⟩
      obtain ⟨u', ran'⟩ := runsUnder_same group ulid (.dryRun runId run) .stored
        (sameHeld_symm same) req _ ran
      exact ⟨out, u', ran', told⟩
    · rintro ⟨out, t, ran, told⟩
      obtain ⟨u', ran'⟩ := runsUnder_same group ulid .stored (.dryRun runId run) same req _ ran
      exact ⟨_, out, u', ran', told, rfl⟩
  · intro trace resp u ran
    exact dry_run_no_trace stands.memory free ran

end Faithful

namespace Sample

def counting : Route where
  id := "01J9ZK6C3N0000000000000B01"
  groupId := "01J9ZK6C3N0000000000000A01"
  groupName := "shop"
  number := 1
  methods := ["GET"]
  path := "/n"
  language := "component"
  bindingsVersion := "1"
  compiledWasm := []
  source := none
  createdAt := 0
  ownerId := "ann"
  hitsTotal := 0
  lastHitAt := none

def countedUp : WitResponse := ⟨200, [], utf8Bytes "counted"⟩

/-- A handler that adds to a counter of its group. -/
def counters : Engines Unit where
  transpile := .ok
  componentFor _ := .ok ()
  component _ _ := .ask (.group, .incr "n" 1) fun _ => .done (.returned countedUp none [] [])
  engine _ _ := .done (.failed "" [])

/-- A request that sets the counter to 41. -/
def seeded : DryRunRequest :=
  ⟨"get", "/n", [], [], none, [], ∅, Fields.ofPairs [("n", .text "41")]⟩

end Sample

theorem dry_run_faithful_counting : ∃ u,
    @DryRun ⟨id, id⟩ ⟨id, id⟩ Unit Sample.reported Sample.counters Sample.counting Sample.seeded
      "01J9ZK6C3N0000000000000C01" Sample.kept
      [((.group, .incr "n" 1), .ok (.number 42))]
      ⟨200, [], utf8Bytes "counted", [], none, 1⟩ u := by
  have reached : StoreReached Sample.reported [] Sample.kept := by
    have first := StoreReached.handler (@StoreReached.empty Sample.reported)
      (.group "01J9ZK6C3N0000000000000A01" (by decide +kernel)) (.on "n" (.set (utf8Bytes "1")))
    exact .host first (.record (.group "01J9ZK6C3N0000000000000A01") rfl)
      (.hashSet "name" (utf8Bytes "shop"))
  have faithful := @dry_run_faithful ⟨id, id⟩ ⟨id, id⟩ Unit Sample.reported Sample.counters
    Sample.counting Sample.seeded "01J9ZK6C3N0000000000000C01" [] Sample.kept reached
    (by decide +kernel) (by decide +kernel) (by decide +kernel) List.not_mem_nil
  have keys : (snapshot (dryRoot "01J9ZK6C3N0000000000000C01") Sample.counting Sample.kept).1 = 1 :=
    by decide +kernel
  rw [keys] at faithful
  have told : ((HandlerCall.incr "n" 1).bucketCall.perform Sample.reported
      (bucketUnder "" Sample.counting .group)
      (@seed ⟨id, id⟩ "" Sample.counting Sample.seeded 1 Sample.kept).2).1 =
      .ok (.number 42) := by
    decide +kernel
  have served : heldBuckets Sample.reported "" Sample.counting
      (@seed ⟨id, id⟩ "" Sample.counting Sample.seeded 1 Sample.kept).2 (.group, .incr "n" 1)
      (.ok (.number 42)) _ := ⟨told ▸ .refl _, rfl⟩
  have ran := @RunsUnder.ran ⟨id, id⟩ ⟨id, id⟩ Unit Sample.reported Sample.counters ""
    Sample.counting Sample.seeded 1 Sample.kept _ _ _ _ _ (Prod.ext rfl rfl) rfl
    (.ask served (.done _ _))
  exact (faithful.2.1 _ _).mpr ⟨_, _, ran, rfl⟩

end WireMirage
