import WireMirage.Dispatch.Headers

/-!
The response of a handler, whole or streamed: what is put on the wire, and what the
journal records of it.
-/
namespace WireMirage
open Multimap BoundedMultimap

def handledBodyLimit : Nat := 16 * 1024

def truncateBody (body : Bytes) (limit : Nat) : Bytes × Nat × Bool :=
  if body.length ≤ limit then (body, body.length, false)
  else (body.take limit, body.length, true)

structure WitResponse where
  status : UInt16
  headers : List (String × String)
  body : Bytes
  deriving DecidableEq, Repr

structure StreamHead where
  status : UInt16
  headers : List (String × String)
  deriving DecidableEq, Repr

inductive WireBody where
  | full (bytes : Bytes)
  | stream
  deriving DecidableEq, Repr

structure WireResponse (Map : Type) where
  status : Nat
  headers : Map
  body : WireBody

/-- The status numbers that there are status codes for. -/
def statusFromU16 (status : UInt16) : Option Nat :=
  if 100 ≤ status.toNat ∧ status.toNat ≤ 999 then some status.toNat else none

section Building
variable {Map : Type} [HttpTypes Map]

def summarizeResponse (status : UInt16) (filtered : FilteredHeaders Map) (body : Bytes) :
    ResponseEnvelope :=
  let (bodyBytes, originalSize, truncated) := truncateBody body handledBodyLimit
  { status := status.toNat
    headers := filtered.sent
    body := bodyBytes
    bodyTruncated := truncated
    originalBodySize := originalSize }

def injectResponseTraceId (traceId : Option String) (headers : Map) : Option Map :=
  match traceId with
  | none => some headers
  | some tid =>
    if HttpTypes.acceptsValue Map tid then insert headers "x-trace-id" tid else some headers

def buildAxumResponseOwned (resp : WitResponse) (filtered : FilteredHeaders Map) :
    Option (WireResponse Map) := do
  let headers ← withCapacity 0
  let headers ← append headers "content-length" (toString resp.body.length)
  let headers ← applyWireHeaders headers filtered.wire
  return ⟨(statusFromU16 resp.status).getD 500, headers, .full resp.body⟩

def buildStreamingResponse (head : StreamHead) (filtered : FilteredHeaders Map)
    (traceId : Option String) : Option (WireResponse Map) := do
  let headers ← withCapacity 0
  let headers ← applyWireHeaders headers filtered.wire
  let headers ← injectResponseTraceId traceId headers
  return ⟨(statusFromU16 head.status).getD 500, headers, .stream⟩

end Building

/-- What a handler gives: a whole response, or a head after which it streams so many bytes. -/
inductive Produced where
  | buffered (resp : WitResponse)
  | streamed (head : StreamHead) (bytes : Nat)
  deriving DecidableEq, Repr

def Produced.status : Produced → UInt16
  | .buffered resp => resp.status
  | .streamed head _ => head.status

def Produced.headers : Produced → List (String × String)
  | .buffered resp => resp.headers
  | .streamed head _ => head.headers

variable (Map : Type) [HttpTypes Map]

/-- The envelope that is recorded and the response that is sent; neither, if the header map
    panics on the way. -/
def respond (traceId : Option String) : Produced → Option (ResponseEnvelope × WireResponse Map)
  | .buffered resp => do
    let filtered ← filterHandlerHeaders Map resp.headers
    let envelope := summarizeResponse resp.status filtered resp.body
    let axum ← buildAxumResponseOwned resp filtered
    let headers ← injectResponseTraceId traceId axum.headers
    return (envelope, { axum with headers := headers })
  | .streamed head bytes => do
    let filtered ← filterHandlerHeaders Map head.headers
    let resp ← buildStreamingResponse head filtered traceId
    let envelope : ResponseEnvelope :=
      { status := head.status.toNat
        headers := filtered.sent
        body := []
        bodyTruncated := true
        originalBodySize := bytes }
    return (envelope, resp)

/-- The record shows the status that is sent, and of each name that a handler may set the values
    that are sent, in their order. -/
structure Agrees {Map : Type} [HttpTypes Map] (record : ResponseEnvelope)
    (wire : WireResponse Map) : Prop where
  status : record.status = wire.status
  headers : ∀ name, reservedResponseHeader name = false →
    valuesOf name record.headers = valuesOf name (iter wire.headers)

/-- What the trace context of a request overwrites, if it can be a header at all. -/
def overwritten (traceId : Option String) : Option String :=
  traceId.filter (HttpTypes.acceptsValue Map)

variable {Map}

theorem traced_values {traceId : Option String} {headers headers' : Map}
    (injected : injectResponseTraceId traceId headers = some headers') (name : String) :
    valuesOf name (iter headers') =
      match overwritten Map traceId with
      | none => valuesOf name (iter headers)
      | some tid => if name = "x-trace-id" then [tid] else valuesOf name (iter headers) := by
  cases traceId with
  | none =>
    cases injected
    rfl
  | some tid =>
    unfold injectResponseTraceId at injected
    simp only at injected
    by_cases accepted : HttpTypes.acceptsValue Map tid = true
    · have replaced : overwritten Map (some tid) = some tid := by
        simp [overwritten, Option.filter, accepted]
      rw [if_pos accepted] at injected
      rw [inserted headers "x-trace-id" tid headers' injected, replaced]
    · have untouched : overwritten Map (some tid) = none := by
        simp [overwritten, Option.filter, accepted]
      rw [if_neg accepted] at injected
      cases injected
      rw [untouched]

/-- What is common to both ways of answering. -/
structure Answered (traceId : Option String) (produced : Produced) (record : ResponseEnvelope)
    (wire : WireResponse Map) : Prop where
  recorded : record.status = produced.status.toNat
  sent : wire.status = (statusFromU16 produced.status).getD 500
  listed : record.headers = settled Map produced.headers
  carried : ∀ name, reservedResponseHeader name = false →
    valuesOf name (iter wire.headers) =
      match overwritten Map traceId with
      | none => valuesOf name (settled Map produced.headers)
      | some tid =>
        if name = "x-trace-id" then [tid] else valuesOf name (settled Map produced.headers)

theorem applied_values {pairs : List (String × String)} {f : FilteredHeaders Map}
    {headers headers' : Map} (done : filterHandlerHeaders Map pairs = some f)
    (applied : applyWireHeaders headers f.wire = some headers') (name : String) :
    valuesOf name (iter headers') =
      valuesOf name (iter headers) ++ valuesOf name (settled Map pairs) := by
  have filtered := filterHandlerHeaders_filtered done
  rw [valuesOf_appendAll applied, filtered.wire, filtered.sent]

theorem respond_answered {traceId : Option String} {produced : Produced}
    {record : ResponseEnvelope} {wire : WireResponse Map}
    (done : respond Map traceId produced = some (record, wire)) :
    Answered traceId produced record wire := by
  cases produced with
  | buffered resp =>
    simp only [respond, Option.bind_eq_bind, Option.bind_eq_some_iff, Option.pure_def,
      Option.some.injEq, Prod.mk.injEq] at done
    obtain ⟨f, done, axum, built, traced, injected, rfl, rfl⟩ := done
    simp only [buildAxumResponseOwned, Option.bind_eq_bind, Option.bind_eq_some_iff,
      Option.pure_def, Option.some.injEq] at built
    obtain ⟨bare, made, sized, added, headers, applied, rfl⟩ := built
    refine ⟨rfl, rfl, (filterHandlerHeaders_filtered done).sent, ?_⟩
    intro name free
    have unsized : valuesOf name (iter sized) = [] := by
      rw [appended bare "content-length" _ sized added, empty 0 bare made, valuesOf_single]
      have other : "content-length" ≠ name := by
        rintro rfl
        exact absurd free (by decide)
      simp [other]
    have before : valuesOf name (iter headers) = valuesOf name (settled Map resp.headers) := by
      rw [applied_values done applied, unsized, List.nil_append]
    rw [traced_values injected name, before]
    rfl
  | streamed head bytes =>
    simp only [respond, Option.bind_eq_bind, Option.bind_eq_some_iff, Option.pure_def,
      Option.some.injEq, Prod.mk.injEq] at done
    obtain ⟨f, done, resp, built, rfl, rfl⟩ := done
    simp only [buildStreamingResponse, Option.bind_eq_bind, Option.bind_eq_some_iff,
      Option.pure_def, Option.some.injEq] at built
    obtain ⟨bare, made, headers, applied, traced, injected, rfl⟩ := built
    refine ⟨rfl, rfl, (filterHandlerHeaders_filtered done).sent, ?_⟩
    intro name _
    have before : valuesOf name (iter headers) = valuesOf name (settled Map head.headers) := by
      rw [applied_values done applied, empty 0 bare made, valuesOf_nil, List.nil_append]
    rw [traced_values injected name, before]
    rfl

theorem statusFromU16_kept (status : UInt16) :
    status.toNat = (statusFromU16 status).getD 500 ↔
      100 ≤ status.toNat ∧ status.toNat ≤ 999 := by
  unfold statusFromU16
  split
  · simp [*]
  · rename_i outside
    simp only [Option.getD_none]
    omega

/-- The record agrees with what was sent exactly when the status is one there is a code for, and
    no trace id replaced other values of its header. -/
theorem journal_records_sent {traceId : Option String} {produced : Produced}
    {record : ResponseEnvelope} {wire : WireResponse Map}
    (done : respond Map traceId produced = some (record, wire)) :
    Agrees record wire ↔
      (100 ≤ produced.status.toNat ∧ produced.status.toNat ≤ 999) ∧
        ∀ tid, overwritten Map traceId = some tid →
          valuesOf "x-trace-id" (settled Map produced.headers) = [tid] := by
  have answered := respond_answered done
  rw [← statusFromU16_kept]
  constructor
  · intro agrees
    refine ⟨?_, ?_⟩
    · rw [← answered.recorded, agrees.status, answered.sent]
    · intro tid traced
      have free : reservedResponseHeader "x-trace-id" = false := by decide
      have same := agrees.headers "x-trace-id" free
      rw [answered.listed, answered.carried _ free, traced] at same
      simpa using same
  · rintro ⟨status, traces⟩
    refine ⟨?_, ?_⟩
    · rw [answered.recorded, status, answered.sent]
    · intro name free
      rw [answered.listed, answered.carried name free]
      cases traced : overwritten Map traceId with
      | none => rfl
      | some tid =>
        simp only
        by_cases here : name = "x-trace-id"
        · rw [if_pos here, here]
          exact traces tid traced
        · rw [if_neg here]

def Sample.hello : WitResponse := ⟨200, [("Content-Type", "text/plain"), ("X-Trace-Id", "a1")], []⟩

theorem journal_records_sent_hello :
    ∃ record wire, respond Sample.HeaderMap (some "a1") (.buffered Sample.hello) =
        some (record, wire) ∧
      (Agrees record wire ↔
        (100 ≤ (Produced.buffered Sample.hello).status.toNat ∧
            (Produced.buffered Sample.hello).status.toNat ≤ 999) ∧
          ∀ tid, overwritten Sample.HeaderMap (some "a1") = some tid → valuesOf "x-trace-id"
            (settled Sample.HeaderMap (Produced.buffered Sample.hello).headers) = [tid]) :=
  ⟨_, _, rfl, journal_records_sent rfl⟩

/-- A handler answers with the status 0: the journal shows it, and the client is sent a 500. -/
theorem recorded_status_not_sent :
    ∃ record wire, respond Sample.HeaderMap none (.buffered ⟨0, [], []⟩) = some (record, wire) ∧
      ¬ Agrees record wire := by
  refine ⟨_, _, rfl, ?_⟩
  intro agrees
  exact absurd agrees.status (by decide)

end WireMirage
