import Mathlib.Algebra.GroupWithZero.Nat
import WireMirage.Dispatch.Responses
import WireMirage.Library.Channel
import WireMirage.Library.StepMachine

/-!
Streamed responses: the calls that a handler makes on its stream, what they send to the
dispatch over two channels, and what the dispatch receives of it until the client has gone.
-/
namespace WireMirage
open StepMachine

/-- `head` and `chunks` tell whether the senders are still there. -/
structure StreamSink where
  head : Bool
  chunks : Bool
  started : Bool
  startedAt : Option Time
  chunkCount : UInt64
  byteCount : UInt64
  clientDisconnected : Bool
  deriving DecidableEq, Repr

def StreamSink.new : StreamSink := ⟨true, true, false, none, 0, 0, false⟩

/-- The stream of an invocation, and the two channels that lead to its dispatch. -/
structure StreamState (H C : Type) where
  stream : Option StreamSink
  head : H
  chunks : C

/-- What is put on the channels. -/
inductive StreamMessage where
  | head (head : StreamHead)
  | chunk (bytes : Bytes)
  deriving DecidableEq, Repr

def StreamMessage.bytes : StreamMessage → Option Bytes
  | .head _ => none
  | .chunk bytes => some bytes

namespace StreamState
variable {H C : Type}

def setResponseStreamSink (s : StreamState H C) : StreamState H C :=
  { s with stream := some .new }

def streamStats (s : StreamState H C) : Option (UInt64 × UInt64 × Bool) :=
  (s.stream.filter StreamSink.started).map
    (fun sink => (sink.chunkCount, sink.byteCount, sink.clientDisconnected))

/-- The first call sends the head, whether or not the receiver is there. -/
def start [OneShot H StreamHead] (status : UInt16) (headers : List (String × String)) (now : Time)
    (s : StreamState H C) : StreamState H C × Option StreamMessage :=
  match s.stream with
  | none => (s, none)
  | some sink =>
    if sink.head then
      ({ s with
          stream := some { sink with head := false, started := true, startedAt := some now }
          head := OneShot.send s.head (⟨status, headers⟩ : StreamHead) },
        some (.head ⟨status, headers⟩))
    else (s, none)

/-- It answers nothing while the sender waits for room. -/
def writeChunk [Channel C Bytes] (bytes : Bytes) (s : StreamState H C) :
    Option (StreamState H C × Bool) :=
  match s.stream with
  | none => some (s, false)
  | some sink =>
    if ¬ sink.started then some (s, false)
    else if ¬ sink.chunks then some (s, false)
    else
      let len := UInt64.ofNat bytes.length
      (Channel.send s.chunks bytes).map (fun sent =>
        if sent.1 then
          ({ s with
              stream := some { sink with
                chunkCount := sink.chunkCount + 1
                byteCount := sink.byteCount + len }
              chunks := sent.2 }, true)
        else
          ({ s with stream := some { sink with clientDisconnected := true }, chunks := sent.2 },
            false))

def finish (s : StreamState H C) : StreamState H C :=
  match s.stream with
  | none => s
  | some sink => { s with stream := some { sink with chunks := false } }

end StreamState

/-! Runs of a handler and a dispatch -/

inductive StreamAction where
  | start (status : UInt16) (headers : List (String × String)) (now : Time)
  | writeChunk (bytes : Bytes)
  | finish
  | receiveHead
  | receiveChunk
  | dropHead
  | dropChunks
  deriving DecidableEq, Repr

inductive StreamReply where
  | done
  | wrote (ok : Bool)
  | received (message : StreamMessage)
  deriving DecidableEq, Repr

/-- An action with its answer and with what it put on a channel. -/
structure StreamEvent where
  action : StreamAction
  reply : StreamReply
  sent : Option StreamMessage
  deriving DecidableEq, Repr

section Streaming
variable (H C : Type) [OneShot H StreamHead] [Channel C Bytes]

def streamStep (s : StreamState H C) :
    StreamAction → Option (StreamState H C × StreamReply × Option StreamMessage)
  | .start status headers now =>
    let started := s.start status headers now
    some (started.1, .done, started.2)
  | .writeChunk bytes =>
    (s.writeChunk bytes).map (fun wrote =>
      (wrote.1, .wrote wrote.2, if wrote.2 then some (.chunk bytes) else none))
  | .finish => some (s.finish, .done, none)
  | .receiveHead =>
    (OneShot.receive s.head).map (fun got =>
      ({ s with head := got.2 }, .received (.head got.1), none))
  | .receiveChunk =>
    (Channel.receive s.chunks).map (fun got =>
      ({ s with chunks := got.2 }, .received (.chunk got.1), none))
  | .dropHead => some ({ s with head := OneShot.drop StreamHead s.head }, .done, none)
  | .dropChunks => some ({ s with chunks := Channel.drop Bytes s.chunks }, .done, none)

/-- The stream of an invocation that has just been given its channels. -/
def streaming : Machine (StreamState H C) StreamEvent where
  start s := ∃ s₀ : StreamState H C, s = s₀.setResponseStreamSink ∧
    OneShot.pending s.head = (none : Option StreamHead) ∧
    Channel.waiting s.chunks = ([] : List Bytes) ∧ Channel.listening Bytes s.chunks = true
  step s e :=
    match streamStep H C s e.action with
    | none => none
    | some (t, reply, sent) => if e.reply = reply ∧ e.sent = sent then some t else none

end Streaming

/-! What a run looks like from outside -/

def StreamEvent.startHead (e : StreamEvent) : Option StreamHead :=
  match e.action with
  | .start status headers _ => some ⟨status, headers⟩
  | _ => none

def StreamEvent.accepted (e : StreamEvent) : Option Bytes :=
  match e.action, e.reply with
  | .writeChunk bytes, .wrote true => some bytes
  | _, _ => none

def StreamEvent.headReceived (e : StreamEvent) : Option StreamHead :=
  match e.reply with
  | .received (.head head) => some head
  | _ => none

def StreamEvent.chunkReceived (e : StreamEvent) : Option Bytes :=
  match e.reply with
  | .received (.chunk bytes) => some bytes
  | _ => none

def firstStart (trace : List StreamEvent) : Option StreamHead :=
  trace.findSome? StreamEvent.startHead

/-- The messages put on the channels, in order. -/
def wire (trace : List StreamEvent) : List StreamMessage := trace.filterMap StreamEvent.sent

/-- The chunks whose writing answered true. -/
def accepted (trace : List StreamEvent) : List Bytes := trace.filterMap StreamEvent.accepted

def headsReceived (trace : List StreamEvent) : List StreamHead :=
  trace.filterMap StreamEvent.headReceived

def chunksReceived (trace : List StreamEvent) : List Bytes :=
  trace.filterMap StreamEvent.chunkReceived

def happened (action : StreamAction) (trace : List StreamEvent) : Bool :=
  trace.any (fun e => e.action = action)

theorem filterMap_concat {A B : Type} (f : A → Option B) (l : List A) (a : A) :
    (l ++ [a]).filterMap f = l.filterMap f ++ (f a).toList := by
  rw [List.filterMap_append]
  cases found : f a <;> simp [found]

theorem firstStart_concat (trace : List StreamEvent) (e : StreamEvent) :
    firstStart (trace ++ [e]) = (firstStart trace).or e.startHead := by
  rw [firstStart, List.findSome?_append, List.findSome?_cons]
  cases e.startHead <;> rfl

theorem happened_concat (action : StreamAction) (trace : List StreamEvent) (e : StreamEvent) :
    happened action (trace ++ [e]) = (happened action trace || decide (e.action = action)) := by
  simp [happened]

section Protocol
variable {H C : Type} [OneShot H StreamHead] [Channel C Bytes]

/-- What the events so far say of the stream they lead to. -/
structure History (trace : List StreamEvent) (s : StreamState H C) (sink : StreamSink) : Prop where
  wired : s.stream = some sink
  started : sink.started = (firstStart trace).isSome
  sender : sink.head = !sink.started
  finished : sink.chunks = !happened .finish trace
  wire : wire trace =
    (firstStart trace).toList.map .head ++ (accepted trace).map .chunk
  unstarted : firstStart trace = none → accepted trace = []
  count : sink.chunkCount = UInt64.ofNat (accepted trace).length
  bytes : sink.byteCount = UInt64.ofNat ((accepted trace).map List.length).sum
  listening : Channel.listening Bytes s.chunks = !happened .dropChunks trace
  queued : Channel.listening Bytes s.chunks = true →
    accepted trace = chunksReceived trace ++ Channel.waiting s.chunks
  before : chunksReceived trace <+: accepted trace
  heads : headsReceived trace ++ (OneShot.pending s.head).toList <+: (firstStart trace).toList

theorem history_new {s : StreamState H C} (fresh : (streaming H C).start s) :
    History [] s .new := by
  obtain ⟨s₀, rfl, noHead, noChunks, listening⟩ := fresh
  refine ⟨rfl, rfl, rfl, rfl, rfl, fun _ => rfl, rfl, rfl, listening, ?_, List.nil_prefix, ?_⟩
  · intro _
    rw [noChunks]
    rfl
  · rw [noHead]
    exact List.nil_prefix

/-- An event that the trace functions do not see, but for what it receives. -/
theorem streaming_step {s t : StreamState H C} {e : StreamEvent}
    (stepped : (streaming H C).step s e = some t) :
    streamStep H C s e.action = some (t, e.reply, e.sent) := by
  simp only [streaming] at stepped
  split at stepped
  · cases stepped
  · rename_i u reply sent found
    split at stepped
    · rename_i same
      cases stepped
      rw [found, same.1, same.2]
    · cases stepped

section Steps
variable {trace : List StreamEvent} {s : StreamState H C} {sink : StreamSink}
  (history : History trace s sink)
include history

/-- An event that sends nothing and accepts nothing. -/
theorem history_quiet {e : StreamEvent} {t : StreamState H C} (gone open_ : Bool)
    (stream : t.stream = some { sink with clientDisconnected := gone, chunks := open_ })
    (first : (firstStart trace).or e.startHead = firstStart trace) (silent : e.sent = none)
    (refused : e.accepted = none) (ends : open_ = (sink.chunks && !decide (e.action = .finish)))
    (listening : Channel.listening Bytes t.chunks =
      (Channel.listening Bytes s.chunks && !decide (e.action = .dropChunks)))
    (queued : e.chunkReceived = none ∧ (Channel.listening Bytes t.chunks = true →
        (Channel.waiting t.chunks : List Bytes) = Channel.waiting s.chunks) ∨
      Channel.listening Bytes s.chunks = true ∧ ∃ bytes, e.chunkReceived = some bytes ∧
        Channel.waiting s.chunks = bytes :: Channel.waiting t.chunks)
    (heads : e.headReceived.toList ++ (OneShot.pending t.head : Option StreamHead).toList <+:
      (OneShot.pending s.head : Option StreamHead).toList) :
    History (trace ++ [e]) t { sink with clientDisconnected := gone, chunks := open_ } := by
  have kept : accepted (trace ++ [e]) = accepted trace := by
    rw [accepted, filterMap_concat, refused]
    exact List.append_nil _
  have start : firstStart (trace ++ [e]) = firstStart trace := by
    rw [firstStart_concat, first]
  have got : chunksReceived (trace ++ [e]) = chunksReceived trace ++ e.chunkReceived.toList :=
    filterMap_concat _ _ _
  refine ⟨stream, ?_, history.sender, ?_, ?_, ?_, ?_, ?_, ?_, ?_, ?_, ?_⟩
  · rw [start]
    exact history.started
  · rw [happened_concat, Bool.not_or, ← history.finished]
    exact ends
  · rw [kept, start, ← history.wire, wire, filterMap_concat, silent]
    exact List.append_nil _
  · rw [kept, start]
    exact history.unstarted
  · rw [kept]
    exact history.count
  · rw [kept]
    exact history.bytes
  · rw [listening, history.listening, happened_concat, Bool.not_or]
  · intro here
    have there : Channel.listening Bytes s.chunks = true := by
      rw [here] at listening
      exact (Bool.and_eq_true_iff.mp listening.symm).1
    rw [kept, got, history.queued there]
    rcases queued with ⟨nothing, same⟩ | ⟨_, bytes, one, next⟩
    · rw [nothing, same here]
      simp
    · rw [one, next]
      simp
  · rw [kept, got]
    rcases queued with ⟨nothing, _⟩ | ⟨there, bytes, one, next⟩
    · rw [nothing]
      simpa using history.before
    · rw [history.queued there, one, next]
      simp
  · rw [start, headsReceived, filterMap_concat, List.append_assoc]
    exact ((List.prefix_append_right_inj _).mpr heads).trans history.heads

theorem history_start (status : UInt16) (headers : List (String × String)) (now : Time) :
    ∃ sink', History (trace ++ [⟨.start status headers now, .done,
      (s.start status headers now).2⟩]) (s.start status headers now).1 sink' := by
  unfold StreamState.start
  rw [history.wired]
  simp only
  cases sender : sink.head with
  | false =>
    have begun : sink.started = true := by
      have opposite := history.sender
      rw [sender] at opposite
      simpa using opposite.symm
    rw [if_neg Bool.false_ne_true]
    refine ⟨_, history_quiet history sink.clientDisconnected sink.chunks
      history.wired ?_ rfl rfl
      (by simp) (by simp) (.inl ⟨rfl, fun _ => rfl⟩) (by simp [StreamEvent.headReceived])⟩
    obtain ⟨head, first⟩ := Option.isSome_iff_exists.mp (history.started ▸ begun)
    rw [first, Option.some_or]
  | true =>
    have unbegun : firstStart trace = none := by
      have opposite := history.sender
      rw [sender, history.started] at opposite
      simpa using opposite
    have none_ := history.unstarted unbegun
    have kept : ∀ e : StreamEvent, e.action = .start status headers now →
        accepted (trace ++ [e]) = [] := by
      intro e call
      rw [accepted, filterMap_concat]
      simp only [StreamEvent.accepted, call]
      exact none_ ▸ List.append_nil _
    have heads := history.heads
    rw [unbegun, Option.toList_none, List.prefix_nil] at heads
    obtain ⟨noHead, _⟩ := List.append_eq_nil_iff.mp heads
    have queued := history.queued
    rw [none_] at queued
    rw [if_pos rfl]
    refine ⟨_, rfl, ?_, rfl, ?_, ?_, ?_, ?_, ?_, ?_, ?_, ?_, ?_⟩
    · rw [firstStart_concat, unbegun]
      rfl
    · rw [happened_concat]
      simpa using history.finished
    · rw [kept _ rfl, firstStart_concat, unbegun, wire, filterMap_concat]
      have nothing := history.wire
      rw [unbegun, none_] at nothing
      rw [← wire, nothing]
      rfl
    · intro never
      rw [firstStart_concat, unbegun] at never
      cases never
    · rw [kept _ rfl, ← none_]
      exact history.count
    · rw [kept _ rfl, ← none_]
      exact history.bytes
    · rw [happened_concat]
      simpa using history.listening
    · intro here
      rw [kept _ rfl, chunksReceived, filterMap_concat]
      simpa [StreamEvent.chunkReceived, chunksReceived] using queued here
    · rw [kept _ rfl, chunksReceived, filterMap_concat, ← none_]
      simpa [StreamEvent.chunkReceived, chunksReceived] using history.before
    · rw [firstStart_concat, unbegun, headsReceived, filterMap_concat, ← headsReceived, noHead]
      show (OneShot.pending (OneShot.send s.head (⟨status, headers⟩ : StreamHead)) :
        Option StreamHead).toList <+: [⟨status, headers⟩]
      rcases OneShot.sent s.head (⟨status, headers⟩ : StreamHead) with held | lost
      · rw [held]
        exact List.prefix_rfl
      · rw [lost]
        exact List.nil_prefix

theorem history_refused {bytes : Bytes} {t : StreamState H C} {gone : Bool}
    (stream : t.stream = some { sink with clientDisconnected := gone }) (head : t.head = s.head)
    (listening : Channel.listening Bytes t.chunks = Channel.listening Bytes s.chunks)
    (queued : Channel.listening Bytes t.chunks = true →
      (Channel.waiting t.chunks : List Bytes) = Channel.waiting s.chunks) :
    ∃ sink', History (trace ++ [⟨.writeChunk bytes, .wrote false, none⟩]) t sink' := by
  refine ⟨_, history_quiet history gone sink.chunks stream Option.or_none rfl rfl (by simp) ?_
    (.inl ⟨rfl, queued⟩) ?_⟩
  · simp [listening]
  · rw [head]
    simp [StreamEvent.headReceived]

omit [OneShot H StreamHead] history in
/-- A write is refused by the stream, refused by the channel, or accepted by both. -/
theorem writeChunk_cases (wired : s.stream = some sink) {bytes : Bytes} {t : StreamState H C}
    {ok : Bool} (wrote : s.writeChunk bytes = some (t, ok)) :
    (ok = false ∧ t = s) ∨
      (∃ d, Channel.send s.chunks bytes = some (false, d) ∧ ok = false ∧
        t = { s with stream := some { sink with clientDisconnected := true }, chunks := d }) ∨
      ∃ d, sink.started = true ∧ sink.chunks = true ∧
        Channel.send s.chunks bytes = some (true, d) ∧ ok = true ∧
        t = { s with
          stream := some { sink with
            chunkCount := sink.chunkCount + 1
            byteCount := sink.byteCount + UInt64.ofNat bytes.length }
          chunks := d } := by
  unfold StreamState.writeChunk at wrote
  rw [wired] at wrote
  simp only at wrote
  split at wrote
  · cases wrote
    exact .inl ⟨rfl, rfl⟩
  · rename_i begun
    split at wrote
    · cases wrote
      exact .inl ⟨rfl, rfl⟩
    · rename_i unfinished
      obtain ⟨⟨sent, d⟩, send, same⟩ := Option.map_eq_some_iff.mp wrote
      cases sent with
      | false =>
        cases same
        exact .inr (.inl ⟨d, send, rfl, rfl⟩)
      | true =>
        cases same
        exact .inr (.inr ⟨d, not_not.mp begun, not_not.mp unfinished, send, rfl, rfl⟩)

theorem history_writeChunk {bytes : Bytes} {t : StreamState H C} {ok : Bool}
    (wrote : s.writeChunk bytes = some (t, ok)) :
    ∃ sink', History (trace ++ [⟨.writeChunk bytes, .wrote ok,
      if ok then some (.chunk bytes) else none⟩]) t sink' := by
  rcases writeChunk_cases history.wired wrote with
    ⟨rfl, rfl⟩ | ⟨d, send, rfl, rfl⟩ | ⟨d, begun, _, send, rfl, rfl⟩
  · exact history_refused history history.wired rfl rfl (fun _ => rfl)
  · obtain ⟨before, after⟩ := Channel.refused _ _ _ send
    refine history_refused history rfl rfl (after.trans before.symm) ?_
    intro here
    exact absurd (after.symm.trans here) Bool.false_ne_true
  · obtain ⟨before, after, next⟩ := Channel.sent _ _ _ send
    have more : accepted (trace ++ [⟨.writeChunk bytes, .wrote true,
        some (.chunk bytes)⟩]) = accepted trace ++ [bytes] :=
      filterMap_concat _ _ _
    have got : chunksReceived (trace ++ [⟨.writeChunk bytes, .wrote true,
        some (.chunk bytes)⟩]) = chunksReceived trace := by
      rw [chunksReceived, filterMap_concat]
      exact List.append_nil _
    have start : firstStart (trace ++ [⟨.writeChunk bytes, .wrote true,
        some (.chunk bytes)⟩]) = firstStart trace := by
      rw [firstStart_concat]
      exact Option.or_none
    rw [if_pos rfl]
    refine ⟨_, rfl, ?_, history.sender, ?_, ?_, ?_, ?_, ?_, ?_, ?_, ?_, ?_⟩
    · rw [start]
      exact history.started
    · rw [happened_concat]
      simpa using history.finished
    · rw [more, start, wire, filterMap_concat, ← wire, history.wire]
      simp
    · intro never
      rw [start] at never
      rw [history.started, never] at begun
      cases begun
    · rw [more, List.length_append, List.length_singleton, UInt64.ofNat_add, ← history.count]
      rfl
    · rw [more, List.map_append, List.sum_append, UInt64.ofNat_add, ← history.bytes]
      simp
    · rw [happened_concat]
      show Channel.listening Bytes d = _
      rw [after, ← before, history.listening]
      simp
    · intro _
      rw [more, got, history.queued before, next, List.append_assoc]
    · rw [more, got]
      exact history.before.trans (List.prefix_append _ _)
    · rw [start, headsReceived, filterMap_concat]
      simpa [StreamEvent.headReceived, headsReceived] using history.heads

theorem history_finish :
    ∃ sink', History (trace ++ [⟨.finish, .done, none⟩]) s.finish sink' := by
  unfold StreamState.finish
  rw [history.wired]
  exact ⟨_, history_quiet history sink.clientDisconnected false rfl
    Option.or_none rfl rfl (by simp) (by simp) (.inl ⟨rfl, fun _ => rfl⟩)
    (by simp [StreamEvent.headReceived])⟩

theorem history_receiveHead {head : StreamHead} {d : H}
    (got : OneShot.receive s.head = some (head, d)) :
    History (trace ++ [⟨.receiveHead, .received (.head head), none⟩])
      { s with head := d } sink := by
  obtain ⟨held, taken⟩ := OneShot.received _ _ _ got
  refine history_quiet history sink.clientDisconnected sink.chunks
      history.wired
    (Option.or_none) rfl rfl (by simp) (by simp) (.inl ⟨rfl, fun _ => rfl⟩) ?_
  show [head] ++ (OneShot.pending d : Option StreamHead).toList <+: _
  rw [held, taken]
  exact List.prefix_rfl

theorem history_receiveChunk {bytes : Bytes} {d : C}
    (got : Channel.receive s.chunks = some (bytes, d)) :
    History (trace ++ [⟨.receiveChunk, .received (.chunk bytes), none⟩]) { s with chunks := d }
      sink := by
  obtain ⟨here, there, first⟩ := Channel.received _ _ _ got
  refine history_quiet history sink.clientDisconnected sink.chunks
      history.wired
    (Option.or_none) rfl rfl (by simp) ?_ (.inr ⟨here, bytes, rfl, first⟩)
    (by simp [StreamEvent.headReceived])
  simp [here, there]

theorem history_dropHead : History (trace ++ [⟨.dropHead, .done, none⟩])
    { s with head := OneShot.drop StreamHead s.head } sink := by
  refine history_quiet history sink.clientDisconnected sink.chunks
      history.wired
    (Option.or_none) rfl rfl (by simp) (by simp) (.inl ⟨rfl, fun _ => rfl⟩) ?_
  simp [StreamEvent.headReceived, OneShot.dropped]

theorem history_dropChunks : History (trace ++ [⟨.dropChunks, .done, none⟩])
    { s with chunks := Channel.drop Bytes s.chunks } sink := by
  have gone := Channel.dropped (A := Bytes) s.chunks
  refine history_quiet history sink.clientDisconnected sink.chunks
      history.wired
    (Option.or_none) rfl rfl (by simp) ?_ (.inl ⟨rfl, ?_⟩) (by simp [StreamEvent.headReceived])
  · simp [gone]
  · intro there
    simp [gone] at there

/-- Every step adds its event to the history. -/
theorem history_step {e : StreamEvent} {t : StreamState H C}
    (stepped : (streaming H C).step s e = some t) : ∃ sink', History (trace ++ [e]) t sink' := by
  have found := streaming_step stepped
  obtain ⟨action, reply, sent⟩ := e
  cases action with
  | start status headers now =>
    cases found
    exact history_start history status headers now
  | writeChunk bytes =>
    obtain ⟨⟨u, ok⟩, wrote, same⟩ := Option.map_eq_some_iff.mp found
    cases same
    exact history_writeChunk history wrote
  | finish =>
    cases found
    exact history_finish history
  | receiveHead =>
    obtain ⟨⟨head, d⟩, got, same⟩ := Option.map_eq_some_iff.mp found
    cases same
    exact ⟨_, history_receiveHead history got⟩
  | receiveChunk =>
    obtain ⟨⟨bytes, d⟩, got, same⟩ := Option.map_eq_some_iff.mp found
    cases same
    exact ⟨_, history_receiveChunk history got⟩
  | dropHead =>
    cases found
    exact ⟨_, history_dropHead history⟩
  | dropChunks =>
    cases found
    exact ⟨_, history_dropChunks history⟩

/-- Nothing is accepted after the end of the stream or of its receiver. -/
theorem shut_step {e : StreamEvent} {t : StreamState H C}
    (stepped : (streaming H C).step s e = some t) :
    (happened .finish trace = true → e.accepted = none) ∧
      (happened .dropChunks trace = true → e.accepted = none ∧ e.chunkReceived = none) := by
  have found := streaming_step stepped
  obtain ⟨action, reply, sent⟩ := e
  cases action with
  | start status headers now =>
    cases found
    exact ⟨fun _ => rfl, fun _ => ⟨rfl, rfl⟩⟩
  | finish =>
    cases found
    exact ⟨fun _ => rfl, fun _ => ⟨rfl, rfl⟩⟩
  | dropHead =>
    cases found
    exact ⟨fun _ => rfl, fun _ => ⟨rfl, rfl⟩⟩
  | dropChunks =>
    cases found
    exact ⟨fun _ => rfl, fun _ => ⟨rfl, rfl⟩⟩
  | receiveHead =>
    obtain ⟨⟨head, d⟩, got, same⟩ := Option.map_eq_some_iff.mp found
    cases same
    exact ⟨fun _ => rfl, fun _ => ⟨rfl, rfl⟩⟩
  | receiveChunk =>
    obtain ⟨⟨bytes, d⟩, got, same⟩ := Option.map_eq_some_iff.mp found
    cases same
    refine ⟨fun _ => rfl, fun dropped => ?_⟩
    have here := (Channel.received _ _ _ got).1
    rw [history.listening, dropped] at here
    cases here
  | writeChunk bytes =>
    obtain ⟨⟨u, ok⟩, wrote, same⟩ := Option.map_eq_some_iff.mp found
    cases same
    cases ok with
    | false => exact ⟨fun _ => rfl, fun _ => ⟨rfl, rfl⟩⟩
    | true =>
      rcases writeChunk_cases history.wired wrote with
        ⟨no, _⟩ | ⟨d, _, no, _⟩ | ⟨d, _, unfinished, send, _, _⟩
      · cases no
      · cases no
      · constructor
        · intro ended
          rw [history.finished, ended] at unfinished
          cases unfinished
        · intro dropped
          have here := (Channel.sent _ _ _ send).1
          rw [history.listening, dropped] at here
          cases here

end Steps

theorem history_of_traced {s₀ s : StreamState H C} {trace : List StreamEvent}
    (fresh : (streaming H C).start s₀) (traced : Traced (streaming H C) s₀ trace s) :
    ∃ sink, History trace s sink := by
  refine @traced_invariant _ _ (streaming H C) (fun trace s => ∃ sink, History trace s sink) _
    ⟨_, history_new fresh⟩ ?_ _ _ traced
  rintro as t e u ⟨sink, history⟩ stepped
  exact history_step history stepped

theorem chunks_of_wire {trace : List StreamEvent} {s : StreamState H C} {sink : StreamSink}
    (history : History trace s sink) : (wire trace).filterMap StreamMessage.bytes =
      accepted trace := by
  rw [history.wire, List.filterMap_append, List.filterMap_map, List.filterMap_map]
  have chunks : StreamMessage.bytes ∘ StreamMessage.chunk = some := rfl
  have heads : StreamMessage.bytes ∘ StreamMessage.head = fun _ => none := rfl
  rw [chunks, heads, List.filterMap_some]
  simp

/-- What follows the end of the stream, or of its receiver. -/
theorem shut_run {before after : List StreamEvent} {t s : StreamState H C} {sink : StreamSink}
    (history : History before t sink) (path : Traced (streaming H C) t after s) :
    (happened .finish before = true → accepted after = []) ∧
      (happened .dropChunks before = true → accepted after = [] ∧ chunksReceived after = []) := by
  have run := @traced_invariant _ _ (streaming H C)
    (fun as u => (∃ sink, History (before ++ as) u sink) ∧
      (happened .finish before = true → accepted as = []) ∧
      (happened .dropChunks before = true → accepted as = [] ∧ chunksReceived as = [])) t
    ⟨⟨sink, by rw [List.append_nil]; exact history⟩, fun _ => rfl, fun _ => ⟨rfl, rfl⟩⟩ ?_ _ _ path
  · exact run.2
  · rintro as u e v ⟨⟨sink, held⟩, ended, dropped⟩ stepped
    obtain ⟨atEnd, atDrop⟩ := shut_step held stepped
    have still : ∀ action, happened action before = true →
        happened action (before ++ as) = true := by
      intro action here
      rw [happened, List.any_append, ← happened, here]
      rfl
    refine ⟨?_, ?_, ?_⟩
    · rw [← List.append_assoc]
      exact history_step held stepped
    · intro finished
      rw [accepted, filterMap_concat, ← accepted, ended finished, atEnd (still _ finished)]
      rfl
    · intro gone
      obtain ⟨noWrite, noRead⟩ := atDrop (still _ gone)
      obtain ⟨none_, nothing⟩ := dropped gone
      constructor
      · rw [accepted, filterMap_concat, ← accepted, none_, noWrite]
        rfl
      · rw [chunksReceived, filterMap_concat, ← chunksReceived, nothing, noRead]
        rfl

/-- The first start sends the head, at most once and before any chunk; the chunks sent are those
    whose writing answered true, none of them before a start or after the end; the receiver gets
    them in order, all but those that still wait or that it left behind; and the numbers recorded
    are those of what was sent. -/
theorem response_stream_protocol {s₀ s : StreamState H C} {trace : List StreamEvent}
    (fresh : (streaming H C).start s₀) (traced : Traced (streaming H C) s₀ trace s) :
    wire trace = (firstStart trace).toList.map .head ++ (accepted trace).map .chunk ∧
      headsReceived trace <+: (firstStart trace).toList ∧
      chunksReceived trace <+: accepted trace ∧
      (happened .dropChunks trace = false →
        accepted trace = chunksReceived trace ++ Channel.waiting s.chunks) ∧
      (∀ before after, trace = before ++ after →
        (firstStart before = none → wire before = []) ∧
          (happened .finish before = true → ∀ bytes, .chunk bytes ∉ wire after) ∧
          (happened .dropChunks before = true → accepted after = [] ∧ chunksReceived after = [])) ∧
      s.streamStats.map (fun stats => (stats.1, stats.2.1)) = (firstStart trace).map (fun _ =>
        (UInt64.ofNat (accepted trace).length,
          UInt64.ofNat ((accepted trace).map List.length).sum)) := by
  obtain ⟨sink, history⟩ := history_of_traced fresh traced
  refine ⟨history.wire, ?_, history.before, ?_, ?_, ?_⟩
  · exact (List.prefix_append _ _).trans history.heads
  · intro held
    apply history.queued
    rw [history.listening, held]
    rfl
  · rintro before after rfl
    obtain ⟨t, early, late⟩ := traced_split traced
    obtain ⟨sink', begun⟩ := history_of_traced fresh early
    obtain ⟨atEnd, atDrop⟩ := shut_run begun late
    refine ⟨?_, ?_, atDrop⟩
    · intro never
      rw [begun.wire, never, begun.unstarted never]
      rfl
    · intro finished bytes sent
      have whole := chunks_of_wire history
      have messages : wire (before ++ after) = wire before ++ wire after := List.filterMap_append
      have chunks : accepted (before ++ after) = accepted before ++ accepted after :=
        List.filterMap_append
      rw [messages, List.filterMap_append, chunks_of_wire begun, chunks,
        List.append_cancel_left_eq, atEnd finished] at whole
      have inside : bytes ∈ (wire after).filterMap StreamMessage.bytes :=
        List.mem_filterMap.mpr ⟨_, sent, rfl⟩
      rw [whole] at inside
      cases inside
  · rw [StreamState.streamStats, history.wired]
    cases first : firstStart trace with
    | none =>
      have unstarted := history.started
      rw [first] at unstarted
      simp [unstarted]
    | some head =>
      have started := history.started
      rw [first] at started
      simp [started, history.count, history.bytes]

end Protocol

namespace Sample

def wired : StreamState (Slot StreamHead) (BoundedQueue Bytes) :=
  StreamState.setResponseStreamSink ⟨none, ⟨none, true⟩, ⟨2, [], true⟩⟩

/-- The client reads one of two chunks and goes; a second start changes nothing. -/
def streamed : List StreamEvent :=
  [⟨.writeChunk [0], .wrote false, none⟩,
    ⟨.start 200 [] 7, .done, some (.head ⟨200, []⟩)⟩,
    ⟨.writeChunk [1, 2], .wrote true, some (.chunk [1, 2])⟩,
    ⟨.receiveHead, .received (.head ⟨200, []⟩), none⟩,
    ⟨.start 500 [] 8, .done, none⟩,
    ⟨.writeChunk [3], .wrote true, some (.chunk [3])⟩,
    ⟨.receiveChunk, .received (.chunk [1, 2]), none⟩,
    ⟨.dropChunks, .done, none⟩,
    ⟨.writeChunk [4], .wrote false, none⟩,
    ⟨.finish, .done, none⟩]

theorem streamed_ran : (exec (streaming _ _) wired streamed).isSome = true := by decide +kernel

end Sample

theorem response_stream_protocol_streamed :
    ∃ s, Traced (streaming _ _) Sample.wired Sample.streamed s ∧
      s.streamStats.map (fun stats => (stats.1, stats.2.1)) = some (2, 3) ∧
      chunksReceived Sample.streamed <+: accepted Sample.streamed := by
  have fresh : (streaming _ _).start Sample.wired := ⟨_, rfl, rfl, rfl, rfl⟩
  have traced := traced_of_exec (Option.some_get Sample.streamed_ran).symm
  obtain ⟨_, _, before, _, _, stats⟩ := response_stream_protocol fresh traced
  exact ⟨_, traced, stats, before⟩

end WireMirage
