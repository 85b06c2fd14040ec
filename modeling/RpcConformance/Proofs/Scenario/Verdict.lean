import RpcConformance.Proofs.Client.CleanEnd
import RpcConformance.Proofs.Client.Drained
import RpcConformance.Proofs.Client.Head
import RpcConformance.Proofs.Message.Codec
import RpcConformance.Scenario.Suite
/-!
Verdicts on streams of responses. Two scenarios take all responses of a stream and compare their sizes: whatever a peer
streams, they pass exactly if the stream has those sizes and then a good end, and otherwise they tell what is wrong
(`streaming_verdicts`). What each step of a trial does is said once (`Trial.runs_perform` and the like), so that a
scenario is followed from one step to the next.
-/
namespace RpcConformance

open Client
open Event (messages firstEnd? beforeEnd)

namespace Scenario

namespace Trial

variable {α β : Type}

/-- What a trial comes to that starts at a time, and the time it ends at. -/
def runs (trial : Trial α) (guard : Guard) (now : Nat) : Except Failure α × Nat := (trial.run guard).run.run now

theorem runs_bind (trial : Trial α) (next : α → Trial β) (guard : Guard) (now : Nat) :
    (trial >>= next).runs guard now =
      match trial.runs guard now with
      | (.ok a, later) => (next a).runs guard later
      | (.error failure, later) => (.error failure, later) := by
  have hbind : (trial >>= next).runs guard now =
      ExceptT.bindCont (fun a => next a guard) (trial.runs guard now).1 (trial.runs guard now).2 := rfl
  rw [hbind]
  obtain ⟨_ | _, _⟩ := trial.runs guard now <;> rfl

theorem runs_perform {L Req Res : Type} [Link L Req Res] (operation : Nat → Except Halt α × Call L) (guard : Guard)
    (now : Nat) :
    (perform operation).runs guard now =
      match operation guard.limit with
      | (.ok a, call) => (.ok (.ok a, call), call.now)
      | (.error (.failed status), call) => (.ok (.error status, call), call.now)
      | (.error .blocked, call) => (.error (.timedOut guard.span), call.now)
      | (.error .panicked, call) => (.error overflow, call.now) := by
  have hperform : (perform operation).runs guard now =
      (do let a ← settle (operation guard.limit).1; pure (a, (operation guard.limit).2) : Trial _).runs guard
        (operation guard.limit).2.now := rfl
  rw [hperform]
  obtain ⟨(_ | _ | _) | _, call⟩ := operation guard.limit <;> rfl

theorem runs_checkEq [DecidableEq α] [Shown α] (what : String) (expected observed : α) (guard : Guard) (now : Nat) :
    (checkEq what expected observed).runs guard now =
      (if expected = observed then .ok () else .error (.mismatch what (shown expected) (shown observed)), now) := by
  unfold checkEq
  split <;> rfl

theorem runs_drainSizes {L Req : Type} [Link L Req StreamingOutputCallResponse] (what : String) (call : Call L)
    (guard : Guard) (now : Nat) :
    (drainSizes what call).runs guard now =
      match call.drain guard.limit with
      | (.ok responses, rest) => (.ok (responses.map responseSize, rest), rest.now)
      | (.error (.failed status), rest) => (.error (.rpc what status), rest.now)
      | (.error .blocked, rest) => (.error (.timedOut guard.span), rest.now)
      | (.error .panicked, rest) => (.error overflow, rest.now) := by
  simp only [drainSizes, Trial.drain, runs_bind, runs_perform]
  obtain ⟨(_ | _ | _) | _, call⟩ := call.drain guard.limit <;> rfl

theorem runs_outputStream {T : Type u} [Transport T] (transport : T) (request : StreamingOutputCallRequest)
    (guard : Guard) (now : Nat) :
    (outputStream transport request).runs guard now =
      match Transport.openServerStream transport .streamingOutputCall request {} now guard.limit with
      | (.ok (), call) => (.ok call, call.now)
      | (.error (.failed status), call) => (.error (.rpc "StreamingOutputCall" status), call.now)
      | (.error .blocked, call) => (.error (.timedOut guard.span), call.now)
      | (.error .panicked, call) => (.error overflow, call.now) := by
  have hopen : (outputStream transport request).runs guard now =
      (do
        let opened ← perform fun limit => Transport.openServerStream transport .streamingOutputCall request {} now limit
        expecting "StreamingOutputCall" opened.1
        return opened.2 : Trial _).runs guard now := rfl
  rw [hopen, runs_bind, runs_perform]
  generalize Transport.openServerStream transport .streamingOutputCall request {} now guard.limit = found
  obtain ⟨(_ | _ | _) | _, call⟩ := found <;> rfl

end Trial

/-- A pass unless something is wrong. -/
def verdictOf : Option Failure → Except Failure Unit
  | none => .ok ()
  | some failure => .error failure

/-- The first end among events is good, and the messages before it have these sizes. -/
def Concludes (events : List (Event StreamingOutputCallResponse)) (sizes : List Nat) : Prop :=
  (∃ trailers, firstEnd? events = some (.ok (), trailers)) ∧ (messages (beforeEnd events)).map responseSize = sizes

/-- What is wrong with a stream of responses that should have such sizes, if anything is. -/
def flaw? (span : Duration) (what label : String) (expected : List Nat) (complete : Bool)
    (events : List (Event StreamingOutputCallResponse)) : Option Failure :=
  match drained complete events with
  | .ok responses =>
    if expected = responses.map responseSize then none
    else some (.mismatch label (shown expected) (shown (responses.map responseSize)))
  | .error (.failed status) => some (.rpc what status)
  | .error .blocked => some (.timedOut span)
  | .error .panicked => some Trial.overflow

section Sizes

variable {span : Duration} {what label : String} {expected : List Nat} {complete : Bool}
  {events : List (Event StreamingOutputCallResponse)}

theorem concludes_iff {sizes : List Nat} :
    Concludes events sizes ↔
      ∃ responses, drained complete events = .ok responses ∧ responses.map responseSize = sizes := by
  simp only [drained_eq_ok_iff, Concludes]
  constructor
  · rintro ⟨hend, hsizes⟩
    exact ⟨_, ⟨hend, rfl⟩, hsizes⟩
  · rintro ⟨_, ⟨hend, rfl⟩, hsizes⟩
    exact ⟨hend, hsizes⟩

theorem flaw?_eq_none_iff : flaw? span what label expected complete events = none ↔ Concludes events expected := by
  rw [@concludes_iff complete, flaw?]
  match drained complete events with
  | .ok responses => simp [eq_comm]
  | .error (.failed status) | .error .blocked | .error .panicked => simp

def checkSizes {L Req : Type} [Link L Req StreamingOutputCallResponse] (what label : String) (expected : List Nat)
    (call : Call L) : Trial Unit := do
  let (sizes, _) ← drainSizes what call
  Trial.checkEq label expected sizes

section Draining

variable {L Req : Type} [Link L Req StreamingOutputCallResponse] {call : Call L} {guard : Guard}
  (hawaits : call.Awaits (Link.Delivers guard.limit complete) events)

include hawaits

theorem drainSizes_eq_ok_iff (what : String) (now : Nat) (sizes : List Nat) :
    (∃ rest later, (drainSizes what call).runs guard now = (.ok (sizes, rest), later)) ↔ Concludes events sizes := by
  rw [@concludes_iff complete, ← hawaits.drain_eq, Trial.runs_drainSizes]
  generalize call.drain guard.limit = found
  obtain ⟨(_ | _ | _) | _, rest⟩ := found <;> simp

theorem runs_checkSizes (what label : String) (expected : List Nat) (now : Nat) :
    ((checkSizes what label expected call).runs guard now).1 =
      verdictOf (flaw? guard.span what label expected complete events) := by
  rw [checkSizes, Trial.runs_bind, Trial.runs_drainSizes, flaw?, ← hawaits.drain_eq]
  generalize call.drain guard.limit = found
  obtain ⟨(_ | _ | _) | responses, rest⟩ := found
  · rfl
  · rfl
  · rfl
  · simp only [Trial.runs_checkEq]
    split <;> rfl

end Draining

end Sizes

section Scenarios

variable {T : Type u} {transport : T} {span : Duration} {now : Nat}

theorem failure_runFrom {scenario : Scenario T} {flaw : Option Failure}
    (h : ((scenario.run transport).runs { span, limit := now + span.ticks } now).1 = verdictOf flaw) :
    (scenario.runFrom transport span now).1.failure = flaw := by
  unfold runFrom
  rw [Trial.runs] at h
  generalize ((scenario.run transport).run { span, limit := now + span.ticks }).run.run now = found at h ⊢
  obtain ⟨verdict, ended⟩ := found
  obtain rfl : verdict = verdictOf flaw := h
  cases flaw <;> rfl

variable [Transport T] {complete : Bool} {events : List (Event StreamingOutputCallResponse)}

theorem failure_serverStreaming (h : Transport.Streams transport .streamingOutputCall
      [{ responseParameters := serverStreamSizes.map (outputOf ·) }] now (now + span.ticks) complete events) :
    (runFrom ⟨"server_streaming", serverStreaming⟩ transport span now).1.failure =
      flaw? span "StreamingOutputCall receive" "response sizes" serverStreamSizes complete events := by
  obtain ⟨call, hopened, hawaits⟩ := h.openServerStream
  refine failure_runFrom ?_
  have hrun : (serverStreaming transport).runs { span, limit := now + span.ticks } now =
      (checkSizes "StreamingOutputCall receive" "response sizes" serverStreamSizes call).runs
        { span, limit := now + span.ticks } call.now := by
    rw [serverStreaming, Trial.runs_bind, Trial.runs_outputStream, hopened]
    rfl
  rw [hrun]
  exact runs_checkSizes hawaits _ _ _ _

theorem failure_emptyStream
    (h : Transport.Streams transport .fullDuplexCall [] now (now + span.ticks) complete events) :
    (runFrom ⟨"empty_stream", emptyStream⟩ transport span now).1.failure =
      flaw? span "FullDuplexCall receive" "responses" [] complete events := by
  refine failure_runFrom ?_
  have hrun : (emptyStream transport).runs { span, limit := now + span.ticks } now =
      (checkSizes "FullDuplexCall receive" "responses" []
        (Transport.openMethod transport .fullDuplexCall {} now).closeSend).runs
          { span, limit := now + span.ticks } now := rfl
  rw [hrun]
  exact runs_checkSizes h.awaits _ _ _ _

end Scenarios

/-- Whatever events a stream of responses is made of, and whether it is over after them or silent, draining it gives
exactly the sizes of the messages before its first end, and only if that end is good. A peer passes the scenario of a
server stream exactly if these sizes are those that were asked for, and that of an empty stream exactly if there are no
messages; any other peer fails, and is told why. -/
theorem streaming_verdicts {T : Type u} [Transport T] (transport : T) (span : Duration) (now : Nat) (complete : Bool)
    (events : List (Event StreamingOutputCallResponse)) :
    (∀ (path : String) (Req : Type) [Message Req] (call : Transport.Call transport path Req StreamingOutputCallResponse)
      (guard : Guard), call.Awaits (Link.Delivers guard.limit complete) events → ∀ what sizes,
        (∃ rest later, (drainSizes what call).runs guard now = (.ok (sizes, rest), later)) ↔ Concludes events sizes) ∧
    (Transport.Streams transport .streamingOutputCall [{ responseParameters := serverStreamSizes.map (outputOf ·) }] now
        (now + span.ticks) complete events →
      let result := (runFrom ⟨"server_streaming", serverStreaming⟩ transport span now).1
      (result.passed = true ↔ Concludes events serverStreamSizes) ∧
      result.failure = flaw? span "StreamingOutputCall receive" "response sizes" serverStreamSizes complete events) ∧
    (Transport.Streams transport .fullDuplexCall [] now (now + span.ticks) complete events →
      let result := (runFrom ⟨"empty_stream", emptyStream⟩ transport span now).1
      (result.passed = true ↔ Concludes events []) ∧
      result.failure = flaw? span "FullDuplexCall receive" "responses" [] complete events) := by
  refine ⟨fun path Req _ call guard hawaits what sizes => drainSizes_eq_ok_iff hawaits what now sizes, ?_, ?_⟩
  · intro h
    have hfailure := failure_serverStreaming h
    refine ⟨?_, hfailure⟩
    rw [Result.passed, hfailure, Option.isNone_iff_eq_none, flaw?_eq_none_iff]
  · intro h
    have hfailure := failure_emptyStream h
    refine ⟨?_, hfailure⟩
    rw [Result.passed, hfailure, Option.isNone_iff_eq_none, flaw?_eq_none_iff]

section Repeating

def zerosOf (size : Nat) : StreamingOutputCallResponse := { payload := zeros size }

def streamOf (sizes : List Nat) : Http.Response where
  status := 200
  headers := .empty
  body := [.data ((sizes.map fun size => Message.write (zerosOf size)).flatMap (Envelope.wrap Envelope.messageFlags)),
    .trailers Exchange.goodTrailers]
  failure := none

def repeating (response : Http.Response) : Remote where
  baseUrl := "http://localhost:8080"
  protocol := .grpc
  codec := .proto
  network := fun _ _ => .ok fun _ => some response

theorem length_write_zerosOf {size : Nat} (h : size < 0x80000000) :
    (Message.write (zerosOf size)).length ≤ size + 12 := by
  have hfield := @Payload.length_field_le (List.replicate size 0) (by simpa using h)
  rwa [List.length_replicate] at hfield

theorem events_streamOf {sizes : List Nat} (h : ∀ size ∈ sizes, size < 0x80000000) :
    Exchange.events .grpc .proto (streamOf sizes) =
      .headers (.ofHeaders .empty) :: ((sizes.map zerosOf).map .message ++ [.ended (.ok ()) .empty]) := by
  let sent := sizes.map fun size => (zerosOf size, Message.write (zerosOf size))
  have hlength : ∀ pair ∈ sent, pair.2 = Message.write pair.1 ∧ pair.2.length < 0x80000000 + 12 := by
    intro pair hpair
    obtain ⟨size, hsize, rfl⟩ := List.mem_map.1 hpair
    have hwritten := length_write_zerosOf (h size hsize)
    have hbound := h size hsize
    exact ⟨rfl, by simp only; omega⟩
  have hholds : Exchange.Holds .proto sent := by
    intro pair hpair
    obtain ⟨hwritten, hbound⟩ := hlength pair hpair
    rw [hwritten] at hbound ⊢
    exact Codec.decode_write (StreamingOutputCallResponse.updates_write _) (Nat.lt_trans hbound (by decide))
  have hlengths : ∀ body ∈ sent.map Prod.snd, body.length < Envelope.lengthBound := by
    intro body hbody
    obtain ⟨pair, hpair, rfl⟩ := List.mem_map.1 hbody
    exact Nat.lt_trans (hlength pair hpair).2 (by decide)
  have hdrained := @Exchange.ofDrained_of_closing _ _ .grpc .proto none _ [] _ _ hholds hlengths
    (.trailers rfl Exchange.endOfTrailers_goodTrailers)
  have hbodies : sent.map Prod.snd = sizes.map fun size => Message.write (zerosOf size) := List.map_map
  have hmessages : sent.map Prod.fst = sizes.map zerosOf := List.map_map
  rw [hbodies, hmessages] at hdrained
  rw [Exchange.events_of_open .grpc .proto rfl (Exchange.endOfHeaders?_empty .grpc)]
  exact congrArg (List.cons _) hdrained

theorem streams_repeating (response : Http.Response) {method : Method}
    (huri : Http.Uri.parse? ("http://localhost:8080" ++ method.path) =
      some ⟨some "http", "localhost:8080", method.path⟩)
    {requests : List method.Request} {body : List Http.Part}
    (hbody : Remote.envelopes (requests.map Codec.proto.encode) = .ok body) (now limit : Nat) :
    Transport.Streams (repeating response) method requests now limit true (Exchange.events .grpc .proto response) := by
  obtain ⟨headers, hhead, -⟩ := @Remote.head_eq (repeating response) true _ _ huri {} nofun
  have hsource : ((repeating response).source method.path {} : Source method.Response) =
      .reply [] ((repeating response).answer fun _ => some response) := by
    rw [Remote.source, hhead]
    rfl
  refine Feed.answers hsource ?_ limit
  show (repeating response).answer _ (requests.map Codec.proto.encode) = _
  rw [Remote.answer, hbody]
  rfl

theorem concludes_stream (headers trailers : Metadata) (responses : List StreamingOutputCallResponse) :
    Concludes (.headers headers :: (responses.map .message ++ [.ended (.ok ()) trailers]))
      (responses.map responseSize) := by
  have hstream : firstEnd? (responses.map .message ++ [.ended (.ok ()) trailers]) = some (.ok (), trailers) ∧
      messages (beforeEnd (responses.map .message ++ [.ended (.ok ()) trailers])) = responses := by
    induction responses with
    | nil => exact ⟨rfl, rfl⟩
    | cons response responses ih => exact ⟨ih.1, congrArg (List.cons response) ih.2⟩
  exact ⟨⟨trailers, hstream.1⟩, congrArg (List.map responseSize) hstream.2⟩

theorem concludes_streamOf {sizes : List Nat} (h : ∀ size ∈ sizes, size < 0x80000000) :
    Concludes (Exchange.events .grpc .proto (streamOf sizes)) sizes := by
  have hsizes : (sizes.map zerosOf).map responseSize = sizes := by
    rw [List.map_map]
    refine (List.map_congr_left fun size _ => ?_).trans (List.map_id sizes)
    exact List.length_replicate
  have hconcludes := concludes_stream (.ofHeaders .empty) .empty (sizes.map zerosOf)
  rwa [hsizes, ← events_streamOf h] at hconcludes

/-- A server with the responses that were asked for passes where they are expected, and fails where none are. -/
theorem streaming_verdicts_repeating :
    (runFrom ⟨"server_streaming", serverStreaming⟩ (repeating (streamOf serverStreamSizes)) guardSpan 0).1.passed =
      true ∧
    (runFrom ⟨"empty_stream", emptyStream⟩ (repeating (streamOf [])) guardSpan 0).1.passed = true ∧
    (runFrom ⟨"empty_stream", emptyStream⟩ (repeating (streamOf serverStreamSizes)) guardSpan 0).1.passed = false ∧
    ∃ rest later,
      (drainSizes "FullDuplexCall receive"
        (Transport.openMethod (repeating (streamOf serverStreamSizes)) .fullDuplexCall {} 0).closeSend).runs
          { span := guardSpan, limit := 0 + guardSpan.ticks } 0 = (.ok (serverStreamSizes, rest), later) := by
  have hfour := @concludes_streamOf serverStreamSizes (by decide)
  have hnone := @concludes_streamOf [] (by decide)
  have houtput : Http.Uri.parse? ("http://localhost:8080" ++ Method.streamingOutputCall.path) =
      some ⟨some "http", "localhost:8080", Method.streamingOutputCall.path⟩ := by decide +kernel
  have hduplex : Http.Uri.parse? ("http://localhost:8080" ++ Method.fullDuplexCall.path) =
      some ⟨some "http", "localhost:8080", Method.fullDuplexCall.path⟩ := by decide +kernel
  have hasked := @streams_repeating (streamOf serverStreamSizes) _ houtput
    [{ responseParameters := serverStreamSizes.map (outputOf ·) }] _ rfl 0 (0 + guardSpan.ticks)
  have hfull := @streams_repeating (streamOf serverStreamSizes) _ hduplex [] _ rfl 0 (0 + guardSpan.ticks)
  have hempty := @streams_repeating (streamOf []) _ hduplex [] _ rfl 0 (0 + guardSpan.ticks)
  obtain ⟨hdrain, hserver, hother⟩ := streaming_verdicts (repeating (streamOf serverStreamSizes)) guardSpan 0 true
    (Exchange.events .grpc .proto (streamOf serverStreamSizes))
  have hpassed := (streaming_verdicts (repeating (streamOf [])) guardSpan 0 true _).2.2 hempty
  refine ⟨(hserver hasked).1.2 hfour, hpassed.1.2 hnone, ?_, ?_⟩
  · refine Bool.eq_false_iff.2 fun hpasses => ?_
    have hsizes := ((hother hfull).1.1 hpasses).2
    rw [hfour.2] at hsizes
    cases hsizes
  · exact (hdrain _ _ _ _ hfull.awaits _ _).2 hfour

end Repeating

end Scenario
end RpcConformance
