import RpcConformance.Proofs.Server.Route
import RpcConformance.Proofs.Server.Response
import RpcConformance.Proofs.Session.History
import RpcConformance.Service.Reference
/-!
The messages of a call in its response. A call that ends well has headers, messages and a good end
(`events_of_good_end`). In envelopes the response carries all of the messages; bare it carries the last one alone, and
nothing tells that there were others (`respond?_of_good_end`, `bare_drops`).
-/
namespace RpcConformance

open Envelope Http

namespace Event

def message? {α : Type} : Event α → Option α
  | .message sent => some sent
  | .headers _ | .ended _ _ => none

def messages {α : Type} (events : List (Event α)) : List α := events.filterMap message?

theorem messages_answer {α : Type} (headers : Metadata) (bodies : List α) (outcome : Outcome) (trailers : Metadata) :
    messages (.headers headers :: bodies.map .message ++ [.ended outcome trailers]) = bodies := by
  have hbodies : (bodies.map Event.message).filterMap message? = bodies :=
    List.filterMap_map.trans List.filterMap_some
  have hheaders : message? (.headers headers : Event α) = none := rfl
  have hended : message? (.ended outcome trailers : Event α) = none := rfl
  rw [messages, List.filterMap_append, List.filterMap_cons_none hheaders, hbodies, List.filterMap_cons_none hended,
    List.filterMap_nil, List.append_nil]

end Event

theorem Deed.account_of_good_end {deeds : List Deed} {trailers : Metadata}
    (h : .ended (.ok ()) trailers ∈ account deeds) :
    ∃ headers, account deeds =
      .headers headers :: (Event.messages (account deeds)).map .message ++ [.ended (.ok ()) trailers] := by
  cases hreturned : returned? deeds with
  | none =>
    rw [account_of_pending hreturned] at h
    exact absurd h (not_ended_of_letOut deeds _ _)
  | some outcome =>
    rcases answers_account hreturned with ⟨-, haccount⟩ | ⟨status, -, -, haccount⟩
    · rw [haccount] at h ⊢
      have hlast : (Event.ended (.ok ()) trailers : Event Bytes) = .ended outcome (allTrailers deeds) := by
        simpa using h
      rw [Event.messages_answer, ← hlast]
      exact ⟨_, rfl⟩
    · rw [haccount] at h
      cases List.mem_singleton.1 h

namespace Service

open Session

theorem account_of_complete {service : Service} {call : Incoming} {now horizon : Nat} {events : List (Event Bytes)}
    (h : (service.dispatch call now).completeEvents? horizon = some events) :
    events = Deed.account (((service.dispatch call now).history horizon).map (·.2)) := by
  have haccount := (accounted_dispatch service call now).account_history horizon
  rw [completeEvents?] at h
  split at h
  · rename_i found hfound
    rw [hfound] at haccount
    cases h
    exact haccount
  · cases h

theorem events_of_good_end {service : Service} {call : Incoming} {now horizon : Nat} {events : List (Event Bytes)}
    {trailers : Metadata} (h : (service.dispatch call now).completeEvents? horizon = some events)
    (hend : .ended (.ok ()) trailers ∈ events) :
    ∃ headers, events =
      .headers headers :: (Event.messages events).map .message ++ [.ended (.ok ()) trailers] := by
  rw [account_of_complete h] at hend ⊢
  exact Deed.account_of_good_end hend

end Service

namespace Server

theorem collect_messages (headers : Metadata) (message : Bytes) (bodies : List Bytes) (events : List (Event Bytes)) :
    collect headers message (bodies.map .message ++ events) =
      collect headers (bodies.getLast?.getD message) events := by
  induction bodies generalizing message with
  | nil => rfl
  | cons body bodies ih =>
    rw [List.map_cons, List.cons_append, collect, ih, List.getLast?_cons]
    rfl

theorem drain_messages {bodies : List Bytes} (h : ∀ body ∈ bodies, body.length < lengthBound) (frames : List Frame) :
    bodies.map (Envelope.mk messageFlags) <+:
      (Decoder.drain ⟨.unlimited, (content ((bodies.map (wrap messageFlags)).map .data ++ frames)).1⟩).1 := by
  rw [content_data, ← List.flatMap_def, Decoder.drain_wraps rfl h]
  exact List.prefix_append _ _

section Response

variable {contentType : ContentType} (headers : Metadata) (bodies : List Bytes) (trailers : Metadata)

theorem streamingResponse_good_end :
    (streamingResponse contentType (.headers headers :: bodies.map .message ++ [.ended (.ok ()) trailers])).body =
      (bodies.map (wrap messageFlags)).map .data ++ [endFrame contentType.protocol (.ok (), trailers)] :=
  responseFrames_messages contentType.protocol bodies (.ok ()) trailers

theorem unaryResponse_good_end :
    (unaryResponse contentType (.headers headers :: bodies.map .message ++ [.ended (.ok ()) trailers])).status = 200 ∧
      (unaryResponse contentType (.headers headers :: bodies.map .message ++ [.ended (.ok ()) trailers])).body =
        [.data (bodies.getLast?.getD [])] := by
  rw [unaryResponse, List.cons_append, collect, collect_messages]
  exact ⟨rfl, rfl⟩

end Response

theorem respond?_of_complete {service : Service} {limit : Limit} {request : Request} {horizon : Nat}
    {contentType : ContentType} {call : Incoming} (hroute : route limit request = .call contentType call)
    {events : List (Event Bytes)} (hevents : (service.dispatch call 0).completeEvents? horizon = some events) :
    respond? service limit request horizon = some (response contentType events) := by
  rw [respond?_of_call service hroute, hevents]
  rfl

/-- The response to a call that ends well. In envelopes its body is all the messages, in order, and the end of the call,
and whoever reads it finds the messages first. Without envelopes its body is the last message, whatever there was before
it. -/
theorem respond?_of_good_end {service : Service} {limit : Limit} {request : Request} {horizon : Nat}
    {contentType : ContentType} {call : Incoming} (hroute : route limit request = .call contentType call)
    {events : List (Event Bytes)} (hevents : (service.dispatch call 0).completeEvents? horizon = some events)
    {trailers : Metadata} (hend : .ended (.ok ()) trailers ∈ events)
    (hlengths : ∀ body ∈ Event.messages events, body.length < lengthBound) :
    ∃ response, respond? service limit request horizon = some response ∧ response.status = 200 ∧
      (contentType.enveloped = true →
        response.body = ((Event.messages events).map (wrap messageFlags)).map .data ++
            [endFrame contentType.protocol (.ok (), trailers)] ∧
          (Event.messages events).map (Envelope.mk messageFlags) <+:
            (Decoder.drain ⟨.unlimited, (content response.body).1⟩).1) ∧
      (contentType.enveloped = false → response.body = [.data ((Event.messages events).getLast?.getD [])]) := by
  obtain ⟨headers, hanswer⟩ := Service.events_of_good_end hevents hend
  refine ⟨_, respond?_of_complete hroute hevents, ?_⟩
  generalize Event.messages events = bodies at hanswer hlengths ⊢
  rw [hanswer, response]
  cases henveloped : contentType.enveloped with
  | true =>
    have hbody := @streamingResponse_good_end contentType headers bodies trailers
    refine ⟨rfl, fun _ => ⟨hbody, ?_⟩, nofun⟩
    rw [if_pos rfl, hbody]
    exact drain_messages hlengths _
  | false =>
    obtain ⟨hstatus, hbody⟩ := @unaryResponse_good_end contentType headers bodies trailers
    exact ⟨hstatus, nofun, fun _ => hbody⟩

def twoSizes : Bytes := [0x12, 0x02, 0x08, 0x01, 0x12, 0x02, 0x08, 0x02]

def onePayload : Bytes := [0x0a, 0x03, 0x12, 0x01, 0x00]
def twoPayload : Bytes := [0x0a, 0x04, 0x12, 0x02, 0x00, 0x00]

def twoSizesCall : Incoming where
  path := Method.streamingOutputCall.path
  codec := .proto
  metadata := .empty
  timeout := none
  inbound := .ofItems [.ok twoSizes]

theorem completeEvents?_twoSizesCall (horizon : Nat) :
    (Reference.service.dispatch twoSizesCall 0).completeEvents? horizon =
      some [.headers .empty, .message onePayload, .message twoPayload, .ended (.ok ()) .empty] := by
  have hendpoint : Reference.service.endpoint twoSizesCall.path =
      ⟨StreamingOutputCallRequest, StreamingOutputCallResponse, Plan.handler Reference.streamingOutputCall⟩ :=
    Service.endpoint_path Reference.service .streamingOutputCall
  rw [Service.dispatch]
  generalize Reference.service.endpoint twoSizesCall.path = endpoint at hendpoint ⊢
  subst hendpoint
  let one : StreamingOutputCallResponse := { payload := some { body := [0] } }
  let two : StreamingOutputCallResponse := { payload := some { body := [0, 0] } }
  let opened : Sink := { codec := .proto, capacity := Service.outboundCapacity }
  let sent (queue : List (Event Bytes)) : Sink := { opened with headersSent := true, queue }
  let running (inbound : Inbound) (sink : Sink) (steps : List (Step StreamingOutputCallResponse)) :
      Session (Plan.handler Reference.streamingOutputCall) :=
    { context := { metadata := .empty }, bound := none, now := 0, inbound, sink, stage := .running (.going steps []) }
  let closed (stage : Stage (Plan.handler Reference.streamingOutputCall).State) (queue : List (Event Bytes)) :
      Session (Plan.handler Reference.streamingOutputCall) :=
    { running .gone (sent queue) [] with stage }
  have hreceive : (Session.start (Plan.handler Reference.streamingOutputCall) twoSizesCall.codec
      Service.outboundCapacity { metadata := twoSizesCall.metadata } none twoSizesCall.inbound 0).step =
      some (running { arrivals := [], closed := true } opened [.release, .send one, .send two]) := rfl
  have hrelease : (running { arrivals := [], closed := true } opened [.release, .send one, .send two]).step =
      some (running .gone opened [.send one, .send two]) := rfl
  have hflush : (running .gone opened [.send one, .send two]).step =
      some (running .gone (sent [.headers .empty]) [.send one, .send two]) := rfl
  have hsend {message : StreamingOutputCallResponse} {body : Bytes} (hbody : Message.write message = body)
      {queue : List (Event Bytes)} (hroom : queue.length < Service.outboundCapacity)
      (steps : List (Step StreamingOutputCallResponse)) :
      (running .gone (sent queue) (.send message :: steps)).step =
        some (running .gone (sent (queue ++ [.message body])) steps) := by
    simp [running, opened, sent, Session.step, Session.act, Plan.handler, Plan.act, Plan.stepAction,
      Sink.sendMessage, Codec.encode, hbody, Sink.push, hroom, Session.afterSink, Plan.Progress.unless]
  have hone : (running .gone (sent [.headers .empty]) [.send one, .send two]).step =
      some (running .gone (sent [.headers .empty, .message onePayload]) [.send two]) :=
    hsend (by decide +kernel) (by decide) _
  have htwo : (running .gone (sent [.headers .empty, .message onePayload]) [.send two]).step =
      some (running .gone (sent [.headers .empty, .message onePayload, .message twoPayload]) []) :=
    hsend (by decide +kernel) (by decide) _
  have hfinish : (running .gone (sent [.headers .empty, .message onePayload, .message twoPayload]) []).step =
      some (closed (.closing [.ended (.ok ()) .empty])
        [.headers .empty, .message onePayload, .message twoPayload]) := rfl
  let last := closed .over [.headers .empty, .message onePayload, .message twoPayload, .ended (.ok ()) .empty]
  have hlast : (closed (.closing [.ended (.ok ()) .empty])
      [.headers .empty, .message onePayload, .message twoPayload]).settle = last := by
    rw [Session.settle_of_step rfl, Session.settle_of_step rfl]
    exact Session.settle_of_over rfl
  have hsettle := (Session.settle_of_step hreceive).trans <| (Session.settle_of_step hrelease).trans <|
    (Session.settle_of_step hflush).trans <| (Session.settle_of_step hone).trans <|
      (Session.settle_of_step htwo).trans <| (Session.settle_of_step hfinish).trans hlast
  exact (Session.brings_of_settle hsettle rfl).2 horizon

def twoSizesRequest (contentType : ContentType) : Request where
  method := "POST"
  path := Method.streamingOutputCall.path
  headers := ⟨[(contentTypeField, [Bytes.ofString contentType.render])]⟩
  body := [.data (if contentType.enveloped then wrap messageFlags twoSizes else twoSizes)]

theorem route_twoSizesRequest (protocol : Protocol) (streaming : Bool) :
    route .standard (twoSizesRequest (.forCall protocol .proto streaming)) =
      .call (.forCall protocol .proto streaming) twoSizesCall := by
  have htimeout : Timeout.ofHeaders (twoSizesRequest (.forCall protocol .proto streaming)).headers protocol =
      .ok none := by
    cases protocol <;> rfl
  have hmetadata : Metadata.ofHeaders (twoSizesRequest (.forCall protocol .proto streaming)).headers = .empty := by
    cases protocol <;> cases streaming <;> decide +kernel
  rw [route_eq_call rfl rfl htimeout, hmetadata]
  have hinbound := @inbound_eq (ContentType.forCall protocol .proto streaming).enveloped .standard twoSizes rfl
    fun _ => by decide
  rw [twoSizesRequest, hinbound]
  rfl

/-- Over gRPC both messages are in the response. -/
theorem respond?_of_good_end_twoSizes :
    ∃ response, respond? Reference.service .standard (twoSizesRequest (.forCall .grpc .proto true)) 0 = some response ∧
      response.status = 200 ∧
      response.body = [.data (wrap messageFlags onePayload), .data (wrap messageFlags twoPayload),
        endFrame .grpc (.ok (), .empty)] := by
  have hend : (.ended (.ok ()) .empty : Event Bytes) ∈
      [.headers .empty, .message onePayload, .message twoPayload, .ended (.ok ()) .empty] := by simp
  obtain ⟨response, hrespond, hstatus, henveloped, -⟩ :=
    respond?_of_good_end (route_twoSizesRequest .grpc true) (completeEvents?_twoSizesCall 0) hend (by decide)
  exact ⟨response, hrespond, hstatus, (henveloped rfl).1⟩

/-- Over Connect without envelopes the call ends as well, and its first message is in no part of the response. -/
theorem bare_drops :
    route .standard (twoSizesRequest (.forCall .connect .proto false)) =
        .call (.forCall .connect .proto false) twoSizesCall ∧
      (Reference.service.dispatch twoSizesCall 0).completeEvents? 0 =
        some [.headers .empty, .message onePayload, .message twoPayload, .ended (.ok ()) .empty] ∧
      ∃ response, respond? Reference.service .standard (twoSizesRequest (.forCall .connect .proto false)) 0 =
          some response ∧
        response.status = 200 ∧ content response.body = (twoPayload, none) := by
  have hroute := route_twoSizesRequest .connect false
  have hevents := completeEvents?_twoSizesCall 0
  exact ⟨hroute, hevents, _, respond?_of_complete hroute hevents, rfl, rfl⟩

end Server
end RpcConformance
