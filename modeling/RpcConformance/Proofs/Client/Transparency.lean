import Mathlib.Data.List.Forall2
import RpcConformance.Proofs.Client.EndStream
import RpcConformance.Proofs.Client.Exchange
import RpcConformance.Proofs.Metadata.Marked
import RpcConformance.Proofs.Server.Response
import RpcConformance.Proofs.Session.Account
/-!
Over Connect streams and gRPC a caller gets from a response what the call had as its answer: the same
messages, the same outcome, and metadata with the same values (`alike_events`).
-/
namespace RpcConformance

open Http Envelope

/-- Events that tell the same: of metadata only the values under each key count. -/
inductive Event.Alike {α : Type} : Event α → Event α → Prop
  | headers {metadata other : Metadata} (h : metadata.SameValues other) :
    Alike (.headers metadata) (.headers other)
  | message (message : α) : Alike (.message message) (.message message)
  | ended (outcome : Outcome) {trailers other : Metadata} (h : trailers.SameValues other) :
    Alike (.ended outcome trailers) (.ended outcome other)

theorem Event.Alike.outcome_eq {α : Type} {event : Event α} {outcome other : Outcome} {trailers more : Metadata}
    (h : event.Alike (.ended outcome trailers)) (h' : event.Alike (.ended other more)) : outcome = other := by
  cases h
  cases h'
  rfl

/-- The answer of a dispatched call: headers, messages and an end, or the end of a failed call alone. -/
structure Answer (α : Type) where
  headers : Option Metadata
  messages : List α
  outcome : Outcome
  trailers : Metadata
  alone : headers = none → messages = [] ∧ outcome ≠ .ok ()

namespace Answer

variable {α β : Type}

def events (answer : Answer α) : List (Event α) :=
  (match answer.headers with
    | none => []
    | some headers => [.headers headers]) ++
  (answer.messages.map .message ++ [.ended answer.outcome answer.trailers])

def map (f : α → β) (answer : Answer α) : Answer β where
  headers := answer.headers
  messages := answer.messages.map f
  outcome := answer.outcome
  trailers := answer.trailers
  alone h := by rw [(answer.alone h).1]; exact ⟨rfl, (answer.alone h).2⟩

/-- An answer as a caller sees it: over Connect there are always headers, though perhaps empty ones. -/
def seen (protocol : Protocol) (answer : Answer α) : Answer α :=
  if protocol = .connect then
    { answer with headers := some (answer.headers.getD .empty), alone := fun h => nomatch h }
  else answer

def failing (status : Status) (answer : Answer α) : Answer α :=
  { answer with
    outcome := .error status, trailers := .empty, alone := fun h => ⟨(answer.alone h).1, nofun⟩ }

/-- The document at the end of a Connect stream fits an envelope. -/
def Fits (protocol : Protocol) (answer : Answer α) : Prop :=
  protocol = .connect →
    (Server.endStreamMessage (answer.outcome, answer.trailers)).render.length < lengthBound

/-- An answer of messages and their bytes that can be delivered: each message can be read from its bytes,
and these have a length that can be told; the metadata can travel, and the outcome can be told. -/
structure Deliverable {Res : Type} [Message Res] (codec : Codec) (answer : Answer (Res × Bytes)) : Prop where
  messages : ∀ pair ∈ answer.messages, codec.decode pair.2 = .ok pair.1
  lengths : ∀ body ∈ answer.messages.map Prod.snd, body.length < lengthBound
  headers : ∀ headers, answer.headers = some headers → headers.Portable
  outcome : Trailers.Tellable answer.outcome
  trailers : answer.trailers.Portable

theorem of_answers {deeds : List Deed} {outcome : Outcome} {whole : List (Event Bytes)}
    (h : Deed.Answers deeds outcome whole) :
    ∃ answer : Answer Bytes, answer.outcome = outcome ∧ answer.events = whole := by
  rcases h with ⟨_, rfl⟩ | ⟨status, rfl, _, rfl⟩
  · exact ⟨⟨some _, _, _, _, nofun⟩, rfl, rfl⟩
  · exact ⟨⟨none, [], .error status, _, fun _ => ⟨rfl, nofun⟩⟩, rfl, rfl⟩

end Answer

namespace Client.Exchange

open Server

variable {Res : Type}

/-- The event that the end of a response is read as. -/
def endRead (protocol : Protocol) (call : EndOfCall) : Event Res :=
  if protocol = .connect then endOfStream (covered (endStreamMessage call).render)
  else endOfTrailers (Trailers.ofEnd call.1 call.2)

/-- An end that fits is read with its outcome and the values of its trailers. -/
theorem alike_endRead {protocol : Protocol} {outcome : Outcome} {trailers : Metadata}
    (houtcome : Trailers.Tellable outcome) (htrailers : trailers.Portable)
    (hfits : protocol = .connect → (endStreamMessage (outcome, trailers)).render.length < lengthBound) :
    (endRead protocol (outcome, trailers) : Event Res).Alike (.ended outcome trailers) := by
  rw [endRead]
  by_cases hconnect : protocol = .connect
  · obtain ⟨ending, hparse, hending, hmetadata⟩ := EndStream.parse?_endStreamMessage outcome trailers
    rw [if_pos hconnect, covered_of_lt (hfits hconnect), endOfStream, hparse]
    simp only [hending, hmetadata]
    exact .ended outcome (EndStream.sameValues_metadataRead htrailers)
  · obtain ⟨read, hread, hsame⟩ := @endOfTrailers_ofEnd Res _ houtcome _ htrailers.sendable
    rw [if_neg hconnect, hread]
    exact .ended outcome hsame

/-- The end of a Connect stream whose document does not fit cannot be read. -/
theorem endRead_of_not_fits {call : EndOfCall} (h : lengthBound ≤ (endStreamMessage call).render.length) :
    (endRead .connect call : Event Res) = failed invalidEndStream := by
  obtain ⟨more, hmore, hcovered⟩ := covered_append_of_le h
  have hparse := Json.parse?_cut (EndStream.written_endStreamMessage call) hcovered hmore
  rw [endRead, if_pos rfl, endOfStream, EndStream.parse?, hparse]
  rfl

theorem alike_messages (messages : List Res) {ending last : Event Res} (h : ending.Alike last) :
    List.Forall₂ Event.Alike (messages.map .message ++ [ending]) (messages.map .message ++ [last]) := by
  induction messages with
  | nil => exact .cons h .nil
  | cons message messages ih => exact .cons (.message message) ih

variable [Message Res]

/-- A response over gRPC or gRPC-Web that is over with its headers is read as the end that they tell. -/
theorem events_of_early_end {protocol : Protocol} (hprotocol : protocol ≠ .connect) {codec : Codec}
    {contentType : String} {outcome : Outcome} (houtcome : Trailers.Tellable outcome) {trailers : Metadata}
    (htrailers : trailers.Sendable) {received : Http.Response}
    (h : Carried ⟨200, responseHeaders (Trailers.ofEnd outcome trailers) contentType .empty, [], none⟩ received) :
    ∃ trailers', trailers'.SameValues trailers ∧
      (events protocol codec received : List (Event Res)) = [.ended outcome trailers'] := by
  obtain ⟨hends, hread, hended⟩ := Trailers.ofEnd_spec houtcome htrailers
  obtain ⟨hdistinct, hvalues⟩ := responseHeaders_spec hends contentType Metadata.portable_empty.sendable
  have hsame : ∀ key, key ≠ contentTypeField →
      received.headers.getAll key = (Trailers.ofEnd outcome trailers).getAll key := fun key hkey => by
    rw [h.headers, hvalues key hkey]
    exact List.append_nil _
  have htold : endOfHeaders? protocol received.headers = some outcome := by
    rw [endOfHeaders?, if_neg hprotocol, ← hread]
    exact Trailers.readStatus?_congr (hsame _ (by decide)) (hsame _ (by decide))
  refine ⟨.ofHeaders received.headers, ?_, ?_⟩
  · refine Metadata.sameValues_ofHeaders htrailers (h.headers ▸ hdistinct) fun key hkey => ?_
    rw [hsame key (ne_contentTypeField hkey), hended key hkey]
  · have hstatus : ¬received.status ≠ 200 := fun hne => hne h.status
    rw [events, if_neg hstatus]
    simp only [htold]

theorem events_of_ended {codec : Codec} {contentType : String} {outcome : Outcome}
    (houtcome : Trailers.Tellable outcome) {trailers : Metadata} (htrailers : trailers.Portable)
    {received : Http.Response}
    (h : Carried ⟨200, responseHeaders (Trailers.ofEnd outcome trailers) contentType .empty, [], none⟩ received) :
    ∃ trailers', trailers'.SameValues trailers ∧
      (events .grpc codec received : List (Event Res)) = [.ended outcome trailers'] :=
  have hgrpc : Protocol.grpc ≠ .connect := by decide
  events_of_early_end hgrpc houtcome htrailers.sendable h

section Delivery

variable {protocol : Protocol} (hprotocol : protocol ≠ .grpcWeb) {codec : Codec} {sent : List (Res × Bytes)}
  (hdecode : ∀ pair ∈ sent, codec.decode pair.2 = .ok pair.1)
  (hlength : ∀ body ∈ sent.map Prod.snd, body.length < lengthBound)

include hprotocol hdecode hlength

/-- A body of messages and an end is read as those messages and that end. -/
theorem ofFrames_responseFrames (failure : Option String) {outcome : Outcome} {trailers : Metadata}
    {body : List Frame}
    (hbody : content body =
      content (responseFrames protocol ((sent.map Prod.snd).map .message ++ [.ended outcome trailers]))) :
    ofFrames protocol codec failure .start body =
      (sent.map Prod.fst).map .message ++ [endRead protocol (outcome, trailers)] := by
  rw [ofFrames_eq protocol codec failure rfl, hbody]
  cases protocol with
  | connect =>
    rw [content_connect]
    exact ofDrained_connect hdecode hlength failure _ none
  | grpc =>
    rw [content_grpc]
    exact ofDrained_grpc hdecode hlength failure _
  | grpcWeb => exact absurd rfl hprotocol

/-- A response with headers is read as those headers, its messages and its end. -/
theorem events_of_headers {contentType : String} {headers : Metadata} (hheaders : headers.Sendable)
    {outcome : Outcome} {trailers : Metadata} {received : Http.Response}
    (h : Carried ⟨200, responseHeaders .empty contentType headers,
      responseFrames protocol ((sent.map Prod.snd).map .message ++ [.ended outcome trailers]), none⟩ received) :
    ∃ headers', headers'.SameValues headers ∧ events protocol codec received =
      .headers headers' :: ((sent.map Prod.fst).map .message ++ [endRead protocol (outcome, trailers)]) := by
  have hopen : endOfHeaders? protocol (responseHeaders .empty contentType headers) = none := by
    rw [endOfHeaders?, readStatus?_responseHeaders contentType hheaders, ite_self]
  refine ⟨.ofHeaders received.headers, ?_, ?_⟩
  · rw [h.headers]
    exact sameValues_responseHeaders contentType hheaders
  · have hstatus : ¬received.status ≠ 200 := fun hne => hne h.status
    rw [events, if_neg hstatus, h.headers]
    simp only [hopen, h.failure]
    rw [ofFrames_responseFrames hprotocol hdecode hlength none h.content]

/-- A response with headers is read as the answer, or as the answer that fails where its end does not fit. -/
theorem alike_of_headers {contentType : String} {headers : Metadata} (hheaders : headers.Portable)
    {outcome : Outcome} (houtcome : Trailers.Tellable outcome) {trailers : Metadata}
    (htrailers : trailers.Portable) {received : Http.Response}
    (hcarried : Carried ⟨200, responseHeaders .empty contentType headers,
      responseFrames protocol ((sent.map Prod.snd).map .message ++ [.ended outcome trailers]), none⟩ received) :
    ((protocol = .connect → (endStreamMessage (outcome, trailers)).render.length < lengthBound) →
      List.Forall₂ Event.Alike (events protocol codec received)
        (.headers headers :: ((sent.map Prod.fst).map .message ++ [.ended outcome trailers]))) ∧
    (¬(protocol = .connect → (endStreamMessage (outcome, trailers)).render.length < lengthBound) →
      List.Forall₂ Event.Alike (events protocol codec received)
        (.headers headers :: ((sent.map Prod.fst).map .message ++ [failed invalidEndStream]))) := by
  obtain ⟨headers', hsame, hevents⟩ :=
    events_of_headers hprotocol hdecode hlength hheaders.sendable hcarried
  rw [hevents]
  constructor
  · intro hfits
    exact .cons (.headers hsame) (alike_messages _ (alike_endRead houtcome htrailers hfits))
  · intro hfits
    rw [Classical.not_imp, Nat.not_lt] at hfits
    obtain ⟨rfl, hlong⟩ := hfits
    rw [endRead_of_not_fits hlong]
    exact .cons (.headers hsame) (alike_messages _ (.ended _ fun _ => rfl))

end Delivery

/-- Over Connect streams and gRPC a caller gets the answer of a call as it is, however the body of the
response is cut on its way: the messages, the outcome, and under each key the values of the metadata. Only
a Connect stream whose last document does not fit its envelope is read as broken off at that place. -/
theorem alike_events {contentType : ContentType} (hprotocol : contentType.protocol ≠ .grpcWeb)
    {answer : Answer (Res × Bytes)} (hanswer : answer.Deliverable contentType.codec) {received : Http.Response}
    (hcarried : Carried (streamingResponse contentType (answer.map Prod.snd).events) received) :
    (answer.Fits contentType.protocol →
      List.Forall₂ Event.Alike (events contentType.protocol contentType.codec received)
        ((answer.map Prod.fst).seen contentType.protocol).events) ∧
    (¬answer.Fits contentType.protocol →
      List.Forall₂ Event.Alike (events contentType.protocol contentType.codec received)
        (((answer.map Prod.fst).seen contentType.protocol).failing invalidEndStream).events) := by
  obtain ⟨protocol, codec, enveloped⟩ := contentType
  obtain ⟨headers, sent, outcome, trailers, halone⟩ := answer
  obtain ⟨hdecode, hlength, hheaders, houtcome, htrailers⟩ := hanswer
  cases headers with
  | some headers =>
    have hread := alike_of_headers hprotocol hdecode hlength (hheaders headers rfl) houtcome htrailers hcarried
    cases protocol <;> exact hread
  | none =>
    obtain ⟨rfl, _⟩ := halone rfl
    cases protocol with
    | connect =>
      exact alike_of_headers hprotocol hdecode hlength Metadata.portable_empty houtcome htrailers hcarried
    | grpc =>
      obtain ⟨trailers', hsame, hevents⟩ : ∃ trailers', trailers'.SameValues trailers ∧
          (events .grpc codec received : List (Event Res)) = [.ended outcome trailers'] :=
        events_of_ended houtcome htrailers hcarried
      rw [hevents]
      exact ⟨fun _ => .cons (.ended outcome hsame) .nil, fun hfits => absurd nofun hfits⟩
    | grpcWeb => exact absurd rfl hprotocol

def faltering : Answer (Payload × Bytes) where
  headers := some (.single "a" (Bytes.ofString "é"))
  messages := [(⟨0, [7]⟩, [0x12, 0x01, 0x07])]
  outcome := .error (.internal "nö\n")
  trailers := .single "b-bin" [0, 255]
  alone := nofun

theorem deliverable_faltering : faltering.Deliverable .proto where
  messages := by
    intro pair hpair
    rw [List.mem_singleton.1 hpair]
    rfl
  lengths := by decide
  headers := by
    rintro _ ⟨⟩ entry hentry
    rw [List.mem_singleton.1 hentry]
    exact ⟨by decide +kernel, by decide +kernel, fun _ => by decide +kernel, fun _ => by decide +kernel⟩
  outcome := by
    rintro _ ⟨⟩
    decide
  trailers := by
    intro entry hentry
    rw [List.mem_singleton.1 hentry]
    exact ⟨by decide +kernel, by decide +kernel, by decide +kernel, by decide +kernel⟩

def falteringResponse : Http.Response :=
  let response := streamingResponse ⟨.connect, .proto, true⟩ (faltering.map Prod.snd).events
  { response with body := (content response.body).1.map fun b => .data [b] }

theorem alike_events_faltering :
    List.Forall₂ Event.Alike (events .connect .proto falteringResponse)
      [.headers (.single "a" (Bytes.ofString "é")), .message (⟨0, [7]⟩ : Payload),
        .ended (.error (.internal "nö\n")) (.single "b-bin" [0, 255])] := by
  have hcarried : Carried (streamingResponse ⟨.connect, .proto, true⟩ (faltering.map Prod.snd).events)
      falteringResponse := ⟨rfl, rfl, by decide +kernel, rfl⟩
  have hprotocol : Protocol.connect ≠ .grpcWeb := by decide
  have hfits : faltering.Fits .connect := fun _ => by decide +kernel
  exact (alike_events hprotocol deliverable_faltering hcarried).1 hfits

/-- A call that fails with a message of 2 ^ 32 characters. -/
def verbose : Answer (Empty × Bytes) where
  headers := none
  messages := []
  outcome := .error (.unknown (Metadata.repeated lengthBound))
  trailers := .empty
  alone := fun _ => ⟨rfl, nofun⟩

theorem deliverable_verbose : verbose.Deliverable .proto where
  messages := nofun
  lengths := nofun
  headers := nofun
  outcome := by
    rintro _ ⟨⟩
    decide
  trailers := Metadata.portable_empty

theorem not_fits_verbose : ¬verbose.Fits .connect := by
  intro hfits
  have hmessage := EndStream.length_message_le (.unknown (Metadata.repeated lengthBound)) .empty
  rw [Status.unknown, Metadata.ofString_repeated, List.length_replicate] at hmessage
  exact Nat.not_lt.2 hmessage (hfits rfl)

/-- Over a Connect stream its end is cut off, so the caller is told of another failure than the one that there was. -/
theorem verbose_cut :
    let received := streamingResponse ⟨.connect, .proto, true⟩ (verbose.map Prod.snd).events
    verbose.Deliverable .proto ∧ Carried received received ∧
      List.Forall₂ Event.Alike (events .connect .proto received : List (Event Empty))
        [.headers .empty, failed invalidEndStream] ∧
      ¬List.Forall₂ Event.Alike (events .connect .proto received) ((verbose.map Prod.fst).seen .connect).events := by
  intro received
  have hread := (@alike_of_headers Empty _ .connect nofun .proto [] nofun nofun _ _ Metadata.portable_empty _
    deliverable_verbose.outcome _ deliverable_verbose.trailers received (Carried.refl rfl)).2 not_fits_verbose
  refine ⟨deliverable_verbose, Carried.refl rfl, hread, fun hself => ?_⟩
  obtain ⟨first, rest, -, hrest, hfound⟩ := List.forall₂_cons_right_iff.1 hread
  obtain ⟨last, _, hfailed, -, rfl⟩ := List.forall₂_cons_right_iff.1 hrest
  rw [hfound] at hself
  have hended := (List.forall₂_cons.1 (List.forall₂_cons.1 hself).2).1
  have houtcome : (.error invalidEndStream : Outcome) = verbose.outcome := hfailed.outcome_eq hended
  cases houtcome

end Client.Exchange
end RpcConformance
