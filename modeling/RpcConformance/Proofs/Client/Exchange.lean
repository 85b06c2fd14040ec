import RpcConformance.Client.Exchange
import RpcConformance.Proofs.Envelope.Framing
import RpcConformance.Proofs.Http.Content
import RpcConformance.Proofs.Trailers
/-!
The events of a response do not depend on how its body is cut into frames: they follow from the bytes
of the body and its trailers (`ofFrames_eq`). A body of messages that ends as its protocol does brings
those messages and that end (`ofDrained_connect`, `ofDrained_grpc`).
-/
namespace RpcConformance.Client.Exchange

open Http Envelope

variable {Res : Type}

theorem endOfTrailers_ofEnd {outcome : Outcome} (houtcome : Trailers.Tellable outcome) {trailers : Metadata}
    (htrailers : trailers.Sendable) :
    ∃ read, (endOfTrailers (Trailers.ofEnd outcome trailers) : Event Res) = .ended outcome read ∧
      read.SameValues trailers := by
  obtain ⟨hdistinct, hread, hvalues⟩ := Trailers.ofEnd_spec houtcome htrailers
  refine ⟨_, ?_, Metadata.sameValues_ofHeaders htrailers hdistinct hvalues⟩
  rw [endOfTrailers, hread, Option.getD_some]

variable [Message Res]

theorem ofEnvelopes_append_of_ended {protocol : Protocol} {codec : Codec} {envelopes : List Envelope}
    {events : List (Event Res)} (h : ofEnvelopes protocol codec envelopes = (events, true))
    (more : List Envelope) : ofEnvelopes protocol codec (envelopes ++ more) = (events, true) := by
  induction envelopes generalizing events with
  | nil => cases h
  | cons envelope envelopes ih =>
    rw [List.cons_append]
    rw [ofEnvelopes] at h ⊢
    cases hevent : (ofEnvelope protocol codec envelope : Event Res) with
    | ended outcome trailers =>
      rw [hevent] at h
      exact h
    | headers metadata =>
      rw [hevent] at h
      obtain ⟨rfl, hended⟩ := Prod.mk.inj h
      simp only [ih (Prod.ext rfl hended)]
    | message message =>
      rw [hevent] at h
      obtain ⟨rfl, hended⟩ := Prod.mk.inj h
      simp only [ih (Prod.ext rfl hended)]

theorem ofEnvelopes_append_of_open {protocol : Protocol} {codec : Codec} {envelopes : List Envelope}
    {events : List (Event Res)} (h : ofEnvelopes protocol codec envelopes = (events, false))
    {more : List Envelope} {events' : List (Event Res)} {ended : Bool}
    (hmore : ofEnvelopes protocol codec more = (events', ended)) :
    ofEnvelopes protocol codec (envelopes ++ more) = (events ++ events', ended) := by
  induction envelopes generalizing events with
  | nil =>
    cases h
    exact hmore
  | cons envelope envelopes ih =>
    rw [List.cons_append]
    rw [ofEnvelopes] at h ⊢
    cases hevent : (ofEnvelope protocol codec envelope : Event Res) with
    | ended outcome trailers =>
      rw [hevent] at h
      cases h
    | headers metadata =>
      rw [hevent] at h
      obtain ⟨rfl, hopen⟩ := Prod.mk.inj h
      simp only [ih (Prod.ext rfl hopen)]
      rfl
    | message message =>
      rw [hevent] at h
      obtain ⟨rfl, hopen⟩ := Prod.mk.inj h
      simp only [ih (Prod.ext rfl hopen)]
      rfl

/-- The events of what was drained of a body, and of its end: trailers, or a failure if there is one. -/
def ofDrained (protocol : Protocol) (codec : Codec) (failure : Option String) (trailers : Option HeaderMap)
    (drained : List Envelope × Option Envelope.Error × Decoder) : List (Event Res) :=
  let (events, ended) := ofEnvelopes protocol codec drained.1
  events ++
    if ended then []
    else
      match drained.2.1 with
      | some error => [failed error.status]
      | none =>
        match trailers with
        | some headers => [endOfTrailers headers]
        | none => [endOfBody drained.2.2 failure]

/-- The events of a body follow from its bytes and its trailers, however it is cut into frames. -/
theorem ofFrames_eq (protocol : Protocol) (codec : Codec) (failure : Option String) {decoder : Decoder}
    (hdecoder : decoder.next = .ok none) (frames : List Frame) :
    (ofFrames protocol codec failure decoder frames : List (Event Res)) =
      ofDrained protocol codec failure (content frames).2 (decoder.push (content frames).1).drain := by
  induction frames generalizing decoder with
  | nil =>
    rw [content, Decoder.push_nil, Decoder.drain_of_none hdecoder]
    rfl
  | cons frame frames ih =>
    cases frame with
    | trailers headers =>
      rw [content, Decoder.push_nil, Decoder.drain_of_none hdecoder]
      rfl
    | data bytes =>
      obtain ⟨⟨envelopes, error, rest⟩, hdrain⟩ : ∃ drained, (decoder.push bytes).drain = drained := ⟨_, rfl⟩
      obtain ⟨⟨events, ended⟩, hevents⟩ : ∃ found : List (Event Res) × Bool,
          ofEnvelopes protocol codec envelopes = found := ⟨_, rfl⟩
      rw [ofFrames, content, hdrain]
      simp only [← Decoder.push_push, hevents]
      cases error with
      | some error =>
        rw [Decoder.drain_push_of_error hdrain]
        unfold ofDrained
        simp only [hevents]
      | none =>
        rw [Decoder.drain_push hdrain]
        cases ended with
        | true =>
          unfold ofDrained
          simp only [ofEnvelopes_append_of_ended hevents, if_true]
        | false =>
          rw [ih (Decoder.next_of_drain hdrain)]
          unfold ofDrained
          simp only [ofEnvelopes_append_of_open hevents rfl, List.append_assoc]
          rfl

theorem ofEnvelope_message (protocol : Protocol) {codec : Codec} {payload : Bytes} {message : Res}
    (h : codec.decode payload = .ok message) :
    ofEnvelope protocol codec ⟨messageFlags, payload⟩ = .message message := by
  rw [ofEnvelope, if_pos rfl]
  simp only [h]

theorem ofEnvelopes_messages (protocol : Protocol) {codec : Codec} {sent : List (Res × Bytes)}
    (h : ∀ pair ∈ sent, codec.decode pair.2 = .ok pair.1) :
    ofEnvelopes protocol codec ((sent.map Prod.snd).map (Envelope.mk messageFlags)) =
      ((sent.map Prod.fst).map .message, false) := by
  induction sent with
  | nil => rfl
  | cons pair sent ih =>
    have hhead := ofEnvelope_message protocol (h pair List.mem_cons_self)
    have htail := ih fun pair hmem => h pair (List.mem_cons_of_mem _ hmem)
    rw [List.map_cons, List.map_cons, ofEnvelopes, hhead]
    simp only [htail, List.map_cons]

theorem exists_ofDrained_wrap {protocol : Protocol} {codec : Codec} {payload : Bytes} {message : Res}
    (h : codec.decode (covered payload) = .ok message) (failure : Option String) (fields : Option HeaderMap)
    (rest : Bytes) :
    ∃ events, ofDrained protocol codec failure fields
        (Decoder.drain ⟨.unlimited, wrap messageFlags payload ++ rest⟩) = .message message :: events := by
  have hplain : isCompressed messageFlags = false := rfl
  have hnext := Decoder.next_wrap hplain (Limit.allows_unlimited (payload.length % lengthBound)) rest
  rw [Decoder.drain_of_some hnext]
  unfold ofDrained
  rw [ofEnvelopes, ofEnvelope_message protocol h]
  exact ⟨_, rfl⟩

theorem drain_empty : Decoder.drain ⟨.unlimited, []⟩ = ([], none, ⟨.unlimited, []⟩) :=
  Decoder.drain_of_none rfl

theorem ofEnvelopes_endOfStream (codec : Codec) (document : Bytes) (more : List Envelope) :
    (ofEnvelopes .connect codec (⟨endStreamFlags, document⟩ :: more) : List (Event Res) × Bool) =
      ([endOfStream document], true) := by
  have hlast : (ofEnvelope .connect codec ⟨endStreamFlags, document⟩ : Event Res) = endOfStream document := rfl
  rw [ofEnvelopes, hlast]
  rw [endOfStream]
  cases EndStream.parse? document <;> rfl

section Bodies

variable {codec : Codec} {sent : List (Res × Bytes)}
  (hdecode : ∀ pair ∈ sent, codec.decode pair.2 = .ok pair.1)
  (hlength : ∀ body ∈ sent.map Prod.snd, body.length < lengthBound)
  (failure : Option String)

include hdecode hlength

/-- Messages and the trailers after them are read as the messages and the end the trailers tell. -/
theorem ofDrained_grpc (headers : HeaderMap) :
    ofDrained .grpc codec failure (some headers)
        (Decoder.drain ⟨.unlimited, (sent.map Prod.snd).flatMap (wrap messageFlags) ++ []⟩) =
      (sent.map Prod.fst).map .message ++ [endOfTrailers headers] := by
  rw [Decoder.drain_wraps rfl hlength, drain_empty, List.append_nil]
  rw [ofDrained]
  rw [ofEnvelopes_messages .grpc hdecode]
  rfl

/-- Messages and the end of the stream after them are read as the messages and the end that the stream
tells, as far as the length of its document can be told. -/
theorem ofDrained_connect (document : Bytes) (trailers : Option HeaderMap) :
    ofDrained .connect codec failure trailers
        (Decoder.drain ⟨.unlimited, (sent.map Prod.snd).flatMap (wrap messageFlags) ++
          wrap endStreamFlags document⟩) =
      (sent.map Prod.fst).map .message ++ [endOfStream (covered document)] := by
  have hcompressed : isCompressed endStreamFlags = false := rfl
  have hnext := Decoder.next_wrap hcompressed (Limit.allows_unlimited (document.length % lengthBound)) []
  rw [List.append_nil, List.append_nil] at hnext
  rw [Decoder.drain_wraps rfl hlength, Decoder.drain_of_some hnext]
  unfold ofDrained
  simp only [ofEnvelopes_append_of_open (ofEnvelopes_messages .connect hdecode)
    (ofEnvelopes_endOfStream codec _ _), if_true, List.append_nil]

end Bodies

end RpcConformance.Client.Exchange
