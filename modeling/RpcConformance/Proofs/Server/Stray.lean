import RpcConformance.Client.Exchange
import RpcConformance.Proofs.Server.Framing
import RpcConformance.Proofs.Server.Route
/-!
Envelopes that have no place in a request. The reader of a gRPC request is given the messages before the first of them,
and then an error, unless its flags have the bit that ends a Connect stream (`strayError?`): at such an envelope the
request ends as if nothing followed, though a client takes one in a response for an error (`reads_to_stray`).
-/
namespace RpcConformance

open Envelope Http

theorem ContentType.enveloped_of_ofString? {value : String} {contentType : ContentType}
    (h : ofString? value = some contentType) (hprotocol : contentType.protocol ≠ .connect) :
    contentType.enveloped = true := by
  obtain ⟨before, after, htable, -⟩ := List.lookup_eq_some_iff.1 h
  have hall : ∀ entry ∈ table, entry.2.protocol ≠ .connect → entry.2.enveloped = true := by decide
  exact hall (_, contentType) (htable ▸ List.mem_append_right _ List.mem_cons_self) hprotocol

namespace Server

/-- What the handler of a routed call reads is the body of the request, as its content type frames it. -/
theorem exists_of_route {limit : Limit} {request : Request} {contentType : ContentType} {call : Incoming}
    (h : route limit request = .call contentType call) :
    (∃ value, ContentType.ofString? value = some contentType) ∧
      call.inbound = inbound contentType.enveloped limit request.body := by
  unfold route at h
  split at h
  · cases h
  · split at h
    · cases h
    · rename_i found hfound
      obtain ⟨_, -, htype⟩ := Option.bind_eq_some_iff.1 hfound
      obtain ⟨value, -, hvalue⟩ := Option.bind_eq_some_iff.1 htype
      split at h <;> cases h
      exact ⟨⟨value, hvalue⟩, rfl⟩

def isStray (envelope : Envelope) : Bool := envelope.flags != messageFlags

def strayError? (envelope : Envelope) : Option Status :=
  if isCompressed envelope.flags then some Error.compressed.status
  else if envelope.isEndStream then none
  else some (unexpectedFlags envelope.flags)

theorem strayError?_eq_none_iff {envelope : Envelope} :
    strayError? envelope = none ↔ isCompressed envelope.flags = false ∧ envelope.isEndStream = true := by
  rw [strayError?]
  split <;> simp_all

/-- The messages before the first envelope that is none. -/
def leading (envelopes : List Envelope) : List Bytes := (envelopes.takeWhile (!isStray ·)).map (·.payload)

/-- The error at the first envelope that is no message, if there is such a one. -/
def firstError? (envelopes : List Envelope) : Option Status := (envelopes.find? isStray).bind strayError?

theorem isStray_of_compressed {envelope : Envelope} (h : isCompressed envelope.flags = true) :
    isStray envelope = true := by
  refine bne_iff_ne.2 fun hmessage => ?_
  rw [hmessage] at h
  cases h

theorem requests_toBytes {limit : Limit} {envelopes : List Envelope}
    (h : ∀ envelope ∈ envelopes, envelope.payload.length < lengthBound ∧ limit.allows envelope.payload.length = true) :
    requests (onePass limit (envelopes.flatMap toBytes)) =
      (leading envelopes).map .ok ++ (firstError? envelopes).toList.map .error := by
  induction envelopes with
  | nil => simp [onePass, requests, leading, firstError?]
  | cons envelope envelopes ih =>
    obtain ⟨⟨hlength, hlimit⟩, hrest⟩ := List.forall_mem_cons.1 h
    rw [List.flatMap_cons, toBytes]
    by_cases hcompressed : isCompressed envelope.flags = true
    · have hpass := onePass_of_next_error
        (Decoder.next_wrap_of_compressed hcompressed hlength hlimit (envelopes.flatMap toBytes))
      rw [hpass]
      simp [requests, leading, firstError?, isStray_of_compressed hcompressed, strayError?, hcompressed]
    · rw [Bool.not_eq_true] at hcompressed
      have hpass := onePass_of_next_some
        (Decoder.next_wrap_of_lt hcompressed hlength hlimit (envelopes.flatMap toBytes))
      rw [hpass, requests]
      by_cases hmessage : envelope.flags = messageFlags
      · rw [if_pos hmessage, ih hrest]
        simp [leading, firstError?, isStray, hmessage]
      · have hstray : isStray envelope = true := bne_iff_ne.2 hmessage
        rw [if_neg hmessage]
        by_cases hend : envelope.isEndStream = true <;>
          simp [leading, firstError?, hstray, strayError?, hcompressed, hend]

/-- What is read of a body in envelopes: the messages before the first that is none, an error if there is one at that
envelope, and that there is no more. -/
theorem readings_of_brings {limit : Limit} {parts : List Part} {envelopes : List Envelope}
    (hbrings : Brings parts (envelopes.flatMap toBytes))
    (h : ∀ envelope ∈ envelopes, envelope.payload.length < lengthBound ∧ limit.allows envelope.payload.length = true) :
    (inbound true limit parts).readings =
      (leading envelopes).map (.item <| .ok ·) ++ (firstError? envelopes).toList.map (.item <| .error ·) ++ [.ended] := by
  have hreadings : (inbound true limit parts).readings = (inbound true limit parts).items.map .item ++ [.ended] := rfl
  rw [hreadings, items_inbound_enveloped hbrings, requests_toBytes h, List.map_append, List.map_map, List.map_map]
  rfl

/-- A reader that is told no error. -/
def Unalarmed (readings : List Reading) : Prop := ∀ status, .item (.error status) ∉ readings

/-- A client takes an envelope of a gRPC response that is neither a message nor a block of trailers for an error. -/
theorem ofEnvelope_of_stray {Res : Type} [Message Res] {protocol : Protocol} (hprotocol : protocol ≠ .connect)
    (codec : Codec) {envelope : Envelope} (hstray : isStray envelope = true)
    (htrailers : protocol = .grpcWeb → envelope.flags ≠ trailerFlags) :
    Client.Exchange.ofEnvelope protocol codec envelope =
      (Client.Exchange.failed (Client.Exchange.unexpectedFlags envelope.flags) : Event Res) := by
  rw [Client.Exchange.ofEnvelope, if_neg (bne_iff_ne.1 hstray), if_neg fun h => hprotocol h.1,
    if_neg fun h => htrailers h.1 h.2]

/-- Of a gRPC or gRPC-Web request that consists of envelopes within the limit, its handler reads the messages before the
first envelope that is none. There it is told an error, exactly unless the envelope is not compressed and has the bit
that ends a Connect stream: then the request has ended, whatever follows. A client that finds the same envelope in a
response in the same protocol fails, if it is no block of trailers. -/
theorem reads_to_stray {limit : Limit} {request : Request} {contentType : ContentType} {call : Incoming}
    (hroute : route limit request = .call contentType call) (hprotocol : contentType.protocol ≠ .connect)
    {envelopes : List Envelope} (hbrings : Brings request.body (envelopes.flatMap toBytes))
    (hwithin : ∀ envelope ∈ envelopes,
      envelope.payload.length < lengthBound ∧ limit.allows envelope.payload.length = true) :
    call.inbound.readings = (leading envelopes).map (.item <| .ok ·) ++
        (firstError? envelopes).toList.map (.item <| .error ·) ++ [.ended] ∧
      (Unalarmed call.inbound.readings ↔ ∀ stray, envelopes.find? isStray = some stray →
        isCompressed stray.flags = false ∧ stray.isEndStream = true) ∧
      ∀ stray ∈ envelopes, isStray stray = true → (contentType.protocol = .grpcWeb → stray.flags ≠ trailerFlags) →
        ∀ (Res : Type) [Message Res] (codec : Codec), Client.Exchange.ofEnvelope contentType.protocol codec stray =
          (Client.Exchange.failed (Client.Exchange.unexpectedFlags stray.flags) : Event Res) := by
  obtain ⟨⟨_, hvalue⟩, hinbound⟩ := exists_of_route hroute
  have hreadings := readings_of_brings hbrings hwithin
  rw [ContentType.enveloped_of_ofString? hvalue hprotocol] at hinbound
  rw [← hinbound] at hreadings
  refine ⟨hreadings, ?_, fun stray _ hstray htrailers _ _ codec =>
    ofEnvelope_of_stray hprotocol codec hstray htrailers⟩
  rw [hreadings]
  have hnone : Unalarmed ((leading envelopes).map (.item <| .ok ·) ++
      (firstError? envelopes).toList.map (.item <| .error ·) ++ [.ended]) ↔ firstError? envelopes = none := by
    cases firstError? envelopes <;> simp [Unalarmed]
  rw [hnone, firstError?, Option.bind_eq_none_iff]
  simp only [strayError?_eq_none_iff]

def strayRequest (flags : UInt8) : Request where
  method := "POST"
  path := Method.streamingInputCall.path
  headers := ⟨[(contentTypeField, [Bytes.ofString "application/grpc"])]⟩
  body := [.data (wrap messageFlags [10, 3, 18, 1, 7] ++ wrap flags []), .data (wrap messageFlags [10, 3, 18, 1, 8])]

def strayEnvelopes (flags : UInt8) : List Envelope :=
  [⟨messageFlags, [10, 3, 18, 1, 7]⟩, ⟨flags, []⟩, ⟨messageFlags, [10, 3, 18, 1, 8]⟩]

theorem route_strayRequest (flags : UInt8) :
    route .standard (strayRequest flags) = .call ⟨.grpc, .proto, true⟩
      { path := Method.streamingInputCall.path, codec := .proto, metadata := .empty, timeout := none
        inbound := inbound true .standard (strayRequest flags).body } := by
  have hroute := @route_eq_call .standard (strayRequest flags) rfl .grpc .proto true rfl none rfl
  have hmetadata : Metadata.ofHeaders ⟨[(contentTypeField, [Bytes.ofString "application/grpc"])]⟩ = .empty := by
    decide +kernel
  have hheaders : Metadata.ofHeaders (strayRequest flags).headers = .empty := hmetadata
  rw [hroute, hheaders]
  rfl

theorem brings_strayRequest (flags : UInt8) :
    Brings (strayRequest flags).body ((strayEnvelopes flags).flatMap toBytes) :=
  .data _ (.data _ .nil)

/-- Flags that mean nothing are told as an error after the first message. -/
theorem reads_to_stray_unknown :
    ∃ call, route .standard (strayRequest 0x04) = .call ⟨.grpc, .proto, true⟩ call ∧
      call.inbound.readings =
        [.item (.ok [10, 3, 18, 1, 7]), .item (.error (.internal "unexpected request frame flags: 0x04")), .ended] := by
  have hwithin : ∀ envelope ∈ strayEnvelopes 0x04,
      envelope.payload.length < lengthBound ∧ Limit.standard.allows envelope.payload.length = true := by decide
  refine ⟨_, route_strayRequest 0x04, ?_⟩
  have hreadings := (reads_to_stray (route_strayRequest 0x04) (by decide) (brings_strayRequest 0x04) hwithin).1
  exact hreadings

/-- Of a gRPC request with an envelope that would end a Connect stream, the message after that envelope is not read, and
no error is told. A client fails on that envelope. -/
theorem stray_end_unnoticed :
    ∃ call, route .standard (strayRequest endStreamFlags) = .call ⟨.grpc, .proto, true⟩ call ∧
      Brings (strayRequest endStreamFlags).body ((strayEnvelopes endStreamFlags).flatMap toBytes) ∧
      (∀ envelope ∈ strayEnvelopes endStreamFlags,
        envelope.payload.length < lengthBound ∧ Limit.standard.allows envelope.payload.length = true) ∧
      call.inbound.readings = [.item (.ok [10, 3, 18, 1, 7]), .ended] ∧
      Client.Exchange.ofEnvelope .grpc .proto ⟨endStreamFlags, []⟩ =
        (Client.Exchange.failed (.internal "unexpected response frame flags: 0x02") : Event Empty) := by
  have hwithin : ∀ envelope ∈ strayEnvelopes endStreamFlags,
      envelope.payload.length < lengthBound ∧ Limit.standard.allows envelope.payload.length = true := by decide
  have hclient := @ofEnvelope_of_stray Empty _ .grpc (by decide) .proto ⟨endStreamFlags, []⟩ rfl (by decide)
  refine ⟨_, route_strayRequest endStreamFlags, brings_strayRequest endStreamFlags, hwithin, ?_, hclient⟩
  exact readings_of_brings (brings_strayRequest endStreamFlags) hwithin

end Server
end RpcConformance
