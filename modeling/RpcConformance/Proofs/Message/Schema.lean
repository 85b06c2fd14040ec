import RpcConformance.Proofs.Message.Codec
/-!
The messages of the test service by their types. Every message is read back from its binary form (`binary_roundTrip`);
it has a JSON form if and only if all payload types in it are known, and is then read back from that as well
(`json_roundTrip`).
-/
namespace RpcConformance

inductive MessageType
  | empty
  | payload
  | echoStatus
  | simpleRequest
  | simpleResponse
  | streamingInputCallRequest
  | streamingInputCallResponse
  | responseParameters
  | streamingOutputCallRequest
  | streamingOutputCallResponse
deriving DecidableEq, Repr

namespace MessageType

def Content : MessageType → Type
  | empty => Empty
  | payload => Payload
  | echoStatus => EchoStatus
  | simpleRequest => SimpleRequest
  | simpleResponse => SimpleResponse
  | streamingInputCallRequest => StreamingInputCallRequest
  | streamingInputCallResponse => StreamingInputCallResponse
  | responseParameters => ResponseParameters
  | streamingOutputCallRequest => StreamingOutputCallRequest
  | streamingOutputCallResponse => StreamingOutputCallResponse

instance : (type : MessageType) → Message type.Content
  | empty => inferInstanceAs (Message Empty)
  | payload => inferInstanceAs (Message Payload)
  | echoStatus => inferInstanceAs (Message EchoStatus)
  | simpleRequest => inferInstanceAs (Message SimpleRequest)
  | simpleResponse => inferInstanceAs (Message SimpleResponse)
  | streamingInputCallRequest => inferInstanceAs (Message StreamingInputCallRequest)
  | streamingInputCallResponse => inferInstanceAs (Message StreamingInputCallResponse)
  | responseParameters => inferInstanceAs (Message ResponseParameters)
  | streamingOutputCallRequest => inferInstanceAs (Message StreamingOutputCallRequest)
  | streamingOutputCallResponse => inferInstanceAs (Message StreamingOutputCallResponse)

def payloadTypes : (type : MessageType) → type.Content → List Int32
  | payload, (message : Payload) => [message.type]
  | simpleRequest, (message : SimpleRequest) => message.responseType :: typeOf message.payload
  | simpleResponse, (message : SimpleResponse) => typeOf message.payload
  | streamingInputCallRequest, (message : StreamingInputCallRequest) => typeOf message.payload
  | streamingOutputCallRequest, (message : StreamingOutputCallRequest) => message.responseType :: typeOf message.payload
  | streamingOutputCallResponse, (message : StreamingOutputCallResponse) => typeOf message.payload
  | empty, _ | echoStatus, _ | streamingInputCallResponse, _ | responseParameters, _ => []
where
  typeOf (payload : Option Payload) : List Int32 := (payload.map (·.type)).toList

theorem updates_write : (type : MessageType) → (message : type.Content) →
    Updates Message.merge (Message.write message) default message
  | empty, message => Empty.updates_write message
  | payload, message => Payload.updates_write message
  | echoStatus, message => EchoStatus.updates_write message
  | simpleRequest, message => SimpleRequest.updates_write message
  | simpleResponse, message => SimpleResponse.updates_write message
  | streamingInputCallRequest, message => StreamingInputCallRequest.updates_write message
  | streamingInputCallResponse, message => StreamingInputCallResponse.updates_write message
  | responseParameters, message => ResponseParameters.updates_write message
  | streamingOutputCallRequest, message => StreamingOutputCallRequest.updates_write message
  | streamingOutputCallResponse, message => StreamingOutputCallResponse.updates_write message

theorem forall_typeOf {payload : Option Payload} :
    (∀ t ∈ payloadTypes.typeOf payload, t = 0) ↔ ∀ sub, payload = some sub → sub.type = 0 := by
  cases payload <;> simp [payloadTypes.typeOf]

theorem exists_typeOf {payload : Option Payload} :
    (∃ t ∈ payloadTypes.typeOf payload, t ≠ 0) ↔ ∃ sub, payload = some sub ∧ sub.type ≠ 0 := by
  cases payload <;> simp [payloadTypes.typeOf]

theorem spelled : (type : MessageType) → (message : type.Content) → (∀ t ∈ type.payloadTypes message, t = 0) →
    Spelled Message.toJson Message.ofJson? message
  | empty, message, _ => Empty.spelled message
  | payload, _, h => Payload.spelled (h _ List.mem_cons_self)
  | echoStatus, message, _ => EchoStatus.spelled message
  | simpleRequest, _, h =>
    have ⟨htype, hpayload⟩ := List.forall_mem_cons.1 h
    SimpleRequest.spelled htype (forall_typeOf.1 hpayload)
  | simpleResponse, _, h => SimpleResponse.spelled (forall_typeOf.1 h)
  | streamingInputCallRequest, _, h => StreamingInputCallRequest.spelled (forall_typeOf.1 h)
  | streamingInputCallResponse, message, _ => StreamingInputCallResponse.spelled message
  | responseParameters, message, _ => ResponseParameters.spelled message
  | streamingOutputCallRequest, _, h =>
    have ⟨htype, hpayload⟩ := List.forall_mem_cons.1 h
    StreamingOutputCallRequest.spelled htype (forall_typeOf.1 hpayload)
  | streamingOutputCallResponse, _, h => StreamingOutputCallResponse.spelled (forall_typeOf.1 h)

/-- A message with a payload type that is not known has no JSON form. -/
theorem refused : (type : MessageType) → (message : type.Content) → (∃ t ∈ type.payloadTypes message, t ≠ 0) →
    ∃ reason, Message.toJson message = .error reason
  | payload, _, h => Payload.refused (by simpa [payloadTypes] using h)
  | simpleRequest, _, h => SimpleRequest.refused (by simpa [payloadTypes, exists_typeOf] using h)
  | simpleResponse, _, h => SimpleResponse.refused (exists_typeOf.1 h)
  | streamingInputCallRequest, _, h => StreamingInputCallRequest.refused (exists_typeOf.1 h)
  | streamingOutputCallRequest, _, h =>
    StreamingOutputCallRequest.refused (by simpa [payloadTypes, exists_typeOf] using h)
  | streamingOutputCallResponse, _, h => StreamingOutputCallResponse.refused (exists_typeOf.1 h)

/-- Every message of every type is read back from its binary form, as long as the length of that fits a word: no byte
string in memory is longer. -/
theorem binary_roundTrip (type : MessageType) (message : type.Content)
    (h : (Message.write message).length < Wire.wordBound) :
    (Codec.proto.encode message >>= Codec.proto.decode) = .ok message :=
  Codec.decode_write (updates_write type message) h

def awkwardRequest : streamingOutputCallRequest.Content :=
  StreamingOutputCallRequest.mk (-3) [{ size := 5, intervalMicros := -1 }, {}, { size := -2147483648 }] (some {})
    (some { code := -7, message := "soirée" })

theorem binary_roundTrip_awkward :
    (Message.write awkwardRequest).length < Wire.wordBound ∧
      (Codec.proto.encode awkwardRequest >>= Codec.proto.decode) = .ok awkwardRequest := by
  have hlength : (Message.write awkwardRequest).length < Wire.wordBound := by decide +kernel
  exact ⟨hlength, binary_roundTrip _ awkwardRequest hlength⟩

/-- A message is written as JSON if and only if all payload types in it are known, and refused as an internal error
otherwise; what is written is read back, and as the same message as the binary form. -/
theorem json_roundTrip (type : MessageType) (message : type.Content) :
    match Codec.json.encode message with
    | .ok bytes =>
      (∀ t ∈ type.payloadTypes message, t = 0) ∧ Codec.json.decode bytes = Except.ok message ∧
        ((Message.write message).length < Wire.wordBound →
          Codec.json.decode bytes = (Codec.proto.encode message >>= Codec.proto.decode (α := type.Content)))
    | .error status => (∃ t ∈ type.payloadTypes message, t ≠ 0) ∧ status.code = .internal := by
  by_cases htypes : ∀ t ∈ type.payloadTypes message, t = 0
  · obtain ⟨document, hencode, hdecode⟩ := (spelled type message htypes).decode
    rw [hencode]
    refine ⟨htypes, hdecode, fun h => ?_⟩
    show _ = Codec.proto.decode (Message.write message)
    rw [hdecode, Codec.decode_write (updates_write type message) h]
  · have hunknown : ∃ t ∈ type.payloadTypes message, t ≠ 0 := by simpa using htypes
    obtain ⟨reason, hreason⟩ := refused type message hunknown
    have hencode : Codec.json.encode message = .error (.internal ("JSON encoding failed: " ++ reason)) := by
      rw [Codec.encode, hreason]
    rw [hencode]
    exact ⟨hunknown, rfl⟩

end MessageType

end RpcConformance
