import RpcConformance.Message.Binary
import RpcConformance.Message.Json
import RpcConformance.Protocol
import RpcConformance.Status.Basic
/-!
Messages in the format of a call. An empty body is the default message in both formats.
-/
namespace RpcConformance

class Message (α : Type) extends Inhabited α where
  write : α → Bytes
  merge : α → Wire.Field → Option α
  toJson : α → Except String Json
  ofJson? : Json → Option α

instance : Message Empty := ⟨Empty.write, Empty.merge, Empty.toJson, Empty.ofJson?⟩
instance : Message Payload := ⟨Payload.write, Payload.merge, Payload.toJson, Payload.ofJson?⟩
instance : Message EchoStatus := ⟨EchoStatus.write, EchoStatus.merge, EchoStatus.toJson, EchoStatus.ofJson?⟩
instance : Message SimpleRequest :=
  ⟨SimpleRequest.write, SimpleRequest.merge, SimpleRequest.toJson, SimpleRequest.ofJson?⟩
instance : Message SimpleResponse :=
  ⟨SimpleResponse.write, SimpleResponse.merge, SimpleResponse.toJson, SimpleResponse.ofJson?⟩
instance : Message StreamingInputCallRequest :=
  ⟨StreamingInputCallRequest.write, StreamingInputCallRequest.merge, StreamingInputCallRequest.toJson,
   StreamingInputCallRequest.ofJson?⟩
instance : Message StreamingInputCallResponse :=
  ⟨StreamingInputCallResponse.write, StreamingInputCallResponse.merge,
   StreamingInputCallResponse.toJson, StreamingInputCallResponse.ofJson?⟩
instance : Message ResponseParameters :=
  ⟨ResponseParameters.write, ResponseParameters.merge, ResponseParameters.toJson,
   ResponseParameters.ofJson?⟩
instance : Message StreamingOutputCallRequest :=
  ⟨StreamingOutputCallRequest.write, StreamingOutputCallRequest.merge,
   StreamingOutputCallRequest.toJson, StreamingOutputCallRequest.ofJson?⟩
instance : Message StreamingOutputCallResponse :=
  ⟨StreamingOutputCallResponse.write, StreamingOutputCallResponse.merge,
   StreamingOutputCallResponse.toJson, StreamingOutputCallResponse.ofJson?⟩

namespace Codec

def encode {α : Type} [Message α] (codec : Codec) (message : α) : Except Status Bytes :=
  match codec with
  | .proto => .ok (Message.write message)
  | .json =>
    match Message.toJson message with
    | .ok document => .ok document.render
    | .error reason => .error (.internal ("JSON encoding failed: " ++ reason))

def decode {α : Type} [Message α] (codec : Codec) (bytes : Bytes) : Except Status α :=
  match codec with
  | .proto =>
    match mergeFields Message.merge Wire.maxDepth default bytes with
    | some message => .ok message
    | none => .error (.invalidArgument "protobuf decoding failed: malformed message")
  | .json =>
    if bytes.isEmpty then .ok default
    else match (Json.parse? bytes).bind Message.ofJson? with
      | some message => .ok message
      | none => .error (.invalidArgument "JSON decoding failed: malformed message")

end Codec
end RpcConformance
