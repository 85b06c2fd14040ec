import RpcConformance.Message.Basic
import RpcConformance.Wire.Field
/-!
The messages as runs of fields. Fields with their default value are not written; of a repeated
scalar the last counts, repeated sub-messages merge, and unknown fields are skipped.
-/
namespace RpcConformance

open Wire

/-- Merges the fields of a byte string into a message, one at a time. -/
def mergeFields {α : Type} (merge : α → Field → Option α) (depth : Nat) (message : α) (bs : Bytes) :
    Option α := do
  (← fields? depth bs).foldlM merge message

/-- Merges a sub-message into the one that is there, or into a new one. -/
def mergeInto {α : Type} [Inhabited α] (merge : α → Field → Option α) (depth : Nat) (old : Option α)
    (value : Value) : Option (Option α) := do
  some (← mergeFields merge depth (old.getD default) (← value.bytes?))

def subField {α : Type} (number : Nat) (write : α → Bytes) : Option α → Bytes
  | some message => delimitedField number (write message)
  | none => []

namespace Empty

def write (_ : Empty) : Bytes := []

def merge (message : Empty) (_ : Field) : Option Empty := some message

end Empty

namespace Payload

def write (message : Payload) : Bytes := int32Field 1 message.type ++ bytesField 2 message.body

def merge (message : Payload) (field : Field) : Option Payload :=
  match field.number with
  | 1 => field.value.int32?.map ({ message with type := · })
  | 2 => field.value.bytes?.map ({ message with body := · })
  | _ => some message

end Payload

namespace EchoStatus

def write (message : EchoStatus) : Bytes := int32Field 1 message.code ++ textField 2 message.message

def merge (message : EchoStatus) (field : Field) : Option EchoStatus :=
  match field.number with
  | 1 => field.value.int32?.map ({ message with code := · })
  | 2 => field.value.text?.map ({ message with message := · })
  | _ => some message

end EchoStatus

namespace SimpleRequest

def write (message : SimpleRequest) : Bytes :=
  int32Field 1 message.responseType ++ int32Field 2 message.responseSize ++
    subField 3 Payload.write message.payload ++ subField 7 EchoStatus.write message.responseStatus

def merge (message : SimpleRequest) (field : Field) : Option SimpleRequest :=
  match field.number with
  | 1 => field.value.int32?.map ({ message with responseType := · })
  | 2 => field.value.int32?.map ({ message with responseSize := · })
  | 3 => (mergeInto Payload.merge (maxDepth - 1) message.payload field.value).map
      ({ message with payload := · })
  | 7 => (mergeInto EchoStatus.merge (maxDepth - 1) message.responseStatus field.value).map
      ({ message with responseStatus := · })
  | _ => some message

end SimpleRequest

namespace SimpleResponse

def write (message : SimpleResponse) : Bytes := subField 1 Payload.write message.payload

def merge (message : SimpleResponse) (field : Field) : Option SimpleResponse :=
  match field.number with
  | 1 => (mergeInto Payload.merge (maxDepth - 1) message.payload field.value).map
      ({ message with payload := · })
  | _ => some message

end SimpleResponse

namespace StreamingInputCallRequest

def write (message : StreamingInputCallRequest) : Bytes := subField 1 Payload.write message.payload

def merge (message : StreamingInputCallRequest) (field : Field) : Option StreamingInputCallRequest :=
  match field.number with
  | 1 => (mergeInto Payload.merge (maxDepth - 1) message.payload field.value).map
      ({ message with payload := · })
  | _ => some message

end StreamingInputCallRequest

namespace StreamingInputCallResponse

def write (message : StreamingInputCallResponse) : Bytes := int32Field 1 message.aggregatedPayloadSize

def merge (message : StreamingInputCallResponse) (field : Field) : Option StreamingInputCallResponse :=
  match field.number with
  | 1 => field.value.int32?.map ({ message with aggregatedPayloadSize := · })
  | _ => some message

end StreamingInputCallResponse

namespace ResponseParameters

def write (message : ResponseParameters) : Bytes :=
  int32Field 1 message.size ++ int32Field 2 message.intervalMicros

def merge (message : ResponseParameters) (field : Field) : Option ResponseParameters :=
  match field.number with
  | 1 => field.value.int32?.map ({ message with size := · })
  | 2 => field.value.int32?.map ({ message with intervalMicros := · })
  | _ => some message

end ResponseParameters

namespace StreamingOutputCallRequest

def write (message : StreamingOutputCallRequest) : Bytes :=
  int32Field 1 message.responseType ++
    message.responseParameters.flatMap (fun parameters => delimitedField 2 parameters.write) ++
    subField 3 Payload.write message.payload ++ subField 7 EchoStatus.write message.responseStatus

def merge (message : StreamingOutputCallRequest) (field : Field) : Option StreamingOutputCallRequest :=
  match field.number with
  | 1 => field.value.int32?.map ({ message with responseType := · })
  | 2 => (mergeInto ResponseParameters.merge (maxDepth - 1) none field.value).map fun parameters =>
      { message with responseParameters := message.responseParameters ++ parameters.toList }
  | 3 => (mergeInto Payload.merge (maxDepth - 1) message.payload field.value).map
      ({ message with payload := · })
  | 7 => (mergeInto EchoStatus.merge (maxDepth - 1) message.responseStatus field.value).map
      ({ message with responseStatus := · })
  | _ => some message

end StreamingOutputCallRequest

namespace StreamingOutputCallResponse

def write (message : StreamingOutputCallResponse) : Bytes := subField 1 Payload.write message.payload

def merge (message : StreamingOutputCallResponse) (field : Field) :
    Option StreamingOutputCallResponse :=
  match field.number with
  | 1 => (mergeInto Payload.merge (maxDepth - 1) message.payload field.value).map
      ({ message with payload := · })
  | _ => some message

end StreamingOutputCallResponse

end RpcConformance
