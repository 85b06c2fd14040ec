import RpcConformance.Message.Basic
import RpcConformance.Json.Reader
import RpcConformance.Text.Base64
import RpcConformance.Text.Decimal
/-!
The messages as JSON objects. Fields with their default value are not written, and a payload type
other than 0 has no spelling. Names are read in both styles, unknown ones are skipped, a known one
may come once.
-/
namespace RpcConformance

namespace Json

/-- The member of a 32-bit number; zero is not written. -/
def int32Member (name : String) (n : Int32) : List (String × Json) :=
  if n = 0 then [] else [(name, .int n.toInt)]

def textMember (name s : String) : List (String × Json) := if s = "" then [] else [(name, .text s)]

/-- The member of a byte string, in padded base64; an empty one is not written. -/
def bytesMember (name : String) (bs : Bytes) : List (String × Json) :=
  if bs.isEmpty then [] else [(name, .string (Text.Base64.encode true bs))]

/-- The member of a payload type: the only one with a name is not written, as it is the default. -/
def typeMember (type : Int32) : Except String (List (String × Json)) :=
  if type = 0 then .ok [] else .error ("Invalid variant " ++ Text.Decimal.renderInt type.toInt)

def subMember {α : Type} (name : String) (toJson : α → Except String Json) :
    Option α → Except String (List (String × Json))
  | some message => (toJson message).map fun json => [(name, json)]
  | none => .ok []

/-- The integer a number spells, if it has neither a fraction nor an exponent and is not a negative
zero. -/
def wholeNumber? (spelling : Bytes) : Option Int :=
  match spelling with
  | 0x2d :: digits =>
    match natural? digits with
    | some (n + 1) => some (-(n + 1 : Nat))
    | _ => none
  | digits => (natural? digits).map Int.ofNat
where
  natural? (digits : Bytes) : Option Nat :=
    if digits.all Bytes.isDigit then some (digits.foldl (fun n d => n * 10 + (d - 0x30).toNat) 0)
    else none

/-- Reads a 32-bit number, written as a number or as a text. -/
def int32? : Json → Option Int32
  | .number spelling =>
    match wholeNumber? spelling with
    | some n => if -0x80000000 ≤ n ∧ n ≤ 0x7fffffff then some (Int32.ofInt n) else none
    | none => none
  | .string spelling =>
    (unescape? spelling).bind fun s => (Text.Decimal.int32 (Bytes.ofString s)).toOption
  | _ => none

def payloadType? : Json → Option Int32
  | .number spelling => if wholeNumber? spelling = some 0 then some 0 else none
  | .string spelling => if unescape? spelling = some "COMPRESSABLE" then some 0 else none
  | _ => none

/-- Reads a byte string in base64 of either alphabet. -/
def bytes? (json : Json) : Option Bytes :=
  json.string?.bind fun s =>
    (Text.Base64.decode? .standard (Bytes.ofString s)).or (Text.Base64.decode? .urlSafe (Bytes.ofString s))

/-- The members of an object whose keys all spell a text, with those texts. -/
def textMembers? : Json → Option (List (String × Json))
  | .object members => members.mapM fun (key, value) => (unescape? key).map (·, value)
  | _ => none

def named (name otherName : String) (members : List (String × Json)) : List Json :=
  members.filterMap fun (key, value) => if key = name ∨ key = otherName then some value else none

/-- Reads a field that may come once; without it the message has `absent`. -/
def single? {α : Type} (read : Json → Option α) (absent : α) : List Json → Option α
  | [] => some absent
  | [value] => read value
  | _ => none

/-- Reads a sub-message that may come once after any number of nulls, which stand for none. -/
def optional? {α : Type} (read : Json → Option α) : List Json → Option (Option α)
  | [] => some none
  | .null :: rest => optional? read rest
  | [value] => (read value).map some
  | _ => none

def items? {α : Type} (read : Json → Option α) : Json → Option (List α)
  | .array items => items.mapM read
  | _ => none

end Json

open Json

namespace Empty

def toJson (_ : Empty) : Except String Json := .ok (.ofMembers [])

def ofJson? (json : Json) : Option Empty := do
  let _ ← textMembers? json
  return {}

end Empty

namespace Payload

def toJson (message : Payload) : Except String Json := do
  return .ofMembers ((← typeMember message.type) ++ bytesMember "body" message.body)

def ofJson? (json : Json) : Option Payload := do
  let members ← textMembers? json
  let type ← single? payloadType? 0 (named "type" "type" members)
  let body ← single? bytes? [] (named "body" "body" members)
  return { type, body }

end Payload

namespace EchoStatus

def toJson (message : EchoStatus) : Except String Json :=
  .ok (.ofMembers (int32Member "code" message.code ++ textMember "message" message.message))

def ofJson? (json : Json) : Option EchoStatus := do
  let members ← textMembers? json
  let code ← single? int32? 0 (named "code" "code" members)
  let message ← single? string? "" (named "message" "message" members)
  return { code, message }

end EchoStatus

namespace SimpleRequest

def toJson (message : SimpleRequest) : Except String Json := do
  return .ofMembers ((← typeMember message.responseType) ++
    int32Member "responseSize" message.responseSize ++
    (← subMember "payload" Payload.toJson message.payload) ++
    (← subMember "responseStatus" EchoStatus.toJson message.responseStatus))

def ofJson? (json : Json) : Option SimpleRequest := do
  let members ← textMembers? json
  let responseType ← single? payloadType? 0 (named "responseType" "response_type" members)
  let responseSize ← single? int32? 0 (named "responseSize" "response_size" members)
  let payload ← optional? Payload.ofJson? (named "payload" "payload" members)
  let responseStatus ← optional? EchoStatus.ofJson? (named "responseStatus" "response_status" members)
  return { responseType, responseSize, payload, responseStatus }

end SimpleRequest

namespace SimpleResponse

def toJson (message : SimpleResponse) : Except String Json := do
  return .ofMembers (← subMember "payload" Payload.toJson message.payload)

def ofJson? (json : Json) : Option SimpleResponse := do
  let members ← textMembers? json
  let payload ← optional? Payload.ofJson? (named "payload" "payload" members)
  return { payload }

end SimpleResponse

namespace StreamingInputCallRequest

def toJson (message : StreamingInputCallRequest) : Except String Json := do
  return .ofMembers (← subMember "payload" Payload.toJson message.payload)

def ofJson? (json : Json) : Option StreamingInputCallRequest := do
  let members ← textMembers? json
  let payload ← optional? Payload.ofJson? (named "payload" "payload" members)
  return { payload }

end StreamingInputCallRequest

namespace StreamingInputCallResponse

def toJson (message : StreamingInputCallResponse) : Except String Json :=
  .ok (.ofMembers (int32Member "aggregatedPayloadSize" message.aggregatedPayloadSize))

def ofJson? (json : Json) : Option StreamingInputCallResponse := do
  let members ← textMembers? json
  let aggregatedPayloadSize ←
    single? int32? 0 (named "aggregatedPayloadSize" "aggregated_payload_size" members)
  return { aggregatedPayloadSize }

end StreamingInputCallResponse

namespace ResponseParameters

def toJson (message : ResponseParameters) : Except String Json :=
  .ok (.ofMembers (int32Member "size" message.size ++ int32Member "intervalUs" message.intervalMicros))

def ofJson? (json : Json) : Option ResponseParameters := do
  let members ← textMembers? json
  let size ← single? int32? 0 (named "size" "size" members)
  let intervalMicros ← single? int32? 0 (named "intervalUs" "interval_us" members)
  return { size, intervalMicros }

end ResponseParameters

namespace StreamingOutputCallRequest

def toJson (message : StreamingOutputCallRequest) : Except String Json := do
  let parameters ← message.responseParameters.mapM ResponseParameters.toJson
  return .ofMembers ((← typeMember message.responseType) ++
    (if parameters.isEmpty then [] else [("responseParameters", .array parameters)]) ++
    (← subMember "payload" Payload.toJson message.payload) ++
    (← subMember "responseStatus" EchoStatus.toJson message.responseStatus))

def ofJson? (json : Json) : Option StreamingOutputCallRequest := do
  let members ← textMembers? json
  let responseType ← single? payloadType? 0 (named "responseType" "response_type" members)
  let responseParameters ← single? (items? ResponseParameters.ofJson?) []
    (named "responseParameters" "response_parameters" members)
  let payload ← optional? Payload.ofJson? (named "payload" "payload" members)
  let responseStatus ← optional? EchoStatus.ofJson? (named "responseStatus" "response_status" members)
  return { responseType, responseParameters, payload, responseStatus }

end StreamingOutputCallRequest

namespace StreamingOutputCallResponse

def toJson (message : StreamingOutputCallResponse) : Except String Json := do
  return .ofMembers (← subMember "payload" Payload.toJson message.payload)

def ofJson? (json : Json) : Option StreamingOutputCallResponse := do
  let members ← textMembers? json
  let payload ← optional? Payload.ofJson? (named "payload" "payload" members)
  return { payload }

end StreamingOutputCallResponse

end RpcConformance
