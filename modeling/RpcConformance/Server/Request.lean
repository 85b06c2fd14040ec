import RpcConformance.Call.Inbound
import RpcConformance.Envelope.Decoder
import RpcConformance.Http.Message
/-!
The request messages in an HTTP body: the whole body is one message, or each envelope holds one. No
message beyond the limit is read either way.
-/
namespace RpcConformance.Server

open Http

def bodyFailed (reason : String) : Status := .unavailable ("reading request body failed: " ++ reason)

/-- The body as one message, after the bytes that are there already. -/
def wholeBody (limit : Limit) (read : Bytes) : List Part → List Arrival
  | [] => [.item (.ok read)]
  | .pause ticks :: parts => .pause ticks :: wholeBody limit read parts
  | .failed reason :: _ => [.item (.error (bodyFailed reason))]
  | .data bytes :: parts =>
    if limit.allows (read.length + bytes.length) then wholeBody limit (read ++ bytes) parts
    else [.item (.error limit.exceeded)]

def unexpectedFlags (flags : UInt8) : Status :=
  .internal ("unexpected request frame flags: " ++ Envelope.flagDigits flags)

/-- The messages in envelopes, up to one that is none, and whether there was such a one. -/
def messages : List Envelope → List Arrival × Bool
  | [] => ([], false)
  | envelope :: rest =>
    if envelope.flags = Envelope.messageFlags then
      let (items, stopped) := messages rest
      (.item (.ok envelope.payload) :: items, stopped)
    else if envelope.isEndStream then ([], true)
    else ([.item (.error (unexpectedFlags envelope.flags))], true)

def envelopedMessages (decoder : Envelope.Decoder) : List Part → List Arrival
  | [] =>
    match decoder.finish with
    | .ok () => []
    | .error error => [.item (.error error.status)]
  | .pause ticks :: parts => .pause ticks :: envelopedMessages decoder parts
  | .failed reason :: _ => [.item (.error (Envelope.Error.read reason).status)]
  | .data bytes :: parts =>
    let (envelopes, error, rest) := (decoder.push bytes).drain
    let (items, stopped) := messages envelopes
    items ++
      if stopped then []
      else
        match error with
        | some error => [.item (.error error.status)]
        | none => envelopedMessages rest parts

/-- The request side of a call whose messages come in a body. -/
def inbound (enveloped : Bool) (limit : Limit) (body : List Part) : Inbound :=
  { arrivals :=
      if enveloped then envelopedMessages (.start limit) body else wholeBody limit [] body
    closed := true }

end RpcConformance.Server
