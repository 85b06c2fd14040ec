import RpcConformance.Call.Event
import RpcConformance.Client.EndStream
import RpcConformance.Envelope.Decoder
import RpcConformance.Http.Message
import RpcConformance.Http.Reason
import RpcConformance.Message.Codec
import RpcConformance.Protocol
import RpcConformance.Trailers
/-!
The events in an HTTP response: either the end of the call alone, or headers, messages and the end.
A response tells its end in the manner of its protocol; one that does not is a failed call.
-/
namespace RpcConformance.Client

open Http

def requestFailed (reason : String) : Status := .unavailable ("request failed: " ++ reason)

def responseFailed (reason : String) : Status := .unavailable ("reading response failed: " ++ reason)

def httpFailure (status : Nat) : Status :=
  ⟨.ofHttpStatus status, "HTTP status " ++ renderStatus status⟩

namespace Exchange

/-- What a caller is told whose response has no end. -/
def unfinished : Status := .internal "response ended without a status"

/-- What a caller is told whose trailers do not say how the call ended. -/
def withoutStatus : Status := .internal "response trailers carry no grpc-status"

/-- What a caller is told about an envelope that has no place in a response. -/
def unexpectedFlags (flags : UInt8) : Status :=
  .internal ("unexpected response frame flags: " ++ Envelope.flagDigits flags)

/-- What a caller is told about the end of a Connect stream that cannot be read. -/
def invalidEndStream : Status := .internal "invalid end-of-stream message: malformed document"

variable {Res : Type}

def failed (status : Status) : Event Res := .ended (.error status) .empty

def endOfTrailers (headers : HeaderMap) : Event Res :=
  .ended ((Trailers.readStatus? headers).getD (.error withoutStatus)) (.ofHeaders headers)

def endOfStream (payload : Bytes) : Event Res :=
  match EndStream.parse? payload with
  | some ending => .ended ending.outcome ending.metadata
  | none => failed invalidEndStream

def endOfBlock (block : Bytes) : Event Res :=
  match Trailers.decodeBlock block with
  | .ok headers => endOfTrailers headers
  | .error status => failed status

variable [Message Res]

def ofEnvelope (protocol : Protocol) (codec : Codec) (envelope : Envelope) : Event Res :=
  if envelope.flags = Envelope.messageFlags then
    match codec.decode envelope.payload with
    | .ok message => .message message
    | .error status => failed status
  else if protocol = .connect ∧ envelope.flags = Envelope.endStreamFlags then
    endOfStream envelope.payload
  else if protocol = .grpcWeb ∧ envelope.flags = Envelope.trailerFlags then
    endOfBlock envelope.payload
  else failed (unexpectedFlags envelope.flags)

/-- The events of envelopes up to an end, and whether there was one. -/
def ofEnvelopes (protocol : Protocol) (codec : Codec) : List Envelope → List (Event Res) × Bool
  | [] => ([], false)
  | envelope :: rest =>
    match ofEnvelope protocol codec envelope with
    | .ended outcome trailers => ([.ended outcome trailers], true)
    | event =>
      let (events, ended) := ofEnvelopes protocol codec rest
      (event :: events, ended)

def endOfBody (decoder : Envelope.Decoder) (failure : Option String) : Event Res :=
  match failure, decoder.finish with
  | some reason, _ => failed (responseFailed reason)
  | none, .error error => failed error.status
  | none, .ok () => failed unfinished

def ofFrames (protocol : Protocol) (codec : Codec) (failure : Option String)
    (decoder : Envelope.Decoder) : List Frame → List (Event Res)
  | [] => [endOfBody decoder failure]
  | .trailers headers :: _ => [endOfTrailers headers]
  | .data bytes :: frames =>
    let (envelopes, error, rest) := (decoder.push bytes).drain
    let (events, ended) := ofEnvelopes protocol codec envelopes
    events ++
      if ended then []
      else
        match error with
        | some error => [failed error.status]
        | none => ofFrames protocol codec failure rest frames

/-- The end of a call that the headers of a response tell at once; Connect has no such response. -/
def endOfHeaders? (protocol : Protocol) (headers : HeaderMap) : Option Outcome :=
  if protocol = .connect then none else Trailers.readStatus? headers

def events (protocol : Protocol) (codec : Codec) (response : Http.Response) : List (Event Res) :=
  if response.status ≠ 200 then [failed (httpFailure response.status)]
  else
    match endOfHeaders? protocol response.headers with
    | some outcome => [.ended outcome (.ofHeaders response.headers)]
    | none =>
      .headers (.ofHeaders response.headers) ::
        ofFrames protocol codec response.failure .start response.body

end Exchange
end RpcConformance.Client
