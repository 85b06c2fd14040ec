import RpcConformance.Call.Event
import RpcConformance.Envelope.Basic
import RpcConformance.Http.Message
import RpcConformance.Metadata.Json
import RpcConformance.Protocol
import RpcConformance.Trailers
/-!
The HTTP response of a call, from its events. A unary Connect response holds its message bare and
its trailers among the headers; all others hold envelopes and report the end of the call as their
protocol does. A call that breaks off without an end is reported as failed.
-/
namespace RpcConformance.Server

open Http

/-- How a call ended, and the trailers that came with the end. -/
abbrev EndOfCall := Outcome × Metadata

/-- The end of a call that broke off. -/
def unfinished : EndOfCall := (.error (.internal "call ended without a status"), .empty)

def bareResponse (status : Nat) : Http.Response := { status, headers := .empty, body := [] }

def contentTypeField : String := "content-type"

/-- The headers of a response with the given content type and metadata; of metadata that cannot be
written, what comes before the first bad entry is. -/
def responseHeaders (headers : HeaderMap) (contentType : String) (metadata : Metadata) : HeaderMap :=
  (metadata.write (headers.insert contentTypeField (Bytes.ofString contentType))).1

/-- The parts of a unary response: headers, the last message, and the end. -/
def collect (headers : Metadata) (message : Bytes) : List (Event Bytes) → Metadata × Bytes × EndOfCall
  | [] => (headers, message, unfinished)
  | .headers metadata :: events => collect (headers.extend metadata) message events
  | .message bytes :: events => collect headers bytes events
  | .ended outcome trailers :: _ => (headers, message, (outcome, trailers))

def unaryResponse (contentType : ContentType) (events : List (Event Bytes)) : Http.Response :=
  let (headers, message, (outcome, trailers)) := collect .empty [] events
  let (status, mediaType, body) :=
    match outcome with
    | .ok () => (200, contentType.render, message)
    | .error failure => (failure.code.httpStatus, "application/json", failure.toBody.toJson.render)
  let fields := responseHeaders .empty mediaType headers
  { status, headers := (trailers.writeMarked fields Metadata.trailerMark).1, body := [.data body] }

def endStreamMessage (call : EndOfCall) : Json :=
  .ofMembers <|
    (match call.1 with
      | .ok () => []
      | .error status => [("error", status.toBody.toJson)]) ++
    if call.2.isEmpty then [] else [("metadata", call.2.toJson)]

def endFrame (protocol : Protocol) (call : EndOfCall) : Frame :=
  match protocol with
  | .connect => .data (Envelope.wrap Envelope.endStreamFlags (endStreamMessage call).render)
  | .grpc => .trailers (Trailers.ofEnd call.1 call.2)
  | .grpcWeb =>
    .data (Envelope.wrap Envelope.trailerFlags (Trailers.encodeBlock (Trailers.ofEnd call.1 call.2)))

def responseFrames (protocol : Protocol) : List (Event Bytes) → List Frame
  | [] => [endFrame protocol unfinished]
  | .headers _ :: events => responseFrames protocol events
  | .message bytes :: events =>
    .data (Envelope.wrap Envelope.messageFlags bytes) :: responseFrames protocol events
  | .ended outcome trailers :: _ => [endFrame protocol (outcome, trailers)]

/-- The response of a call that ended before it had headers. -/
def endedResponse (contentType : ContentType) (call : EndOfCall) : Http.Response :=
  match contentType.protocol with
  | .connect =>
    { status := 200, headers := responseHeaders .empty contentType.render .empty
      body := [endFrame .connect call] }
  | .grpc | .grpcWeb =>
    { status := 200
      headers := responseHeaders (Trailers.ofEnd call.1 call.2) contentType.render .empty, body := [] }

def streamingResponse (contentType : ContentType) : List (Event Bytes) → Http.Response
  | .headers metadata :: events =>
    { status := 200, headers := responseHeaders .empty contentType.render metadata
      body := responseFrames contentType.protocol events }
  | .ended outcome trailers :: _ => endedResponse contentType (outcome, trailers)
  | _ => endedResponse contentType unfinished

def response (contentType : ContentType) (events : List (Event Bytes)) : Http.Response :=
  if contentType.enveloped then streamingResponse contentType events
  else unaryResponse contentType events

end RpcConformance.Server
