import RpcConformance.Scenario.Trial
import RpcConformance.Service.Reference
/-!
The conformance scenarios. Each drives one transport and checks a single behaviour that all servers
share; they have no state in common and may run in any order.
-/
namespace RpcConformance

open Client

/-- A named conformance check of what a transport reaches. -/
structure Scenario (T : Type u) where
  name : String
  run : T → Scenario.Trial Unit

namespace Scenario

def inspect {T : Type u} (scenario : Scenario T) : String :=
  record "Scenario" [("name", shown scenario.name)]

def largeRequestSize : Nat := 271828

def largeResponseSizes : List Nat := [0, 1, 65535, 65536, 314159]

def clientStreamSizes : List Nat := [27182, 8, 1828, 45904]

def aggregatedSize : Int32 := 74922

def serverStreamSizes : List Nat := [31415, 9, 2653, 58979]

def intervalMicros : Nat := 10000

/-- How long a half-duplex server has to stay quiet, in milliseconds. -/
def quietTicks : Nat := 50

def echoInitialValue : Bytes := Bytes.ofString "test_initial_metadata_value"

def echoTrailingValue : Bytes := [0x0a, 0x0b, 0x0a, 0x0b, 0x0a, 0x0b]

def testStatusMessage : String := "test status message"

def specialStatusMessage : String :=
  "\t\ntest with whitespace\r\nand Unicode BMP ☺ and non-BMP 😈\t\n"

def zeros (size : Nat) : Option Payload := some { body := List.replicate size 0 }

def outputOf (size : Nat) (intervalMicros : Nat := 0) : ResponseParameters :=
  { size := .ofNat size, intervalMicros := .ofNat intervalMicros }

def responseSize (response : StreamingOutputCallResponse) : Nat := Payload.bodySize response.payload

def echoOptions : CallOptions :=
  (({} : CallOptions).withEntry Reference.echoInitialKey echoInitialValue).withEntry
    Reference.echoTrailingKey echoTrailingValue

section

variable {L Req Res : Type} [Link L Req Res]

open Trial

def drainSizes [Link L Req StreamingOutputCallResponse] (what : String) (call : Call L) :
    Trial (List Nat × Call L) := do
  let (responses, call) ← drain what call
  return (responses.map responseSize, call)

def checkNextSize [Link L Req StreamingOutputCallResponse] (receiving what : String) (size : Nat)
    (call : Call L) : Trial (Call L) := do
  let (response, call) ← receive receiving call
  checkEq what (some size) (response.map responseSize)
  return call

end

section

variable {T : Type u} [Transport T] (transport : T)

open Trial

def emptyUnary : Trial Unit := do
  let response ← call transport .emptyCall {}
  let response ← expecting "EmptyCall" response
  checkEq "EmptyCall response" ({} : Empty) response.message

def largeUnary : Trial Unit :=
  largeResponseSizes.forM fun size => do
    let request : SimpleRequest := { responseSize := .ofNat size, payload := zeros largeRequestSize }
    let response ← expecting "UnaryCall" (← call transport .unaryCall request)
    checkEq "UnaryCall response size" size (Payload.bodySize response.message.payload)

def clientStreaming : Trial Unit := do
  let stream ← openCall transport .streamingInputCall
  let stream ← clientStreamSizes.foldlM (fun stream size =>
    send "StreamingInputCall send" stream { payload := zeros size }) stream
  let (result, _) ← perform stream.closeAndReceive
  let response ← expecting "StreamingInputCall response" result
  checkEq "aggregated payload size" aggregatedSize response.message.aggregatedPayloadSize

def outputStream (request : StreamingOutputCallRequest) :
    Trial (Transport.Call transport Method.streamingOutputCall.path StreamingOutputCallRequest
      StreamingOutputCallResponse) := do
  let now ← get
  let (opened, stream) ← perform fun limit =>
    Transport.openServerStream transport .streamingOutputCall request {} now limit
  expecting "StreamingOutputCall" opened
  return stream

def serverStreaming : Trial Unit := do
  let stream ← outputStream transport { responseParameters := serverStreamSizes.map (outputOf ·) }
  let (sizes, _) ← drainSizes "StreamingOutputCall receive" stream
  checkEq "response sizes" serverStreamSizes sizes

def serverStreamingIntervals : Trial Unit := do
  let parameters := List.replicate 4 (outputOf (clientStreamSizes.headD 0) intervalMicros)
  let started ← get
  let stream ← outputStream transport { responseParameters := parameters }
  let (sizes, _) ← drainSizes "StreamingOutputCall receive" stream
  checkEq "response count" 4 sizes.length
  let minimum := Duration.ofMicros (4 * intervalMicros)
  let elapsed := Duration.ofMillis ((← get) - started)
  if elapsed.nanos < minimum.nanos then
    mismatch "elapsed time" (">= " ++ minimum.render) elapsed

def pingPong : Trial Unit := do
  let stream ← openCall transport .fullDuplexCall
  let stream ← (clientStreamSizes.zip serverStreamSizes).foldlM (fun stream (asked, given) => do
    let stream ← send "FullDuplexCall send" stream
      { responseParameters := [outputOf given], payload := zeros asked }
    checkNextSize "FullDuplexCall receive" "response size" given stream) stream
  let (rest, _) ← drainSizes "FullDuplexCall end" stream.closeSend
  checkEq "responses after close" [] rest

/-- Responses begin only after the last request. -/
def halfDuplex : Trial Unit := do
  let stream ← openCall transport .halfDuplexCall
  let stream ← serverStreamSizes.foldlM (fun stream size =>
    send "HalfDuplexCall send" stream { responseParameters := [outputOf size] }) stream
  let stream ← quiet "response before close" (·.map responseSize) quietTicks stream
  let (sizes, _) ← drainSizes "HalfDuplexCall receive" stream.closeSend
  checkEq "response sizes" serverStreamSizes sizes

def emptyStream : Trial Unit := do
  let stream ← openCall transport .fullDuplexCall
  let (sizes, _) ← drainSizes "FullDuplexCall receive" stream.closeSend
  checkEq "responses" [] sizes

def timeoutOnSleepingServer : Trial Unit := do
  let options := ({} : CallOptions).withTimeout (.ofMillis 1)
  let stream ← openCall transport .fullDuplexCall options
  let request : StreamingOutputCallRequest :=
    { responseParameters := [outputOf (serverStreamSizes.headD 0) 1000000]
      payload := zeros (clientStreamSizes.headD 0) }
  let (sent, stream) ← perform (stream.send request)
  match sent with
  | .error status =>
    checkStatus "FullDuplexCall send" (.error status : Except Status Nat) .deadlineExceeded none
  | .ok () =>
    let (received, _) ← perform stream.receive
    checkStatus "FullDuplexCall receive" received .deadlineExceeded none

def cancelAfterBegin : Trial Unit := do
  let stream ← openCall transport .streamingInputCall
  let (result, _) ← perform stream.cancel.closeAndReceive
  checkStatus "StreamingInputCall after cancel"
    (result.map (·.message.aggregatedPayloadSize)) .canceled none

def cancelAfterFirstResponse : Trial Unit := do
  let stream ← openCall transport .fullDuplexCall
  let size := serverStreamSizes.headD 0
  let stream ← send "FullDuplexCall send" stream
    { responseParameters := [outputOf size], payload := zeros (clientStreamSizes.headD 0) }
  let stream ← checkNextSize "FullDuplexCall receive" "first response size" size stream
  let (received, _) ← perform stream.cancel.receive
  checkStatus "FullDuplexCall receive after cancel" (received.map (·.map responseSize)) .canceled none

def checkEchoes (what : String) (headers trailers : Option Metadata) : Trial Unit := do
  let first (metadata : Option Metadata) (key : String) : Option Bytes :=
    metadata.bind (·.get? key)
  checkEq (what ++ " initial metadata") (some echoInitialValue) (first headers Reference.echoInitialKey)
  checkEq (what ++ " trailing metadata") (some echoTrailingValue)
    (first trailers Reference.echoTrailingKey)

def customMetadata : Trial Unit := do
  let size := serverStreamSizes.headD 0
  let request : SimpleRequest :=
    { responseSize := .ofNat size, payload := zeros (clientStreamSizes.headD 0) }
  let response ← expecting "UnaryCall" (← call transport .unaryCall request echoOptions)
  checkEchoes "UnaryCall" response.headers response.trailers
  let stream ← openCall transport .fullDuplexCall echoOptions
  let stream ← send "FullDuplexCall send" stream { responseParameters := [outputOf size] }
  let (sizes, stream) ← drainSizes "FullDuplexCall receive" stream.closeSend
  checkEq "response sizes" [size] sizes
  checkEchoes "FullDuplexCall" stream.headers stream.trailers

/-- Checks that a status asked for comes back, from a unary call and from a stream. -/
def checkEchoedStatus (code : Code) (message : String) : Trial Unit := do
  let echo : EchoStatus := { code := .ofNat code.number, message }
  let request : SimpleRequest := { responseStatus := some echo }
  let response ← call transport .unaryCall request
  checkStatus "UnaryCall" (response.map (·.message)) code message
  let stream ← openCall transport .fullDuplexCall
  let stream ← send "FullDuplexCall send" stream { responseStatus := some echo }
  let (received, _) ← perform stream.closeSend.receive
  checkStatus "FullDuplexCall" received code message

/-- A status asked for comes back; code 0 is no failure. -/
def statusCodeAndMessage : Trial Unit := do
  checkEchoedStatus transport .unknown testStatusMessage
  let request : SimpleRequest :=
    { responseSize := 1, responseStatus := some { code := 0, message := testStatusMessage } }
  let _ ← expecting "UnaryCall with status code 0" (← call transport .unaryCall request)

def specialStatus : Trial Unit := checkEchoedStatus transport .unknown specialStatusMessage

def unimplementedMethod : Trial Unit := do
  let response ← call transport .unimplementedCall {}
  checkStatus "UnimplementedCall" (response.map (·.message)) .unimplemented none

def unimplementedService : Trial Unit := do
  let (result, now) := Transport.unary transport Method.undeclaredPath Empty Empty {} {} (← get)
    (← read).limit
  set now
  let response ← settle result
  checkStatus "UnimplementedService.UnimplementedCall" (response.map (·.message)) .unimplemented none

def failWithNonAsciiError : Trial Unit := do
  let response ← call transport .failUnaryCall {}
  checkStatus "FailUnaryCall" (response.map (·.message)) .resourceExhausted Reference.failureMessage

/-- Payloads that cannot be made are refused. JSON has no spelling for an unknown type. -/
def invalidPayloadRequest : Trial Unit := do
  let negative : SimpleRequest := { responseSize := -1 }
  let response ← call transport .unaryCall negative
  checkStatus "UnaryCall with negative size" (response.map (·.message)) .invalidArgument none
  if Transport.codec transport = .json then return
  let unknown : SimpleRequest := { responseType := 7, responseSize := 1 }
  let response ← call transport .unaryCall unknown
  checkStatus "UnaryCall with unknown payload type" (response.map (·.message)) .unimplemented none

end

def library (T : Type u) [Transport T] : List (Scenario T) :=
  [⟨"empty_unary", emptyUnary⟩,
   ⟨"large_unary", largeUnary⟩,
   ⟨"client_streaming", clientStreaming⟩,
   ⟨"server_streaming", serverStreaming⟩,
   ⟨"server_streaming_intervals", serverStreamingIntervals⟩,
   ⟨"ping_pong", pingPong⟩,
   ⟨"half_duplex", halfDuplex⟩,
   ⟨"empty_stream", emptyStream⟩,
   ⟨"timeout_on_sleeping_server", timeoutOnSleepingServer⟩,
   ⟨"cancel_after_begin", cancelAfterBegin⟩,
   ⟨"cancel_after_first_response", cancelAfterFirstResponse⟩,
   ⟨"custom_metadata", customMetadata⟩,
   ⟨"status_code_and_message", statusCodeAndMessage⟩,
   ⟨"special_status_message", specialStatus⟩,
   ⟨"unimplemented_method", unimplementedMethod⟩,
   ⟨"unimplemented_service", unimplementedService⟩,
   ⟨"fail_with_non_ascii_error", failWithNonAsciiError⟩,
   ⟨"invalid_payload_request", invalidPayloadRequest⟩]

end Scenario
end RpcConformance
