import RpcConformance.Service.Basic
/-!
The reference service: it answers with payloads of zeros of the sizes asked for, echoes two metadata
entries, and fails with the status a request asks for.
-/
namespace RpcConformance

/-- The payload of `size` zeros; only type 0 can be made. -/
def Payload.zeros (type size : Int32) : Except Status Payload :=
  if size < 0 then
    .error (.invalidArgument ("requested a response with negative size: " ++ toString size.toInt))
  else if type = 0 then .ok { type := 0, body := List.replicate size.toInt.toNat 0 }
  else .error (.unimplemented ("unsupported payload type: " ++ toString type.toInt))

namespace Reference

/-- The key whose first value is echoed among the headers. -/
def echoInitialKey : String := "x-grpc-test-echo-initial"

def echoTrailingKey : String := "x-grpc-test-echo-trailing-bin"

/-- The entry of a key that is echoed, if the request has one. -/
def echo (key : String) (metadata : Metadata) : Metadata :=
  match metadata.get? key with
  | some value => .single key value
  | none => .empty

/-- The status a request asks for, unless it asks for success. -/
def requested (status : Option EchoStatus) : Outcome :=
  match status with
  | some echo =>
    if echo.code = 0 then .ok ()
    else .error ⟨(Code.ofNumber? echo.code.toInt).getD .unknown, echo.message⟩
  | none => .ok ()

theorem requested_ok {status : Option EchoStatus} (h : ∀ echo, status = some echo → echo.code = 0) :
    requested status = .ok () := by
  cases status with
  | none => rfl
  | some echo => rw [requested, if_pos (h echo rfl)]

def emptyCall (_ : Context) (_ : Empty) : Except Status (Response Empty) := .ok (.of {})

def unaryCall (context : Context) (request : SimpleRequest) :
    Except Status (Response SimpleResponse) := do
  requested request.responseStatus
  let payload ← Payload.zeros request.responseType request.responseSize
  return { message := { payload := some payload }
           headers := echo echoInitialKey context.metadata
           trailers := echo echoTrailingKey context.metadata }

def failureMessage : String := "soirée 🎉"

def failUnaryCall (_ : Context) (_ : SimpleRequest) : Except Status (Response SimpleResponse) :=
  .error (.resourceExhausted failureMessage)

def unimplementedCall (_ : Context) (_ : Empty) : Except Status (Response Empty) :=
  .error (.unimplemented "grpc.testing.TestService.UnimplementedCall is not implemented")

def sendOne (type : Int32) (parameters : ResponseParameters) : List (Step StreamingOutputCallResponse) :=
  let wait :=
    if 0 < parameters.intervalMicros then
      [.sleep (.ofMicros parameters.intervalMicros.toInt.toNat)]
    else []
  match Payload.zeros type parameters.size with
  | .ok payload => wait ++ [.send { payload := some payload }]
  | .error status => wait ++ [.fail status]

def sendAll (request : StreamingOutputCallRequest) : List (Step StreamingOutputCallResponse) :=
  request.responseParameters.flatMap (sendOne request.responseType)

/-- The steps that answer one request of a stream: the status it asks for, or its responses. -/
def answer (request : StreamingOutputCallRequest) : List (Step StreamingOutputCallResponse) :=
  match requested request.responseStatus with
  | .ok () => sendAll request ++ [.check]
  | .error status => [.fail status]

/-- Echoes metadata at the start of a call with two streams. -/
def echoSteps (metadata : Metadata) :
    Plan StreamingOutputCallRequest StreamingOutputCallResponse :=
  [.step (.headers (echo echoInitialKey metadata)), .step (.trailers (echo echoTrailingKey metadata))]

def streamingOutputCall (_ : Context) : Plan StreamingOutputCallRequest StreamingOutputCallResponse :=
  [.request sendAll]

/-- The sum of the sizes of all payloads, in 32 bits. -/
def aggregate (requests : List StreamingInputCallRequest) : StreamingInputCallResponse :=
  let sizes := requests.map fun request => Payload.bodySize request.payload
  { aggregatedPayloadSize := .ofNat (sizes.foldr (· + ·) 0) }

def streamingInputCall (_ : Context) : Plan StreamingInputCallRequest StreamingInputCallResponse :=
  [.gather [] fun requests => Plan.respond (.of (aggregate requests))]

/-- Answers each request as it comes, and checks before each that the call may go on. -/
def fullDuplexCall (context : Context) :
    Plan StreamingOutputCallRequest StreamingOutputCallResponse :=
  echoSteps context.metadata ++
    [.step .check, .serve answer]

/-- Answers all requests once they are all there; statuses asked for do not count. -/
def halfDuplexCall (context : Context) :
    Plan StreamingOutputCallRequest StreamingOutputCallResponse :=
  echoSteps context.metadata ++
    [.gather [] fun requests => requests.flatMap fun request => .check :: sendAll request]

def service : Service
  | .emptyCall => Plan.handler (Plan.answering emptyCall)
  | .unaryCall => Plan.handler (Plan.answering unaryCall)
  | .failUnaryCall => Plan.handler (Plan.answering failUnaryCall)
  | .unimplementedCall => Plan.handler (Plan.answering unimplementedCall)
  | .streamingOutputCall => Plan.handler streamingOutputCall
  | .streamingInputCall => Plan.handler streamingInputCall
  | .fullDuplexCall => Plan.handler fullDuplexCall
  | .halfDuplexCall => Plan.handler halfDuplexCall

end Reference
end RpcConformance
