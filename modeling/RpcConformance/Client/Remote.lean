import RpcConformance.Client.Exchange
import RpcConformance.Client.Feed
import RpcConformance.Client.Transport
import RpcConformance.Http.Uri
import RpcConformance.Text.Quoted
import RpcConformance.Timeout
/-!
Calls over HTTP. A unary Connect call posts its message bare and has the whole response as its
answer; every other call posts envelopes and reads the events in the response (`Exchange.events`).
-/
namespace RpcConformance.Client

open Http

/-- A server under an address, and the protocol and format it is called in. -/
structure Remote where
  baseUrl : String
  protocol : Protocol
  codec : Codec
  network : Network

namespace Remote

/-- A server under an address; slashes at the end of the address do not count. -/
def ofUrl (url : String) (protocol : Protocol) (codec : Codec) (network : Network) : Remote :=
  { baseUrl := String.ofList (url.toList.reverse.dropWhile (· == '/')).reverse
    protocol, codec, network }

def inspect (remote : Remote) : String :=
  "HttpTransport \x7b base_url: " ++ Text.Quoted.encode remote.baseUrl ++ ", protocol: "
    ++ remote.protocol.label ++ ", codec: " ++ remote.codec.label ++ ", .. \x7d"

def invalidTarget : Status := .internal "invalid request: malformed target"

def relativeTarget : String := "client error (UserAbsoluteUriRequired)"

def protocolField : Protocol → String × String
  | .connect => ("connect-protocol-version", "1")
  | .grpc => ("te", "trailers")
  | .grpcWeb => ("x-grpc-web", "1")

def setField (headers : HeaderMap) (field : String × String) : HeaderMap :=
  headers.insert field.1 (Bytes.ofString field.2)

def controlFields (remote : Remote) (streaming : Bool) (timeout : Option Duration) : HeaderMap :=
  let contentType := ContentType.forCall remote.protocol remote.codec streaming
  ([("content-type", contentType.render), protocolField remote.protocol] ++
    (timeout.map (Timeout.field remote.protocol)).toList).foldl setField .empty

/-- Where a request goes, and what it begins with. -/
def head (remote : Remote) (path : String) (streaming : Bool) (options : CallOptions) :
    Except Status (Uri × Head) :=
  match Uri.parse? (remote.baseUrl ++ path) with
  | none => .error invalidTarget
  | some uri =>
    match options.metadata.write (remote.controlFields streaming options.timeout) with
    | (headers, .ok ()) => .ok (uri, { method := "POST", path := uri.path, headers })
    | (_, .error status) => .error status

def reach (remote : Remote) (uri : Uri) (head : Head) :
    Except String (List Part → Option Http.Response) :=
  if uri.scheme.isNone then .error relativeTarget else remote.network uri.authority head

def envelopes (messages : List (Except Status Bytes)) : Except Status (List Part) :=
  messages.mapM fun message => message.map fun bytes =>
    .data (Envelope.wrap Envelope.messageFlags bytes)

variable {Req Res : Type} [Message Req] [Message Res]

/-- The events that answer a request, and whether they are all. -/
def answer (remote : Remote) (respond : List Part → Option Http.Response)
    (messages : List (Except Status Bytes)) : List (Event Res) × Bool :=
  match envelopes messages with
  | .error status => ([Exchange.failed (requestFailed status.message)], true)
  | .ok body =>
    match respond body with
    | some response => (Exchange.events remote.protocol remote.codec response, true)
    | none => ([], false)

def source (remote : Remote) (path : String) (options : CallOptions) : Source Res :=
  match remote.head path true options with
  | .error status => .ready [Exchange.failed status] true
  | .ok (uri, head) =>
    match remote.reach uri head with
    | .error reason => .ready [Exchange.failed (requestFailed reason)] true
    | .ok respond => .reply [] (remote.answer respond)

def start (remote : Remote) (path : String) (Req Res : Type) [Message Res] (options : CallOptions)
    (now : Nat) : Feed Req Res :=
  { codec := remote.codec, now, source := remote.source path options }

def connectFailure (status : Nat) (body : Bytes) : Status :=
  match Status.Body.parse? body with
  | some error => .ofBody error (.ofHttpStatus status)
  | none => httpFailure status

def connectResult (codec : Codec) (response : Http.Response) : Except Status (Response Res) :=
  let body := response.body.flatMap fun
    | .data bytes => bytes
    | .trailers _ => []
  match response.failure with
  | some reason => .error (responseFailed reason)
  | none =>
    if response.status = 200 then
      (codec.decode body).map fun message =>
        { message, headers := .ofHeaders response.headers
          trailers := .ofMarkedHeaders response.headers Metadata.trailerMark }
    else .error (connectFailure response.status body)

/-- The response to a unary Connect call, unless there is none. -/
def connectUnary? (remote : Remote) (path : String) (request : Req) (options : CallOptions) :
    Except Status (Option (Response Res)) := do
  let body ← remote.codec.encode request
  let (uri, head) ← remote.head path false options
  match remote.reach uri head with
  | .error reason => .error (requestFailed reason)
  | .ok respond =>
    match respond [.data body] with
    | some response => (connectResult remote.codec response).map some
    | none => .ok none

def connectUnary (remote : Remote) (path : String) (request : Req) (options : CallOptions)
    (now limit : Nat) : Except Halt (Response Res) × Nat :=
  match remote.connectUnary? path request options with
  | .ok (some response) => (.ok response, now)
  | .error status => (.error (.failed status), now)
  | .ok none =>
    match Context.patience options.timeout now with
    | some time =>
      if time ≤ limit then (.error (.failed Context.expired), max now time)
      else (.error .blocked, max now limit)
    | none => (.error .blocked, max now limit)

def unary (remote : Remote) (path : String) (request : Req) (options : CallOptions)
    (now limit : Nat) : Except Halt (Response Res) × Nat :=
  match remote.protocol with
  | .connect => remote.connectUnary path request options now limit
  | .grpc | .grpcWeb =>
    if Context.isTold options.timeout now then
      let call : Call (Feed Req Res) :=
        { link := remote.start path Req Res options now
          deadline := Context.deadlineAfter options.timeout now }
      let (result, call) := call.unary request limit
      (result, call.now)
    else (.error .panicked, now)

section Streams

variable {remote : Remote} (hprotocol : remote.protocol ≠ .connect) (path : String) (request : Req)
  {options : CallOptions} {now : Nat} (limit : Nat)

include hprotocol

theorem unary_of_told (htold : Context.isTold options.timeout now = true) :
    ((remote.unary path request options now limit).1 : Except Halt (Response Res)) =
      (({ link := remote.start path Req Res options now
          deadline := Context.deadlineAfter options.timeout now } : Call (Feed Req Res)).unary request limit).1 := by
  rw [unary]
  split
  · exact absurd ‹_› hprotocol
  all_goals rw [if_pos htold]

theorem unary_of_untold (huntold : Context.isTold options.timeout now = false) :
    (remote.unary path request options now limit : Except Halt (Response Res) × Nat) = (.error .panicked, now) := by
  rw [unary]
  split
  · exact absurd ‹_› hprotocol
  all_goals rw [if_neg (Bool.eq_false_iff.1 huntold)]

end Streams

instance : Transport Remote where
  codec remote := remote.codec
  Line _ _ := Feed
  link _ _ _ _ := inferInstance
  connect remote path Req Res := remote.start path Req Res
  unary remote path _ _ := remote.unary path

end Remote
end RpcConformance.Client
