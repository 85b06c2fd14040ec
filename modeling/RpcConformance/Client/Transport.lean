import RpcConformance.Client.Call
import RpcConformance.Client.Options
import RpcConformance.Method
/-!
Transports: ways to reach a test service. A transport opens links, over which calls run, and makes
calls with one request and one response.
-/
namespace RpcConformance.Client

class Transport (T : Type u) where
  /-- How messages are written. -/
  codec : T → Codec
  /-- What carries the calls of a path. -/
  Line : T → (path : String) → (Req Res : Type) → Type
  link : (transport : T) → (path : String) → (Req Res : Type) → [Message Req] → [Message Res] →
    Link (Line transport path Req Res) Req Res
  /-- Opens a call at a time. -/
  connect : (transport : T) → (path : String) → (Req Res : Type) → [Message Req] → [Message Res] →
    CallOptions → (now : Nat) → Line transport path Req Res
  /-- Makes a call with one request and one response, which starts at a time and may last up to a
  limit; the time it ends at comes with its result. -/
  unary : (transport : T) → (path : String) → (Req Res : Type) → [Message Req] → [Message Res] →
    Req → CallOptions → (now limit : Nat) → Except Halt (Response Res) × Nat

attribute [reducible, instance] Transport.link

namespace Transport

variable {T : Type u} [Transport T] {Req Res : Type} [Message Req] [Message Res]

abbrev Call (transport : T) (path : String) (Req Res : Type) : Type :=
  Client.Call (Line transport path Req Res)

/-- Opens a call whose deadline the clock can tell; over any other the caller panics. -/
def openCall (transport : T) (path : String) (Req Res : Type) [Message Req] [Message Res]
    (options : CallOptions) (now : Nat) : Transport.Call transport path Req Res :=
  { link := connect transport path Req Res options now
    deadline := Context.deadlineAfter options.timeout now }

def openMethod (transport : T) (method : Method) (options : CallOptions) (now : Nat) :
    Transport.Call transport method.path method.Request method.Response :=
  openCall transport method.path method.Request method.Response options now

def callMethod (transport : T) (method : Method) (request : method.Request) (options : CallOptions)
    (now limit : Nat) : Except Halt (Response method.Response) × Nat :=
  unary transport method.path method.Request method.Response request options now limit

/-- Opens a call with one request, which is sent, and no more requests. -/
def openServerStream (transport : T) (method : Method) (request : method.Request)
    (options : CallOptions) (now limit : Nat) :
    Except Halt Unit × Transport.Call transport method.path method.Request method.Response :=
  if Context.isTold options.timeout now then
    match (openMethod transport method options now).sendOnly request limit with
    | (.ok (), call) => (.ok (), call.closeSend)
    | failed => failed
  else (.error .panicked, openMethod transport method options now)

end Transport
end RpcConformance.Client
