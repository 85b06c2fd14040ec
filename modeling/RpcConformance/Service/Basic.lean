import RpcConformance.Handler.Plan
import RpcConformance.Method
import RpcConformance.Session.Clock
/-!
A service has a handler for each method. Calling a path starts a session of its method's handler,
which the deadline bounds; a path without a method is refused. A call whose deadline the clock cannot
tell dies with its task (`serve`).
-/
namespace RpcConformance

abbrev Service := (method : Method) → Handler method.Request method.Response

/-- What stands behind a path: a handler and the messages it exchanges. -/
structure Endpoint where
  Request : Type
  Response : Type
  [request : Message Request]
  [response : Message Response]
  handler : Handler Request Response

attribute [instance] Endpoint.request Endpoint.response

structure Incoming where
  path : String
  codec : Codec
  metadata : Metadata
  timeout : Option Duration
  inbound : Inbound

namespace Service

def unknownPath (path : String) : Status := .unimplemented (path ++ " is not implemented")

def endpoint (service : Service) (path : String) : Endpoint :=
  match Method.ofPath? path with
  | some method => ⟨method.Request, method.Response, service method⟩
  | none => ⟨Empty, Empty, .refuse (unknownPath path)⟩

/-- How many events of a call may wait for the peer. -/
def outboundCapacity : Nat := 16

/-- Starts a call whose deadline the clock can tell. -/
def dispatch (service : Service) (call : Incoming) (now : Nat) :
    Session (service.endpoint call.path).handler :=
  let deadline := Context.deadlineAfter call.timeout now
  .start _ call.codec outboundCapacity { metadata := call.metadata, deadline } deadline call.inbound now

/-- Starts a call. Where the clock cannot tell the deadline, the task of the call panics before there is a
handler; a path without a method is refused before that. -/
def serve (service : Service) (call : Incoming) (now : Nat) :
    Session (service.endpoint call.path).handler :=
  if (Method.ofPath? call.path).isNone || Context.isTold call.timeout now then service.dispatch call now
  else (service.dispatch call now).abandon

theorem serve_of_told (service : Service) {call : Incoming} {now : Nat}
    (h : Context.isTold call.timeout now = true) : service.serve call now = service.dispatch call now := by
  rw [serve, h, Bool.or_true, if_pos rfl]

theorem serve_of_untold (service : Service) {call : Incoming} {now : Nat}
    (hpath : (Method.ofPath? call.path).isSome = true) (h : Context.isTold call.timeout now = false) :
    service.serve call now = (service.dispatch call now).abandon := by
  rw [serve, h, Bool.or_false, Option.isNone_eq_false_iff.2 hpath, if_neg Bool.false_ne_true]

end Service
end RpcConformance
