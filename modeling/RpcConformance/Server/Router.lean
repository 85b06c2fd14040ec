import RpcConformance.Server.Request
import RpcConformance.Server.Response
import RpcConformance.Service.Basic
import RpcConformance.Session.Transcript
import RpcConformance.Timeout
/-!
A service over HTTP: any path takes posted requests, and the content type says in which protocol and
format the call is made.
-/
namespace RpcConformance.Server

open Http

/-- What a request is about: a response that is known at once, or a call in some content type. -/
inductive Routed
  | refused (response : Http.Response)
  | call (contentType : ContentType) (call : Incoming)

/-- The content type of a request, if it is one that calls are made in. -/
def contentType? (headers : HeaderMap) : Option ContentType := do
  ContentType.ofString? (← HeaderMap.asciiText? (← headers.get? contentTypeField))

def route (limit : Limit) (request : Request) : Routed :=
  if request.method ≠ "POST" then .refused (bareResponse 405)
  else
    match contentType? request.headers with
    | none => .refused (bareResponse 415)
    | some contentType =>
      match Timeout.ofHeaders request.headers contentType.protocol with
      | .error status => .refused (response contentType [.ended (.error status) .empty])
      | .ok timeout =>
        .call contentType
          { path := request.path, codec := contentType.codec
            metadata := .ofHeaders request.headers, timeout
            inbound := inbound contentType.enveloped limit request.body }

/-- The response of a service to a request, unless the call is still going on at `horizon`. -/
def respond? (service : Service) (limit : Limit) (request : Request) (horizon : Nat) :
    Option Http.Response :=
  match route limit request with
  | .refused response => some response
  | .call contentType call =>
    ((service.serve call 0).completeEvents? horizon).map (response contentType)

def network (service : Service) (limit : Limit) (horizon : Nat) : Network := fun _ head =>
  .ok fun body => respond? service limit { head with body } horizon

end RpcConformance.Server
