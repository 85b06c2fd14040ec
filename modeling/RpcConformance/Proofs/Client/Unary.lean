import Mathlib.Data.List.Forall2
import RpcConformance.Client.Feed
import RpcConformance.Client.InProcess
import RpcConformance.Proofs.Session.Answering
/-!
A call with one request over a link that then gives headers, a message and a good end has them as its response
(`unary_of_gives`), and one over a link that gives a bad end fails so (`unary_of_fails`), whether the link carries
events that are known or runs the service itself. A call of a service in the same process is therefore the function
that the service answers with (`callMethod_answering`).
-/
namespace RpcConformance.Client

/-- A link whose next events are there to be received. -/
def Link.Gives {L Req Res : Type} [Link L Req Res] : L → List (Event Res) → Prop
  | _, [] => True
  | link, event :: events => ∃ rest, (∀ time, Link.receive link time = (.event event, rest)) ∧ Gives rest events

namespace Call

variable {L Req Res : Type} [Link L Req Res] {call : Call L} (houtcome : call.outcome = none)
  (hlistening : call.listening = true) {limit : Nat} {link : L}

section Listening

include houtcome hlistening

theorem listen_of_headers {metadata : Metadata}
    (h : Link.receive call.link (call.horizon limit) = (.event (.headers metadata), link)) :
    call.listen limit =
      { call with link, headers := some ((call.headers.getD .empty).extend metadata) }.listen limit := by
  conv => lhs; rw [listen]
  simp only [houtcome, hlistening, if_true]
  split <;> simp_all

theorem listen_of_message {message : Res}
    (h : Link.receive call.link (call.horizon limit) = (.event (.message message), link)) :
    call.listen limit = (.ok (some message), { call with link }) := by
  rw [listen]
  simp only [houtcome, hlistening, if_true]
  split <;> simp_all

theorem listen_of_ended {outcome : Outcome} {trailers : Metadata}
    (h : Link.receive call.link (call.horizon limit) = (.event (.ended outcome trailers), link)) :
    call.listen limit = (ending outcome, { call with link }.finish outcome trailers) := by
  rw [listen]
  simp only [houtcome, hlistening, if_true]
  split <;> simp_all

end Listening

theorem expire_of_endless (h : call.deadline = none) : call.expire = call := by
  rw [expire, h, Context.isExpired, Bool.and_false]
  rfl

theorem receive_of_endless (h : call.deadline = none) (limit : Nat) : call.receive limit = call.listen limit := by
  rw [receive, expire_of_endless h]

theorem horizon_of_endless (h : call.deadline = none) (limit : Nat) : call.horizon limit = limit := by
  rw [horizon, h]

section Unary

variable {opened taken : L} {request : Req} (hsend : ∀ time, Link.send opened request time = (.accepted, taken))

include hsend

/-- What becomes of a call over a link that takes the request depends on what the link gives then. -/
theorem unary_of_accepted (limit : Nat) :
    ({ link := opened } : Call L).unary request limit = ({ link := taken } : Call L).closeAndReceive limit := by
  have hsendOnly : ({ link := opened } : Call L).sendOnly request limit = (.ok (), { link := taken }) := by
    rw [sendOnly, send, expire_of_endless rfl]
    simp [failure?, hsend]
  rw [unary, hsendOnly]

/-- The response of a call over a link that takes the request and then gives headers, a message and a good
end. -/
theorem unary_of_gives {message : Res} {headers trailers : Metadata}
    (hgives : Link.Gives (Link.closeSend taken) [.headers headers, .message message, .ended (.ok ()) trailers])
    (limit : Nat) : (({ link := opened } : Call L).unary request limit).1 = .ok ⟨message, headers, trailers⟩ := by
  obtain ⟨afterHeaders, hheaders, afterMessage, hmessage, afterEnd, hend, -⟩ := hgives
  have hclosed : ({ link := taken } : Call L).closeSend = { link := Link.closeSend taken, sending := false } := rfl
  have hfirst : ({ link := Link.closeSend taken, sending := false } : Call L).receive limit =
      (.ok (some message), { link := afterMessage, sending := false, headers := some headers }) := by
    rw [receive_of_endless rfl, listen_of_headers rfl rfl (hheaders _), listen_of_message rfl rfl (hmessage _)]
    rfl
  have hsecond : ({ link := afterMessage, sending := false, headers := some headers } : Call L).receive limit =
      ((.ok none : Except Halt (Option Res)),
        { link := afterEnd, sending := false, headers := some headers, trailers := some trailers
          outcome := some (.ok ()) }) := by
    rw [receive_of_endless rfl, listen_of_ended rfl rfl (hend _)]
    rfl
  rw [unary_of_accepted hsend]
  simp only [closeAndReceive, hclosed, hfirst, hsecond]
  rfl

/-- A call over a link that takes the request and then gives nothing but a bad end fails as that end says. -/
theorem unary_of_fails {status : Status} {trailers : Metadata}
    (hgives : Link.Gives (Link.closeSend taken) [.ended (.error status) trailers]) (limit : Nat) :
    (({ link := opened } : Call L).unary request limit).1 = .error (.failed status) := by
  obtain ⟨afterEnd, hend, -⟩ := hgives
  have hclosed : ({ link := taken } : Call L).closeSend = { link := Link.closeSend taken, sending := false } := rfl
  rw [unary_of_accepted hsend, closeAndReceive, hclosed, receive_of_endless rfl, listen_of_ended rfl rfl (hend _)]
  rfl

end Unary

end Call

theorem Feed.gives {Req Res : Type} [Message Req] {feed : Feed Req Res} {events : List (Event Res)} {complete : Bool}
    (h : feed.source = .ready events complete) : Link.Gives feed events := by
  induction events generalizing feed with
  | nil => exact trivial
  | cons event events ih =>
    refine ⟨{ feed with source := .ready events complete }, fun time => ?_, ih rfl⟩
    show feed.receive time = _
    rw [Feed.receive, h]

namespace Served

variable {service : Service} {path : String} {Req Res : Type} [Message Req] [Message Res]

omit [Message Req] in
theorem deliver_of_read {codec : Codec} {session : Session (service.endpoint path).handler}
    (hcodec : session.sink.codec = codec) {event : Event Bytes} {event' : Event Res}
    (h : readEvent codec event = .ok event') :
    @deliver service path Req Res _ session event = (event', ⟨session⟩) := by
  rw [deliver, hcodec, h]

theorem gives {codec : Codec} {served : Served service path Req Res} {events : List (Event Bytes)}
    {read : List (Event Res)} (hgives : served.session.Gives codec events)
    (hread : List.Forall₂ (fun event event' => readEvent codec event = .ok event') events read) :
    Link.Gives served read := by
  induction hread generalizing served with
  | nil => exact trivial
  | @cons event event' events read hevent _ ih =>
    obtain ⟨rest, hreceive, hcodec, hrest⟩ := hgives
    refine ⟨⟨rest⟩, fun time => ?_, ih hrest⟩
    show served.receive time = _
    have hdeliver : @deliver service path Req Res _ rest event = (event', ⟨rest⟩) := deliver_of_read hcodec hevent
    rw [receive, hreceive]
    simp only [hdeliver]

end Served

/-- Whether a message is read from a format as it was written. -/
def Restores {α : Type} [Message α] (codec : Codec) (message : α) : Prop :=
  ∃ bytes, codec.encode message = .ok bytes ∧ codec.decode bytes = .ok message

/-- Whether a format restores a request and the message that answers it, if it is answered. -/
structure Conveys {Req Res : Type} [Message Req] [Message Res] (codec : Codec) (request : Req)
    (result : Except Status (Response Res)) : Prop where
  request : Restores codec request
  message : ∀ response, result = .ok response → Restores codec response.message

namespace InProcess

/-- A service in the same process takes a request. If there are no others, then the call is the one with just that
request. -/
theorem exists_taken (transport : InProcess) {path : String} {Req Res : Type} [Message Req] [Message Res] (request : Req)
    {options : CallOptions} {now : Nat} (htold : Context.isTold options.timeout now = true) :
    ∃ taken : Served transport.service path Req Res,
      (∀ time, Link.send (transport.start path Req Res options now) request time = (.accepted, taken)) ∧
        (Link.closeSend taken).session = transport.service.dispatch
          { path, codec := transport.codec, metadata := options.metadata, timeout := options.timeout
            inbound := .ofItems [transport.codec.encode request] } now := by
  let call : Incoming :=
    { path, codec := transport.codec, metadata := options.metadata, timeout := options.timeout, inbound := .openEnd }
  let taken : Served transport.service path Req Res :=
    ⟨{ transport.service.dispatch call now with
        inbound := { arrivals := [.item (transport.codec.encode request)], closed := false } }⟩
  have hopened : transport.start path Req Res options now = ⟨transport.service.dispatch call now⟩ :=
    congrArg Served.mk (Service.serve_of_told transport.service htold)
  refine ⟨taken, fun _ => ?_, rfl⟩
  rw [hopened]
  rfl

section Answering

variable {transport : InProcess} {path : String} {Req Res : Type} [Message Req] [Message Res]
  {answer : Context → Req → Except Status (Response Res)}
  (hendpoint : transport.service.endpoint path = ⟨Req, Res, Plan.handler (Plan.answering answer)⟩) {request : Req}
  {bytes : Bytes} {metadata : Metadata} (hbytes : transport.codec.encode request = .ok bytes)

include hbytes in
/-- A service in the same process takes the request, and then it gives what a call with just that request brings. -/
theorem gives_of_dispatch {now : Nat} {events : List (Event Bytes)} {read : List (Event Res)}
    (hgives : (transport.service.dispatch
      { path, codec := transport.codec, metadata, timeout := none, inbound := .ofItems [.ok bytes] } now).Gives
        transport.codec events)
    (hread : List.Forall₂ (fun event event' => Served.readEvent transport.codec event = .ok event') events read) :
    ∃ taken : Served transport.service path Req Res,
      (∀ time, Link.send (transport.start path Req Res { metadata } now) request time = (.accepted, taken)) ∧
        Link.Gives (Link.closeSend taken) read := by
  obtain ⟨taken, hsend, hclosed⟩ := @exists_taken transport path Req Res _ _ request { metadata } now rfl
  rw [hbytes] at hclosed
  exact ⟨taken, hsend, Served.gives (hclosed ▸ hgives) hread⟩

variable (hrequest : transport.codec.decode bytes = .ok request)

include hbytes hendpoint hrequest

/-- A service in the same process that answers the only request gives just that answer, if the request and the
message of the answer are read as they were written. -/
theorem unary_answering {response : Response Res} (hanswer : answer { metadata } request = .ok response) {body : Bytes}
    (hbody : transport.codec.encode response.message = .ok body)
    (hmessage : transport.codec.decode body = .ok response.message) (now limit : Nat) :
    (transport.unary path request { metadata } now limit).1 = .ok response := by
  let call : Incoming :=
    { path, codec := transport.codec, metadata, timeout := none, inbound := .ofItems [.ok bytes] }
  have hevents := (Service.dispatch_answering call hendpoint now rfl hrequest hanswer hbody).1
  have hread : List.Forall₂ (fun event event' => Served.readEvent transport.codec event = .ok event')
      [.headers response.headers, .message body, .ended (.ok ()) response.trailers]
      [.headers response.headers, .message response.message, .ended (.ok ()) response.trailers] :=
    .cons rfl (.cons (by rw [Served.readEvent, hmessage]; rfl) (.cons rfl .nil))
  obtain ⟨taken, hsend, hgives⟩ := gives_of_dispatch hbytes hevents hread
  exact Call.unary_of_gives hsend hgives limit

/-- A service in the same process that refuses the only request fails the call just so. -/
theorem unary_failing {status : Status} (hanswer : answer { metadata } request = .error status) (now limit : Nat) :
    (@unary transport path Req Res _ _ request { metadata } now limit).1 = .error (.failed status) := by
  let call : Incoming :=
    { path, codec := transport.codec, metadata, timeout := none, inbound := .ofItems [.ok bytes] }
  have hevents := (Service.dispatch_failing call hendpoint now rfl hrequest hanswer).1
  have hread : List.Forall₂ (fun event event' => Served.readEvent transport.codec event = .ok event')
      [.ended (.error status) .empty] ([.ended (.error status) .empty] : List (Event Res)) := .cons rfl .nil
  obtain ⟨taken, hsend, hgives⟩ := gives_of_dispatch hbytes hevents hread
  exact Call.unary_of_fails hsend hgives limit

end Answering

/-- A call of a method that is a function of its only request, to a service in the same process, has the result of that
function: the same message, headers and trailers, or the same status. In which format the two speak to each other does
not matter. -/
theorem callMethod_answering {service : Service} {method : Method}
    {answer : Context → method.Request → Except Status (Response method.Response)}
    (hservice : service method = Plan.handler (Plan.answering answer)) {request : method.Request} {metadata : Metadata}
    {codec : Codec} (h : Conveys codec request (answer { metadata } request)) (now limit : Nat) :
    (Transport.callMethod (InProcess.mk service codec) method request { metadata } now limit).1 =
        (answer { metadata } request).mapError .failed ∧
      ∀ other, Conveys other request (answer { metadata } request) →
        (Transport.callMethod (InProcess.mk service other) method request { metadata } now limit).1 =
          (Transport.callMethod (InProcess.mk service codec) method request { metadata } now limit).1 := by
  have hcall : ∀ codec, Conveys codec request (answer { metadata } request) →
      (Transport.callMethod (InProcess.mk service codec) method request { metadata } now limit).1 =
        (answer { metadata } request).mapError .failed := by
    intro codec h
    obtain ⟨bytes, hbytes, hread⟩ := h.request
    have hendpoint : service.endpoint method.path =
        ⟨method.Request, method.Response, Plan.handler (Plan.answering answer)⟩ := by
      rw [Service.endpoint_path, hservice]
    cases hanswer : answer { metadata } request with
    | ok response =>
      obtain ⟨body, hbody, hmessage⟩ := h.message response hanswer
      exact @unary_answering ⟨service, codec⟩ _ _ _ _ _ _ hendpoint _ _ _ hbytes hread _ hanswer _ hbody hmessage now
        limit
    | error status =>
      exact @unary_failing ⟨service, codec⟩ _ _ _ _ _ _ hendpoint _ _ _ hbytes hread _ hanswer now limit
  exact ⟨hcall codec h, fun other hother => (hcall other hother).trans (hcall codec h).symm⟩

/-- Answers a request with its payload and hands the metadata back, unless there is none. -/
def mirror (context : Context) (request : SimpleRequest) : Except Status (Response SimpleResponse) :=
  if context.metadata.isEmpty then .error ⟨.ok, "nothing to mirror"⟩
  else .ok ⟨{ payload := request.payload }, context.metadata, context.metadata.extend context.metadata⟩

def mirrors : Service
  | .unaryCall => Plan.handler (Plan.answering mirror)
  | .failUnaryCall => Plan.handler (Plan.answering mirror)
  | _ => .refuse ⟨.unimplemented, ""⟩

theorem callMethod_answering_mirrors :
    (Transport.callMethod (InProcess.mk mirrors .json) .unaryCall { payload := some { body := [0xff] } }
        { metadata := ⟨[("b", [0xff]), ("a", []), ("b", [0x0a])]⟩ } 5 0).1 =
      .ok ⟨{ payload := some { body := [0xff] } }, ⟨[("b", [0xff]), ("a", []), ("b", [0x0a])]⟩,
        ⟨[("b", [0xff]), ("a", []), ("b", [0x0a]), ("b", [0xff]), ("a", []), ("b", [0x0a])]⟩⟩ ∧
    (Transport.callMethod (InProcess.mk mirrors .proto) .failUnaryCall {} {} 5 0).1 =
      .error (.failed ⟨.ok, "nothing to mirror"⟩) := by
  have hanswered : Conveys .json ({ payload := some { body := [0xff] } } : SimpleRequest)
      (mirror { metadata := ⟨[("b", [0xff]), ("a", []), ("b", [0x0a])]⟩ } { payload := some { body := [0xff] } }) := by
    refine ⟨⟨_, rfl, by decide +kernel⟩, ?_⟩
    rintro response ⟨⟩
    exact ⟨_, rfl, by decide +kernel⟩
  have hrefused : Conveys .proto ({} : SimpleRequest) (mirror { metadata := .empty } {}) :=
    ⟨⟨_, rfl, by decide +kernel⟩, nofun⟩
  have hunary : mirrors .unaryCall = Plan.handler (Plan.answering mirror) := rfl
  have hfailUnary : mirrors .failUnaryCall = Plan.handler (Plan.answering mirror) := rfl
  exact ⟨(callMethod_answering hunary hanswered 5 0).1, (callMethod_answering hfailUnary hrefused 5 0).1⟩

end InProcess

end RpcConformance.Client
