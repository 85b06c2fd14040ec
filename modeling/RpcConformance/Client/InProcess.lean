import RpcConformance.Client.Transport
import RpcConformance.Service.Basic
/-!
Calls of a service in the same process. Messages are still written and read, so such a call takes
the same decoding paths as one over a network.
-/
namespace RpcConformance.Client

/-- A service in the same process, and how messages to it are written. -/
structure InProcess where
  service : Service
  codec : Codec := .proto

/-- A session with what stands behind a path of a service, as a client with requests `Req` and
responses `Res` sees it. -/
structure Served (service : Service) (path : String) (Req Res : Type) where
  session : Session (service.endpoint path).handler

namespace Served

variable {service : Service} {path : String} {Req Res : Type}

/-- An event with its message read. -/
def readEvent [Message Res] (codec : Codec) : Event Bytes → Except Status (Event Res)
  | .headers metadata => .ok (.headers metadata)
  | .message bytes => (codec.decode bytes).map .message
  | .ended outcome trailers => .ok (.ended outcome trailers)

/-- Hands an event on; the call fails with a message that cannot be read. -/
def deliver [Message Res] (session : Session (service.endpoint path).handler) (event : Event Bytes) :
    Event Res × Served service path Req Res :=
  match readEvent session.sink.codec event with
  | .ok event => (event, ⟨session⟩)
  | .error status => (.ended (.error status) .empty, ⟨session.hangUp⟩)

def receive [Message Res] (served : Served service path Req Res) (time : Nat) :
    Received (Event Res) × Served service path Req Res :=
  match served.session.receive time with
  | (.event event, session) =>
    let (event, rest) := deliver session event
    (.event event, rest)
  | (.closed, session) => (.closed, ⟨session⟩)
  | (.blocked, session) => (.blocked, ⟨session⟩)

theorem size_hangUp {before session : Session (service.endpoint path).handler}
    (h : Session.SizeBelow session.size before.size) :
    Session.SizeBelow session.hangUp.size before.size := by
  simp only [Session.SizeBelow, Prod.lex_def] at *
  simp only [Session.size, Session.hangUp, Session.abandon, Session.stageWeight,
    Inbound.weight_gone, List.length_nil] at *
  omega

theorem size_deliver [Message Res] {before session : Session (service.endpoint path).handler}
    (h : Session.SizeBelow session.size before.size) (event : Event Bytes) :
    Session.SizeBelow (@deliver service path Req Res _ session event).2.session.size before.size := by
  unfold deliver
  split
  · exact h
  · exact size_hangUp h

theorem receive_shrinks [Message Res] {served rest : Served service path Req Res} {time : Nat}
    {event : Event Res} (h : served.receive time = (.event event, rest)) :
    Session.SizeBelow rest.session.size served.session.size := by
  unfold receive at h
  split at h
  · rename_i hreceive
    cases h
    exact size_deliver (Session.receive_shrinks hreceive) _
  · cases h
  · cases h

/-- Sends a request; one that cannot be written reaches the handler as its failure. -/
def send [Message Req] (served : Served service path Req Res) (request : Req) (time : Nat) :
    Sent × Served service path Req Res :=
  match served.session.send (served.session.sink.codec.encode request) time with
  | (sent, session) => (sent, ⟨session⟩)

instance [Message Req] [Message Res] : Link (Served service path Req Res) Req Res where
  now served := served.session.now
  send := send
  closeSend served := ⟨{ served.session with inbound := served.session.inbound.close }⟩
  reset served := ⟨served.session.hangUp⟩
  receive := receive
  advance served time := ⟨served.session.advance time⟩
  size served := served.session.size
  receive_shrinks := receive_shrinks

end Served

namespace InProcess

def start (transport : InProcess) (path : String) (Req Res : Type) (options : CallOptions)
    (now : Nat) : Served transport.service path Req Res :=
  ⟨transport.service.serve
    { path, codec := transport.codec, metadata := options.metadata, timeout := options.timeout
      inbound := .openEnd } now⟩

def unary (transport : InProcess) (path : String) {Req Res : Type} [Message Req] [Message Res]
    (request : Req) (options : CallOptions) (now limit : Nat) : Except Halt (Response Res) × Nat :=
  if Context.isTold options.timeout now then
    let call : Call (Served transport.service path Req Res) :=
      { link := transport.start path Req Res options now
        deadline := Context.deadlineAfter options.timeout now }
    let (result, call) := call.unary request limit
    (result, call.now)
  else (.error .panicked, now)

instance : Transport InProcess where
  codec transport := transport.codec
  Line transport := Served transport.service
  link _ _ _ _ := inferInstance
  connect transport path Req Res := transport.start path Req Res
  unary transport path _ _ := transport.unary path

end InProcess
end RpcConformance.Client
