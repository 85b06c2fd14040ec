import RpcConformance.Call.Inbound
import RpcConformance.Call.Sink
import RpcConformance.Handler.Basic
/-!
A call in progress on the server: its handler between the requests that arrive and the events it
queues for the peer, on a clock of milliseconds. `step` does the next thing that can happen at this
instant; the deadline strikes only when nothing else can.
-/
namespace RpcConformance

inductive Stage (σ : Type)
  /-- It acts or waits for what its next action needs. -/
  | running (state : σ)
  /-- It sleeps. -/
  | asleep (wakes : Nat) (state : σ)
  /-- It is done, and these events are still to be queued. -/
  | closing (left : List (Event Bytes))
  /-- Nothing more will come. -/
  | over

structure Session {Req Res : Type} (handler : Handler Req Res) where
  context : Context
  /-- When the handler is stopped. -/
  bound : Option Nat
  now : Nat
  inbound : Inbound
  sink : Sink
  stage : Stage handler.State

namespace Session

variable {Req Res : Type} {handler : Handler Req Res}

def start (handler : Handler Req Res) (codec : Codec) (capacity : Nat) (context : Context)
    (bound : Option Nat) (inbound : Inbound) (now : Nat) : Session handler :=
  { context, bound, now, inbound, sink := { codec, capacity },
    stage := .running (handler.start context) }

def finish (session : Session handler) (outcome : Outcome) : Session handler :=
  { session with inbound := .gone, stage := .closing (session.sink.remaining outcome) }

/-- The call ends without a word. -/
def abandon (session : Session handler) : Session handler :=
  { session with inbound := .gone, stage := .over }

def goOn (session : Session handler) (state : handler.State) : Session handler :=
  { session with stage := .running state }

/-- The handler goes on as the result of putting something into the sink says, once there is one. -/
def afterSink (session : Session handler) (next : Outcome → handler.State) :
    Option (Outcome × Sink) → Option (Session handler)
  | some (outcome, sink) => some { session with sink, stage := .running (next outcome) }
  | none => none

def expire (session : Session handler) : Option (Session handler) :=
  if Context.isExpired session.bound session.now then
    some (session.finish (.error Context.expired))
  else none

variable [Message Req] [Message Res]

def decoded (codec : Codec) (item : Except Status Bytes) : Except Status (Option Req) :=
  item.bind fun bytes => (codec.decode bytes).map some

/-- What the handler does by its next action, if that is possible now. -/
def act (session : Session handler) : Action handler.State Req Res → Option (Session handler)
  | .finish outcome => some (session.finish outcome)
  | .panic => some session.abandon
  | .hang => none
  | .sleep span next => some { session with stage := .asleep (session.now + span.ticks) next }
  | .headers metadata next =>
    some { session with
      sink := { session.sink with headers := session.sink.headers.extend metadata }
      stage := .running next }
  | .trailers metadata next =>
    some { session with
      sink := { session.sink with trailers := session.sink.trailers.extend metadata }
      stage := .running next }
  | .flush next => session.afterSink next session.sink.flush
  | .send message next =>
    if session.sink.headersSent then session.afterSink next (session.sink.sendMessage message)
    else
      match session.sink.flush with
      | some (.ok (), sink) => some { session with sink }
      | other => session.afterSink next other
  | .receive next =>
    match session.inbound.poll session.now with
    | .item item inbound =>
      some { session with inbound, stage := .running (next (decoded session.sink.codec item)) }
    | .ended inbound => some { session with inbound, stage := .running (next (.ok none)) }
    | .begun inbound => some { session with inbound }
    | .waiting => none
  | .check next => some (session.goOn (next (session.context.check session.now)))
  | .release next => some { session with inbound := .gone, stage := .running next }

/-- What happens next at this instant. -/
def step (session : Session handler) : Option (Session handler) :=
  match session.stage with
  | .over => none
  | .closing [] => some { session with stage := .over }
  | .closing (event :: left) =>
    match session.sink.push event with
    | some (.ok (), sink) => some { session with sink, stage := .closing left }
    | some (.error _, _) => some { session with stage := .over }
    | none => none
  | .asleep wakes state =>
    if wakes ≤ session.now then some (session.goOn state) else session.expire
  | .running state =>
    match session.act (handler.act state) with
    | some next => some next
    | none => session.expire

end Session
end RpcConformance
