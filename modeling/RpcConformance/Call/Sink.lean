import RpcConformance.Call.Event
import RpcConformance.Message.Codec
/-!
Where a handler puts its response: metadata that is collected, and a bounded queue of events for the
peer. The headers go out once, before the first message; what was not sent goes with the end.
-/
namespace RpcConformance

/-- The response of a call as far as it was made. -/
structure Sink where
  codec : Codec
  /-- How many events the queue holds. -/
  capacity : Nat
  headers : Metadata := .empty
  trailers : Metadata := .empty
  headersSent : Bool := false
  /-- The events the peer has not taken. -/
  queue : List (Event Bytes) := []
  /-- Whether the peer has gone. -/
  closed : Bool := false

namespace Sink

def peerGone : Status := .canceled "peer closed the stream"

/-- Queues an event; `none` means there is no room yet. -/
def push (sink : Sink) (event : Event Bytes) : Option (Outcome × Sink) :=
  if sink.closed then some (.error peerGone, sink)
  else if sink.queue.length < sink.capacity then
    some (.ok (), { sink with queue := sink.queue ++ [event] })
  else none

def flush (sink : Sink) : Option (Outcome × Sink) :=
  if sink.headersSent then some (.ok (), sink)
  else { sink with headers := .empty, headersSent := true }.push (.headers sink.headers)

def sendMessage {α : Type} [Message α] (sink : Sink) (message : α) : Option (Outcome × Sink) :=
  match sink.codec.encode message with
  | .ok bytes => sink.push (.message bytes)
  | .error status => some (.error status, sink)

def send {α : Type} [Message α] (sink : Sink) (message : α) : Option (Outcome × Sink) :=
  match sink.flush with
  | some (.ok (), sink) => sink.sendMessage message
  | other => other

def close (sink : Sink) : Sink := { sink with closed := true }

/-- The events still to come when the handler is done: headers that were not sent precede a good end
and join the trailers of a bad one. -/
def remaining (sink : Sink) (outcome : Outcome) : List (Event Bytes) :=
  if sink.headersSent then [.ended outcome sink.trailers]
  else
    match outcome with
    | .ok () => [.headers sink.headers, .ended outcome sink.trailers]
    | .error _ => [.ended outcome (sink.headers.extend sink.trailers)]

end Sink
end RpcConformance
