import RpcConformance.Call.Inbound
import RpcConformance.Client.Link
import RpcConformance.Message.Codec
/-!
Links whose response is known: its events are there, or follow from the requests once there will be
no more of them.
-/
namespace RpcConformance.Client

inductive Source (Res : Type)
  /-- They are there, and `complete` says whether nothing comes after them. -/
  | ready (events : List (Event Res)) (complete : Bool)
  /-- They follow from all requests, of which some have been taken. -/
  | reply (taken : List (Except Status Bytes))
      (answer : List (Except Status Bytes) → List (Event Res) × Bool)

/-- A link with a known response. -/
structure Feed (Req Res : Type) where
  codec : Codec
  now : Nat
  /-- The requests nobody has taken. -/
  inbound : Inbound := .openEnd
  source : Source Res

namespace Feed

variable {Req Res : Type}

/-- Takes a request, or queues it; nobody makes room for it once the response is complete. -/
def send [Message Req] (feed : Feed Req Res) (request : Req) (time : Nat) : Sent × Feed Req Res :=
  let item := feed.codec.encode request
  match feed.source with
  | .reply taken answer => (.accepted, { feed with source := .reply (taken ++ [item]) answer })
  | .ready _ complete =>
    match feed.inbound.push item with
    | .accepted inbound => (.accepted, { feed with inbound })
    | .refused => (.refused, feed)
    | .full => if complete then (.refused, feed) else (.blocked, { feed with now := max feed.now time })

def closeSend (feed : Feed Req Res) : Feed Req Res :=
  match feed.source with
  | .reply taken answer =>
    let (events, complete) := answer taken
    { feed with inbound := .gone, source := .ready events complete }
  | .ready _ _ => { feed with inbound := feed.inbound.close }

def reset (feed : Feed Req Res) : Feed Req Res :=
  { feed with inbound := feed.inbound.cancel, source := .ready [] true }

/-- Takes the next event; without one, time passes. -/
def receive (feed : Feed Req Res) (time : Nat) : Received (Event Res) × Feed Req Res :=
  match feed.source with
  | .ready (event :: events) complete => (.event event, { feed with source := .ready events complete })
  | .ready [] true => (.closed, feed)
  | .ready [] false | .reply _ _ => (.blocked, { feed with now := max feed.now time })

def size (feed : Feed Req Res) : Nat × Nat × Nat :=
  match feed.source with
  | .ready events _ => (0, 0, events.length)
  | .reply _ _ => (0, 0, 0)

theorem receive_shrinks {feed rest : Feed Req Res} {time : Nat} {event : Event Res}
    (h : feed.receive time = (.event event, rest)) : Session.SizeBelow rest.size feed.size := by
  unfold receive at h
  split at h
  · rename_i hsource
    cases h
    simp only [size, hsource]
    exact Prod.Lex.right _ (Prod.Lex.right _ (by simp))
  all_goals cases h

instance [Message Req] : Link (Feed Req Res) Req Res where
  now := now
  send := send
  closeSend := closeSend
  reset := reset
  receive := receive
  advance feed time := { feed with now := max feed.now time }
  size := size
  receive_shrinks := receive_shrinks

end Feed
end RpcConformance.Client
