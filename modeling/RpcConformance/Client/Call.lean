import RpcConformance.Call.Context
import RpcConformance.Client.Link
/-!
A call as its client sees it. The first outcome stays: a call that failed answers every further
request for a message with the same status, and one that ended well with its end. The client may
give the call up at any time, and its deadline does so for it.
-/
namespace RpcConformance.Client

structure Call (L : Type) where
  link : L
  /-- When the client gives the call up. -/
  deadline : Option Nat := none
  /-- Whether more requests may be sent. -/
  sending : Bool := true
  /-- Whether the client still listens to the response. -/
  listening : Bool := true
  headers : Option Metadata := none
  trailers : Option Metadata := none
  /-- How the call ended. -/
  outcome : Option Outcome := none
deriving Repr

/-- Why an operation on a call has no result. -/
inductive Halt
  | failed (status : Status)
  /-- The time up to which the client waits is over. -/
  | blocked
  /-- The caller panicked, since the clock cannot tell the deadline. -/
  | panicked
deriving Repr

namespace Call

def requestsClosed : Status := .failedPrecondition "send after the request stream was closed"

/-- What a client is told that sends to a peer that takes no more requests. -/
def requestsRefused : Status := .unavailable "request stream closed by the peer"

def notListening : Status := .internal "response stream missing"

/-- How a call ends whose response breaks off. -/
def unfinished : Status := .internal "response stream ended without a status"

def unanswered : Status := .unimplemented "call ended without a response message"

def answeredTwice : Status := .unimplemented "unary call returned more than one response"

/-- How a call fails that the client gave up. -/
def canceled : Status := .canceled "call canceled by the client"

variable {L Req Res : Type} [Link L Req Res]

def now (call : Call L) : Nat := Link.now call.link

/-- Ends a call with a failure; the peer learns that it was given up. -/
def abandon (call : Call L) (status : Status) : Call L :=
  { call with
    link := Link.reset call.link, sending := false, listening := false
    outcome := some (.error status) }

def cancel (call : Call L) : Call L := call.abandon canceled

def expire (call : Call L) : Call L :=
  if call.outcome.isNone && Context.isExpired call.deadline call.now then
    call.abandon Context.expired
  else call

def failure? (call : Call L) : Option Status :=
  match call.outcome with
  | some (.error status) => some status
  | _ => none

/-- How long to wait for something, if the client waits until `limit`: the deadline comes first. -/
def horizon (call : Call L) (limit : Nat) : Nat :=
  match call.deadline with
  | some time => min (time - 1) limit
  | none => limit

/-- What comes of waiting in vain until `limit`. -/
def timeUp {α : Type} (call : Call L) (limit : Nat) : Except Halt α × Call L :=
  match call.deadline with
  | some time =>
    if time ≤ limit then
      (.error (.failed Context.expired),
        { call with link := Link.advance call.link time }.abandon Context.expired)
    else (.error .blocked, call)
  | none => (.error .blocked, call)

def send (call : Call L) (request : Req) (limit : Nat) : Except Halt Unit × Call L :=
  let call := call.expire
  match call.failure? with
  | some status => (.error (.failed status), call)
  | none =>
    if call.sending then
      match Link.send call.link request (call.horizon limit) with
      | (.accepted, link) => (.ok (), { call with link })
      | (.refused, link) => (.error (.failed requestsRefused), { call with link })
      | (.blocked, link) => { call with link }.timeUp limit
    else (.error (.failed requestsClosed), call)

def closeSend (call : Call L) : Call L :=
  if call.sending then { call with link := Link.closeSend call.link, sending := false } else call

def finish (call : Call L) (outcome : Outcome) (trailers : Metadata) : Call L :=
  { call.closeSend with
    headers := some (call.headers.getD .empty), trailers := some trailers, outcome := some outcome }

/-- What is received of a call that has ended: no message. -/
def ending {α : Type} : Outcome → Except Halt (Option α)
  | .ok () => .ok none
  | .error status => .error (.failed status)

theorem ending_ne_message {α : Type} {outcome : Outcome} {message : α} :
    ending outcome ≠ .ok (some message) := by
  cases outcome <;> simp [ending]

theorem timeUp_ne_ok {α : Type} {call rest : Call L} {limit : Nat} {value : α} :
    call.timeUp limit ≠ (.ok value, rest) := by
  unfold timeUp
  repeat' split
  all_goals simp

/-- The next message; `none` is a good end. Headers are kept on the way. -/
def listen (call : Call L) (limit : Nat) : Except Halt (Option Res) × Call L :=
  match call.outcome with
  | some outcome => (ending outcome, call)
  | none =>
    if call.listening then
      match _h : Link.receive call.link (call.horizon limit) with
      | (.event (.headers metadata), link) =>
        { call with link, headers := some ((call.headers.getD .empty).extend metadata) }.listen limit
      | (.event (.message message), link) => (.ok (some message), { call with link })
      | (.event (.ended outcome trailers), link) =>
        (ending outcome, { call with link }.finish outcome trailers)
      | (.closed, link) =>
        (.error (.failed unfinished), { call with link, outcome := some (.error unfinished) })
      | (.blocked, link) => { call with link }.timeUp limit
    else (.error (.failed notListening), call)
termination_by Session.sizeBelow_wf.wrap (Link.size call.link)
decreasing_by exact Link.receive_shrinks _h

/-- Waits for the next message until `limit` at most; `none` is a good end. -/
def receive (call : Call L) (limit : Nat) : Except Halt (Option Res) × Call L := call.expire.listen limit

theorem listen_of_outcome {call : Call L} {outcome : Outcome} (h : call.outcome = some outcome)
    (limit : Nat) : call.listen limit = (ending outcome, call) := by
  rw [listen]
  simp only [h]

theorem listen_shrinks {call rest : Call L} {limit : Nat} {message : Res}
    (h : call.listen limit = (.ok (some message), rest)) :
    Session.SizeBelow (Link.size rest.link) (Link.size call.link) := by
  fun_induction listen call limit with
  | case2 _ _ _ _ _ hreceive ih => exact (ih h).trans (Link.receive_shrinks hreceive)
  | case3 _ _ _ _ _ hreceive =>
    cases h
    exact Link.receive_shrinks hreceive
  | case1 | case4 => exact (ending_ne_message (Prod.mk.inj h).1).elim
  | case6 => exact absurd h timeUp_ne_ok
  | case5 | case7 => cases h

theorem receive_shrinks {call rest : Call L} {limit : Nat} {message : Res}
    (h : call.receive limit = (.ok (some message), rest)) :
    Session.SizeBelow (Link.size rest.link) (Link.size call.link) := by
  unfold receive expire at h
  split at h
  · rw [listen_of_outcome rfl] at h
    exact (ending_ne_message (Prod.mk.inj h).1).elim
  · exact listen_shrinks h

/-- All messages up to a good end. -/
def drain (call : Call L) (limit : Nat) : Except Halt (List Res) × Call L :=
  match _h : call.receive limit with
  | (.error halt, call) => (.error halt, call)
  | (.ok none, call) => (.ok [], call)
  | (.ok (some message), rest) =>
    match rest.drain limit with
    | (.ok messages, rest) => (.ok (message :: messages), rest)
    | (.error halt, rest) => (.error halt, rest)
termination_by Session.sizeBelow_wf.wrap (Link.size call.link)
decreasing_by exact receive_shrinks _h

def closeAndReceive (call : Call L) (limit : Nat) : Except Halt (Response Res) × Call L :=
  match call.closeSend.receive limit with
  | (.error halt, call) => (.error halt, call)
  | (.ok none, call) => (.error (.failed unanswered), call)
  | (.ok (some message), call) =>
    match call.receive limit with
    | (.error halt, call) => (.error halt, call)
    | (.ok (some _), call) => (.error (.failed answeredTwice), call)
    | (.ok none, call) =>
      (.ok ⟨message, call.headers.getD .empty, call.trailers.getD .empty⟩, call)

/-- Sends the only request. A peer that takes no requests has ended the call, and how it ended is
learned from the response. -/
def sendOnly (call : Call L) (request : Req) (limit : Nat) : Except Halt Unit × Call L :=
  match call.send request limit with
  | (.error (.failed status), call) =>
    (if status.code = .unavailable then .ok () else .error (.failed status), call)
  | result => result

def unary (call : Call L) (request : Req) (limit : Nat) : Except Halt (Response Res) × Call L :=
  match call.sendOnly request limit with
  | (.ok (), call) => call.closeAndReceive limit
  | (.error halt, call) => (.error halt, call)

def advance (call : Call L) (time : Nat) : Call L :=
  { call with link := Link.advance call.link time }

/-- The client forgets the call, which gives it up unless it has ended. -/
def release (call : Call L) : L :=
  if call.outcome.isNone then Link.reset call.link else call.closeSend.link

end Call
end RpcConformance.Client
