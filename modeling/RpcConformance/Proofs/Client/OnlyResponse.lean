import RpcConformance.Proofs.Client.BreakOff
import RpcConformance.Proofs.Server.Messages
/-!
A call with one response against all that a response can be: headers anywhere, any number of messages, and an end or
none. Only what stands before the first end counts (`Event.beforeEnd`), and there must be one message, and the end must
be good (`Call.closeAndReceive_of_unfolds`). A call whose events are there is the case that a client meets over HTTP
(`Call.closeAndReceive_ready`).
-/
namespace RpcConformance

namespace Event

variable {α : Type}

def end? : Event α → Option (Outcome × Metadata)
  | .ended outcome trailers => some (outcome, trailers)
  | .headers _ | .message _ => none

def firstEnd? (events : List (Event α)) : Option (Outcome × Metadata) := events.findSome? end?

def beforeEnd (events : List (Event α)) : List (Event α) := events.takeWhile fun event => event.end?.isNone

def headerEntries : Event α → List (String × Bytes)
  | .headers metadata => metadata.entries
  | .message _ | .ended _ _ => []

def headersOf (events : List (Event α)) : Metadata := ⟨events.flatMap headerEntries⟩

theorem extend_headersOf (headers metadata : Metadata) (events : List (Event α)) :
    (headers.extend metadata).extend (headersOf events) = headers.extend (headersOf (.headers metadata :: events)) :=
  congrArg Metadata.mk (List.append_assoc _ _ _)

theorem extend_headersOf_nil (headers : Metadata) : headers.extend (headersOf ([] : List (Event α))) = headers :=
  congrArg Metadata.mk (List.append_nil _)

end Event

namespace Client

open Event (messages firstEnd? beforeEnd headersOf)

/-- What a call comes to that should have one message, by the headers and messages before its end and by that end. -/
def onlyResponse {Res : Type} (headers : Metadata) :
    List Res → Option (Outcome × Metadata) → Except Halt (Response Res)
  | _ :: _ :: _, _ => .error (.failed Call.answeredTwice)
  | _, none => .error (.failed Call.unfinished)
  | _, some (.error status, _) => .error (.failed status)
  | [], some (.ok (), _) => .error (.failed Call.unanswered)
  | [message], some (.ok (), trailers) => .ok ⟨message, headers, trailers⟩

theorem onlyResponse_eq_ok_iff {Res : Type} {headers : Metadata} {found : List Res}
    {ending? : Option (Outcome × Metadata)} {response : Response Res} :
    onlyResponse headers found ending? = .ok response ↔
      found = [response.message] ∧ ending? = some (.ok (), response.trailers) ∧ response.headers = headers := by
  obtain ⟨message, headers', trailers⟩ := response
  match found, ending? with
  | [], none | [], some (.error _, _) | [], some (.ok (), _) | [_], none | [_], some (.error _, _) | _ :: _ :: _, _ =>
    simp [onlyResponse]
  | [found], some (.ok (), trailers') =>
    simp [onlyResponse, and_comm, eq_comm]

section Failing

variable {Res : Type} {headers : Metadata} {found : List Res}

theorem onlyResponse_of_failed (h : found.length ≤ 1) (status : Status) (trailers : Metadata) :
    onlyResponse headers found (some (.error status, trailers)) = .error (.failed status) := by
  match found with
  | [] | [_] => rfl
  | _ :: _ :: _ => simp at h

theorem onlyResponse_of_many (h : 2 ≤ found.length) (ending? : Option (Outcome × Metadata)) :
    onlyResponse headers found ending? = .error (.failed Call.answeredTwice) := by
  match found with
  | [] | [_] => simp at h
  | _ :: _ :: _ => rfl

theorem onlyResponse_of_endless (h : found.length < 2) :
    onlyResponse headers found none = .error (.failed Call.unfinished) := by
  match found with
  | [] | [_] => rfl
  | _ :: _ :: _ => exact absurd h (by simp)

end Failing

namespace Call

variable {L Req Res : Type} [Link L Req Res]

def gathered (call : Call L) : Metadata := call.headers.getD .empty

/-- A call without an outcome and without a deadline, on whose link some events are left. -/
structure Awaits (left : L → List (Event Res) → Prop) (call : Call L) (events : List (Event Res)) : Prop where
  outcome : call.outcome = none
  listening : call.listening = true
  deadline : call.deadline = none
  left : left call.link events

def concluded (call : Call L) (message : Res) (limit : Nat) : Except Halt (Response Res) :=
  match call.receive limit with
  | (.error halt, _) => .error halt
  | (.ok (some _), _) => .error (.failed answeredTwice)
  | (.ok none, call) => .ok ⟨message, call.gathered, call.trailers.getD .empty⟩

theorem closeAndReceive_eq (call : Call L) (limit : Nat) :
    (call.closeAndReceive limit).1 =
      match call.closeSend.receive limit with
      | (.error halt, _) => .error halt
      | (.ok none, _) => .error (.failed unanswered)
      | (.ok (some message), rest) => rest.concluded message limit := by
  unfold closeAndReceive
  generalize call.closeSend.receive limit = found
  obtain ⟨_ | _ | message, rest⟩ := found
  · rfl
  · rfl
  · simp only [concluded]
    generalize rest.receive limit = next
    obtain ⟨_ | _ | second, last⟩ := next <;> rfl

section Awaiting

variable {left : L → List (Event Res) → Prop} {horizon latest limit : Nat} {call : Call L}
  {events : List (Event Res)} (hunfolds : Link.Unfolds horizon latest left) (hlimit : horizon ≤ limit)

include hunfolds hlimit

theorem Awaits.next (h : call.Awaits left events) :
    ∃ rest, left rest events.tail ∧ Link.receive call.link (call.horizon limit) = (.first events, rest) := by
  obtain ⟨rest, hrest, hreceive⟩ := hunfolds.receive h.left
  rcases hreceive (call.horizon limit) with hnext | ⟨hearly, -⟩
  · exact ⟨rest, hrest, hnext⟩
  · rw [horizon_of_endless h.deadline] at hearly
    exact absurd hearly (Nat.not_lt.2 hlimit)

theorem Awaits.receive_closed (h : call.Awaits left ([] : List (Event Res))) :
    ∃ rest, call.receive limit = (.error (.failed unfinished), rest) := by
  obtain ⟨link, -, hnext⟩ := h.next hunfolds hlimit
  rw [receive_of_endless h.deadline]
  exact ⟨_, listen_of_closed h.outcome h.listening hnext⟩

theorem Awaits.receive_headers {metadata : Metadata} (h : call.Awaits left (.headers metadata :: events)) :
    ∃ next : Call L, next.Awaits left events ∧ next.gathered = call.gathered.extend metadata ∧
      call.receive limit = next.receive limit := by
  obtain ⟨link, hlink, hnext⟩ := h.next hunfolds hlimit
  have hawaits : Awaits left { call with link, headers := some (call.gathered.extend metadata) } events :=
    ⟨h.outcome, h.listening, h.deadline, hlink⟩
  refine ⟨_, hawaits, rfl, ?_⟩
  rw [receive_of_endless h.deadline, listen_of_headers h.outcome h.listening hnext,
    receive_of_endless hawaits.deadline]
  rfl

theorem Awaits.receive_message {message : Res} (h : call.Awaits left (.message message :: events)) :
    ∃ next : Call L, next.Awaits left events ∧ next.gathered = call.gathered ∧
      call.receive limit = (.ok (some message), next) := by
  obtain ⟨link, hlink, hnext⟩ := h.next hunfolds hlimit
  rw [receive_of_endless h.deadline]
  exact ⟨{ call with link }, ⟨h.outcome, h.listening, h.deadline, hlink⟩, rfl,
    listen_of_message h.outcome h.listening hnext⟩

theorem Awaits.receive_ended {outcome : Outcome} {trailers : Metadata}
    (h : call.Awaits left (.ended outcome trailers :: events)) :
    ∃ rest : Call L, rest.gathered = call.gathered ∧ rest.trailers = some trailers ∧
      call.receive limit = (ending outcome, rest) := by
  obtain ⟨link, hlink, hnext⟩ := h.next hunfolds hlimit
  rw [receive_of_endless h.deadline]
  refine ⟨{ call with link }.finish outcome trailers, ?_, rfl, listen_of_ended h.outcome h.listening hnext⟩
  rfl

/-- What comes after the first message decides. By induction on the events: headers are kept on the way. -/
theorem Awaits.concluded_eq (h : call.Awaits left events) (message : Res) :
    call.concluded message limit =
      onlyResponse (call.gathered.extend (headersOf (beforeEnd events))) (message :: messages (beforeEnd events))
        (firstEnd? events) := by
  induction events generalizing call with
  | nil =>
    obtain ⟨rest, hreceive⟩ := h.receive_closed hunfolds hlimit
    rw [concluded, hreceive]
    rfl
  | cons event events ih =>
    cases event with
    | headers metadata =>
      obtain ⟨next, hawaits, hgathered, hreceive⟩ := h.receive_headers hunfolds hlimit
      have hconcluded : call.concluded message limit = next.concluded message limit := by
        simp only [concluded, hreceive]
      rw [hconcluded, ih hawaits, hgathered, Event.extend_headersOf]
      rfl
    | message second =>
      obtain ⟨next, -, -, hreceive⟩ := h.receive_message hunfolds hlimit
      rw [concluded, hreceive]
      rfl
    | ended outcome trailers =>
      obtain ⟨rest, hgathered, htrailers, hreceive⟩ := h.receive_ended hunfolds hlimit
      have hheaders :
          call.gathered.extend (headersOf (beforeEnd (.ended outcome trailers :: events))) = rest.gathered :=
        (Event.extend_headersOf_nil _).trans hgathered.symm
      rw [concluded, hreceive, hheaders]
      cases outcome with
      | error status => rfl
      | ok =>
        simp only [ending, htrailers]
        rfl

/-- A call that should have one message comes to what the events before the first end, and that end, make of it. -/
theorem closeAndReceive_of_unfolds (houtcome : call.outcome = none) (hlistening : call.listening = true)
    (hdeadline : call.deadline = none) (hleft : left call.closeSend.link events) :
    (call.closeAndReceive limit).1 =
      onlyResponse (call.gathered.extend (headersOf (beforeEnd events))) (messages (beforeEnd events))
        (firstEnd? events) := by
  have hgathered : call.closeSend.gathered = call.gathered := by
    unfold closeSend
    split <;> rfl
  have hawaits : call.closeSend.Awaits left events := by
    refine ⟨?_, ?_, ?_, hleft⟩ <;> unfold closeSend <;> split <;> assumption
  rw [closeAndReceive_eq, ← hgathered]
  clear hgathered hleft
  generalize call.closeSend = call at hawaits
  induction events generalizing call with
  | nil =>
    obtain ⟨rest, hreceive⟩ := hawaits.receive_closed hunfolds hlimit
    rw [hreceive]
    rfl
  | cons event events ih =>
    cases event with
    | headers metadata =>
      obtain ⟨next, hrest, hgathered, hreceive⟩ := hawaits.receive_headers hunfolds hlimit
      rw [hreceive, ih _ hrest, hgathered, Event.extend_headersOf]
      rfl
    | message message =>
      obtain ⟨next, hrest, hgathered, hreceive⟩ := hawaits.receive_message hunfolds hlimit
      rw [hreceive]
      exact (hrest.concluded_eq hunfolds hlimit message).trans (by rw [hgathered]; rfl)
    | ended outcome trailers =>
      obtain ⟨rest, -, -, hreceive⟩ := hawaits.receive_ended hunfolds hlimit
      rw [hreceive]
      cases outcome <;> rfl

end Awaiting

/-- A call whose events are all there once the request side is closed. Without a deadline and without an outcome so far
it has a response exactly if there is one message before the first end and that end is good, and then the headers are all
that came before it, one after the other. Otherwise it fails: with the status of a bad end after one message at most,
because there were two messages, because a good end came without one, or because there is no end. -/
theorem closeAndReceive_ready [Message Req] {call : Call (Feed Req Res)} (houtcome : call.outcome = none)
    (hlistening : call.listening = true) (hdeadline : call.deadline = none) {events : List (Event Res)}
    (hready : call.closeSend.link.source = .ready events true) (limit : Nat) :
    (∀ response, (call.closeAndReceive limit).1 = .ok response ↔
      messages (beforeEnd events) = [response.message] ∧ firstEnd? events = some (.ok (), response.trailers) ∧
        response.headers = call.gathered.extend (headersOf (beforeEnd events))) ∧
    (∀ status trailers, firstEnd? events = some (.error status, trailers) → (messages (beforeEnd events)).length ≤ 1 →
      (call.closeAndReceive limit).1 = .error (.failed status)) ∧
    (2 ≤ (messages (beforeEnd events)).length → (call.closeAndReceive limit).1 = .error (.failed answeredTwice)) ∧
    (∀ trailers, firstEnd? events = some (.ok (), trailers) → messages (beforeEnd events) = [] →
      (call.closeAndReceive limit).1 = .error (.failed unanswered)) ∧
    (firstEnd? events = none → (messages (beforeEnd events)).length < 2 →
      (call.closeAndReceive limit).1 = .error (.failed unfinished)) := by
  have hunfolds := Feed.unfolds Req Res call.closeSend.link.now
  rw [closeAndReceive_of_unfolds hunfolds (Nat.zero_le limit) houtcome hlistening hdeadline ⟨hready, Nat.le_refl _⟩]
  refine ⟨fun response => onlyResponse_eq_ok_iff, ?_, fun hmany => onlyResponse_of_many hmany _, ?_, ?_⟩
  · intro status trailers hend hlength
    rw [hend, onlyResponse_of_failed hlength]
  · intro trailers hend hnone
    rw [hend, hnone]
    rfl
  · intro hend hlength
    rw [hend, onlyResponse_of_endless hlength]

def headersAround (first second trailers : Metadata) : List (Event Empty) :=
  [.headers first, .message .mk, .headers second, .ended (.ok ()) trailers, .message .mk,
    .ended (.error unfinished) .empty]

theorem closeAndReceive_ready_headersAround :
    ∃ call : Call (Feed Empty Empty), call.outcome = none ∧ call.listening = true ∧ call.deadline = none ∧
      call.closeSend.link.source =
        .ready (headersAround (.single "a" [1]) (.single "b" [2]) (.single "c" [3])) true ∧
      (call.closeAndReceive 0).1 = .ok ⟨.mk, ⟨[("a", [1]), ("b", [2])]⟩, ⟨[("c", [3])]⟩⟩ := by
  let call : Call (Feed Empty Empty) :=
    { link := ⟨.proto, 0, .openEnd, .ready (headersAround (.single "a" [1]) (.single "b" [2]) (.single "c" [3])) true⟩ }
  have hready := @closeAndReceive_ready Empty Empty _ call rfl rfl rfl _ rfl 0
  exact ⟨call, rfl, rfl, rfl, rfl, (hready.1 _).2 ⟨rfl, by decide, by decide⟩⟩

end Call

end Client
end RpcConformance
