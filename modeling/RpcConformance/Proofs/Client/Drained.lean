import RpcConformance.Proofs.Client.OnlyResponse
/-!
Calls that are drained: a client takes messages up to the end of the call. Whatever events the response is made of, it
has all messages before the first end exactly if that end is good (`Call.Awaits.drain_eq`), also where the response has
no end, because it breaks off or because it stays open and silent.
-/
namespace RpcConformance.Client

open Event (messages firstEnd? beforeEnd)

namespace Link

variable {L Req Res : Type} [Link L Req Res]

/-- A link that gives events to a client that waits until `limit` for each, and after the last of them is over, or is
silent until then if they are not `complete`. -/
def Delivers (limit : Nat) (complete : Bool) : L → List (Event Res) → Prop
  | link, [] => ∃ rest, Link.receive link limit = (if complete then .closed else .blocked, rest)
  | link, event :: events =>
    ∃ rest, Link.receive link limit = (.event event, rest) ∧ Delivers limit complete rest events

/-- A link that takes requests or refuses them, and delivers events once there will be no more of them. -/
def Answers (limit : Nat) (complete : Bool) : L → List Req → List (Event Res) → Prop
  | link, [], events => Delivers limit complete (Link.closeSend link) events
  | link, request :: requests, events =>
    ∃ sent rest, sent ≠ .blocked ∧ Link.send link request limit = (sent, rest) ∧
      Answers limit complete rest requests events

end Link

namespace Feed

variable {Req Res : Type} [Message Req] {feed : Feed Req Res} {complete : Bool} {events : List (Event Res)}

theorem delivers (h : feed.source = .ready events complete) (limit : Nat) :
    Link.Delivers limit complete feed events := by
  induction events generalizing feed with
  | nil =>
    refine ⟨(feed.receive limit).2, ?_⟩
    show feed.receive limit = _
    unfold receive
    cases complete <;> simp [h]
  | cons event events ih =>
    refine ⟨{ feed with source := .ready events complete }, ?_, ih rfl⟩
    show feed.receive limit = _
    rw [receive, h]

/-- A response that follows from the requests is there once there will be no more of them. -/
theorem answers {requests : List Req} {taken : List (Except Status Bytes)}
    {answer : List (Except Status Bytes) → List (Event Res) × Bool} (h : feed.source = .reply taken answer)
    (hanswer : answer (taken ++ requests.map feed.codec.encode) = (events, complete)) (limit : Nat) :
    Link.Answers limit complete feed requests events := by
  induction requests generalizing feed taken with
  | nil =>
    rw [List.map_nil, List.append_nil] at hanswer
    refine delivers ?_ limit
    show feed.closeSend.source = _
    rw [closeSend, h]
    simp only [hanswer]
  | cons request requests ih =>
    refine ⟨.accepted, { feed with source := .reply (taken ++ [feed.codec.encode request]) answer }, nofun, ?_,
      ih rfl ?_⟩
    · show feed.send request limit = _
      rw [send, h]
    · rw [List.append_assoc]
      exact hanswer

end Feed

def drained {Res : Type} (complete : Bool) (events : List (Event Res)) : Except Halt (List Res) :=
  match firstEnd? events with
  | some (.ok (), _) => .ok (messages (beforeEnd events))
  | some (.error status, _) => .error (.failed status)
  | none => .error (if complete then .failed Call.unfinished else .blocked)

section Drained

variable {Res : Type} {complete : Bool}

theorem drained_headers (metadata : Metadata) (events : List (Event Res)) :
    drained complete (.headers metadata :: events) = drained complete events := rfl

theorem drained_message (message : Res) (events : List (Event Res)) :
    drained complete (.message message :: events) = (drained complete events).map (message :: ·) := by
  have hend : firstEnd? (.message message :: events) = firstEnd? events := rfl
  have hmessages : messages (beforeEnd (.message message :: events)) = message :: messages (beforeEnd events) := rfl
  rw [drained, drained, hend, hmessages]
  match firstEnd? events with
  | some (.ok (), _) | some (.error _, _) | none => rfl

theorem drained_eq_ok_iff {events : List (Event Res)} {found : List Res} :
    drained complete events = .ok found ↔
      (∃ trailers, firstEnd? events = some (.ok (), trailers)) ∧ messages (beforeEnd events) = found := by
  rw [drained]
  match firstEnd? events with
  | some (.ok (), _) | some (.error _, _) | none => simp

end Drained

namespace Call

variable {L Req Res : Type} [Link L Req Res]

theorem drain_eq (call : Call L) (limit : Nat) :
    (call.drain limit).1 =
      match call.receive limit with
      | (.error halt, _) => .error halt
      | (.ok none, _) => .ok []
      | (.ok (some message), rest) => (rest.drain limit).1.map (message :: ·) := by
  rw [drain]
  split
  · simp_all
  · simp_all
  · rename_i hreceive
    split <;> simp_all [Except.map]

/-- A request that is taken has been sent, and so has one that nobody takes: how such a call ended is told by its
events. -/
theorem sendOnly_of_sent {call : Call L} (houtcome : call.outcome = none) (hsending : call.sending = true)
    (hdeadline : call.deadline = none) {request : Req} {limit : Nat} {sent : Sent} {link : L}
    (hsend : Link.send call.link request limit = (sent, link)) (hsent : sent ≠ .blocked) :
    call.sendOnly request limit = (.ok (), { call with link }) := by
  rw [sendOnly, send, expire_of_endless hdeadline, horizon_of_endless hdeadline, hsend]
  simp only [failure?, houtcome, hsending, if_true]
  cases sent with
  | accepted => rfl
  | refused => rfl
  | blocked => exact absurd rfl hsent

section Awaiting

variable {complete : Bool} {limit : Nat} {call : Call L}

theorem Awaits.receive_last (h : call.Awaits (Link.Delivers limit complete) ([] : List (Event Res))) :
    (call.receive limit).1 = .error (if complete then .failed unfinished else .blocked) := by
  obtain ⟨rest, hreceive⟩ := h.left
  rw [← horizon_of_endless h.deadline limit] at hreceive
  rw [receive_of_endless h.deadline]
  cases complete with
  | true =>
    rw [listen_of_closed h.outcome h.listening hreceive]
    rfl
  | false =>
    have hdeadline : ({ call with link := rest } : Call L).deadline = none := h.deadline
    rw [listen_of_blocked h.outcome h.listening hreceive, timeUp, hdeadline]
    rfl

/-- All messages are received up to the first end, which tells the outcome. By induction on the events: headers are
passed over on the way, and nothing behind the end is looked at. -/
theorem Awaits.drain_eq {events : List (Event Res)} (h : call.Awaits (Link.Delivers limit complete) events) :
    (call.drain limit).1 = drained complete events := by
  induction events generalizing call with
  | nil =>
    have hlast := h.receive_last
    rw [Call.drain_eq]
    generalize call.receive limit = received at hlast ⊢
    obtain ⟨result, rest⟩ := received
    obtain rfl : result = _ := hlast
    rfl
  | cons event events ih =>
    obtain ⟨link, hreceive, hrest⟩ := h.left
    rw [← horizon_of_endless h.deadline limit] at hreceive
    rw [Call.drain_eq, receive_of_endless h.deadline]
    cases event with
    | headers metadata =>
      have hnext : Awaits (Link.Delivers limit complete)
          { call with link, headers := some (call.gathered.extend metadata) } events :=
        ⟨h.outcome, h.listening, h.deadline, hrest⟩
      rw [listen_of_headers h.outcome h.listening hreceive, drained_headers, ← ih hnext, Call.drain_eq,
        receive_of_endless hnext.deadline]
      rfl
    | message message =>
      have hnext : Awaits (Link.Delivers limit complete) { call with link } events :=
        ⟨h.outcome, h.listening, h.deadline, hrest⟩
      rw [listen_of_message h.outcome h.listening hreceive, drained_message, ← ih hnext]
    | ended outcome trailers =>
      rw [listen_of_ended h.outcome h.listening hreceive]
      cases outcome <;> rfl

end Awaiting

end Call

namespace Transport

variable {T : Type u} [Transport T] {transport : T} {method : Method} {now limit : Nat} {complete : Bool}
  {events : List (Event method.Response)}

/-- A call of a method over a transport that takes requests or refuses them, and has such events once there will be no
more of them. -/
def Streams (transport : T) (method : Method) (requests : List method.Request) (now limit : Nat) (complete : Bool)
    (events : List (Event method.Response)) : Prop :=
  Link.Answers limit complete (connect transport method.path method.Request method.Response {} now) requests events

theorem Streams.awaits (h : Streams transport method [] now limit complete events) :
    (openMethod transport method {} now).closeSend.Awaits (Link.Delivers limit complete) events := ⟨rfl, rfl, rfl, h⟩

theorem Streams.openServerStream {request : method.Request}
    (h : Streams transport method [request] now limit complete events) :
    ∃ call, Transport.openServerStream transport method request {} now limit = (.ok (), call) ∧
      call.Awaits (Link.Delivers limit complete) events := by
  obtain ⟨sent, link, hsent, hsend, hdelivers⟩ := h
  have hopened : (openMethod transport method {} now).sendOnly request limit =
      (.ok (), { openMethod transport method {} now with link }) := Call.sendOnly_of_sent rfl rfl rfl hsend hsent
  rw [Transport.openServerStream, hopened]
  exact ⟨_, rfl, rfl, rfl, rfl, hdelivers⟩

end Transport

end RpcConformance.Client
