import RpcConformance.Client.Remote
import RpcConformance.Proofs.Client.CleanEnd
/-!
The events of a call over HTTP come in one order: the end alone, or headers, messages and the end (`Event.InOrder`).
This is so whatever answers the request, and how its body is cut into frames does not matter (`exchange_inOrder`).
-/
namespace RpcConformance

/-- Events as a call brings them: its end alone, or headers, messages and its end. -/
inductive Event.InOrder {α : Type} : List (Event α) → Prop
  | alone (outcome : Outcome) (trailers : Metadata) : InOrder [.ended outcome trailers]
  | answered (headers : Metadata) (messages : List α) (outcome : Outcome) (trailers : Metadata) :
    InOrder (.headers headers :: (messages.map .message ++ [.ended outcome trailers]))

namespace Client

open Http Envelope

variable {Req Res : Type}

/-- An answer of which all events are there and in order, or no answer, for which there is a cause. -/
inductive Whole (silence : Prop) : List (Event Res) × Bool → Prop
  | complete {events : List (Event Res)} (inOrder : Event.InOrder events) : Whole silence (events, true)
  | silent (cause : silence) : Whole silence ([], false)

/-- A source of which the answer to any requests is whole. -/
def Source.Orderly (silence : Prop) : Source Res → Prop
  | .ready events complete => Whole silence (events, complete)
  | .reply _ answer => ∀ messages, Whole silence (answer messages)

namespace Feed

def asked [Message Req] (feed : Feed Req Res) (requests : List (Req × Nat)) : Feed Req Res :=
  (requests.foldl (fun feed request => (feed.send request.1 request.2).2) feed).closeSend

/-- A link that gives these events and then nothing more, whenever it is asked. -/
def Yields : Feed Req Res → List (Event Res) → Prop
  | feed, [] => ∀ time, feed.receive time = (.closed, feed)
  | feed, event :: events => ∃ rest, (∀ time, feed.receive time = (.event event, rest)) ∧ Yields rest events

/-- A link that gives nothing, however long it is waited for. -/
def Stalls (feed : Feed Req Res) : Prop :=
  ∀ time, feed.receive time = (.blocked, { feed with now := max feed.now time })

variable {feed : Feed Req Res} {silence : Prop}

theorem yields_of_ready {events : List (Event Res)} (h : feed.source = .ready events true) : feed.Yields events := by
  induction events generalizing feed with
  | nil =>
    intro time
    rw [receive, h]
  | cons event events ih =>
    refine ⟨{ feed with source := .ready events true }, fun time => ?_, ih rfl⟩
    rw [receive, h]

theorem orderly_send [Message Req] (h : feed.source.Orderly silence) (request : Req) (time : Nat) :
    (feed.send request time).2.source.Orderly silence := by
  rw [send]
  cases hsource : feed.source with
  | reply taken answer =>
    rw [hsource] at h
    exact h
  | ready events complete =>
    have hkept : Source.Orderly silence (.ready events complete) := hsource ▸ h
    dsimp only
    split
    · exact hkept
    · exact h
    · split
      · exact h
      · exact hkept

theorem orderly_closeSend (h : feed.source.Orderly silence) :
    ∃ answer : List (Event Res) × Bool, Whole silence answer ∧ feed.closeSend.source = .ready answer.1 answer.2 := by
  rw [closeSend]
  cases hsource : feed.source with
  | reply taken answer =>
    rw [hsource] at h
    exact ⟨answer taken, h taken, rfl⟩
  | ready events complete =>
    rw [hsource] at h
    exact ⟨(events, complete), h, rfl⟩

theorem orderly_asked [Message Req] (h : feed.source.Orderly silence) (requests : List (Req × Nat)) :
    (∃ events, (feed.asked requests).Yields events ∧ Event.InOrder events) ∨
      silence ∧ (feed.asked requests).Stalls := by
  have hsent : (requests.foldl (fun feed request => (feed.send request.1 request.2).2) feed).source.Orderly silence := by
    induction requests generalizing feed with
    | nil => exact h
    | cons request requests ih => exact ih (orderly_send h request.1 request.2)
  obtain ⟨answer, hwhole, hready⟩ := orderly_closeSend hsent
  cases hwhole with
  | complete inOrder => exact .inl ⟨_, yields_of_ready hready, inOrder⟩
  | silent cause =>
    refine .inr ⟨cause, fun time => ?_⟩
    rw [receive, asked, hready]

end Feed

variable [Message Res]

namespace Exchange

/-- Whatever the last event of a body is read from, it is the end of the call. -/
theorem Last.ended {protocol : Protocol} {codec : Codec} {failure : Option String} {bytes : Bytes}
    {fields : Option HeaderMap} {last : Event Res} (h : Last Res protocol codec failure bytes fields last) :
    ∃ outcome trailers, last = .ended outcome trailers := by
  cases h with
  | envelope | broken | trailers => exact ⟨_, _, rfl⟩
  | stopped =>
    unfold endOfBody
    split <;> exact ⟨_, _, rfl⟩

theorem inOrder_events (protocol : Protocol) (codec : Codec) (response : Http.Response) :
    Event.InOrder (events protocol codec response : List (Event Res)) := by
  by_cases hstatus : response.status = 200
  · cases hended : endOfHeaders? protocol response.headers with
    | some outcome =>
      rw [events_of_told codec hstatus hended]
      exact .alone _ _
    | none =>
      obtain ⟨sent, rest, last, hholds, hlengths, hbytes, hlast⟩ :=
        @exists_last Res _ protocol codec response.failure (content response.body).2 (content response.body).1
      obtain ⟨outcome, trailers, rfl⟩ := hlast.ended
      rw [events_of_open protocol codec hstatus hended, hbytes, ofDrained_of_last hholds hlengths hlast]
      exact .answered _ _ _ _
  · rw [events, if_pos hstatus]
    exact .alone _ _

/-- The events of a response do not depend on how its body is cut into frames. -/
theorem events_recut (protocol : Protocol) (codec : Codec) {response other : Http.Response}
    (h : Recut response other) :
    (events protocol codec other : List (Event Res)) = events protocol codec response := by
  obtain ⟨hstatus, hheaders, hcontent, hfailure⟩ := h
  by_cases hgood : response.status = 200
  · cases hended : endOfHeaders? protocol response.headers with
    | some outcome =>
      rw [events_of_told codec hgood hended, events_of_told codec (hstatus.trans hgood) (hheaders ▸ hended), hheaders]
    | none =>
      rw [events_of_open protocol codec hgood hended,
        events_of_open protocol codec (hstatus.trans hgood) (hheaders ▸ hended), hheaders, hcontent, hfailure]
  · rw [events, events, hstatus, if_pos hgood, if_pos hgood]

end Exchange

namespace Remote

/-- Somebody takes a request and never answers it. -/
def Unanswered (remote : Remote) : Prop :=
  ∃ uri head respond body, remote.reach uri head = .ok respond ∧ respond body = none

/-- A request is answered by its failure or by what is in a response, if it is answered. -/
theorem whole_answer {remote : Remote} {uri : Uri} {head : Head} {respond : List Part → Option Http.Response}
    (hreach : remote.reach uri head = .ok respond) (messages : List (Except Status Bytes)) :
    Whole remote.Unanswered (remote.answer respond messages : List (Event Res) × Bool) := by
  rw [answer]
  split
  · exact .complete (.alone _ _)
  · rename_i body _
    cases hresponse : respond body with
    | some response => exact .complete (Exchange.inOrder_events _ _ _)
    | none => exact .silent ⟨uri, head, respond, body, hreach, hresponse⟩

theorem orderly_source (remote : Remote) (path : String) (options : CallOptions) :
    (remote.source path options : Source Res).Orderly remote.Unanswered := by
  rw [source]
  split
  · exact Whole.complete (.alone _ _)
  · split
    · exact Whole.complete (.alone _ _)
    · rename_i hreach
      exact whole_answer hreach

end Remote

/-- Whatever is called and whoever answers, a call over HTTP gives its end alone, or headers, messages and its end, and
nothing after that, unless somebody takes the request and never answers it. The events of a response are in that order
whatever there is in it, and they are the same for responses with the same bytes in other frames. -/
theorem exchange_inOrder {Req Res : Type} [Message Req] [Message Res] :
    (∀ (remote : Remote) (path : String) (options : CallOptions) (now : Nat) (requests : List (Req × Nat)),
      (∃ events, ((remote.start path Req Res options now).asked requests).Yields events ∧ Event.InOrder events) ∨
        remote.Unanswered ∧ ((remote.start path Req Res options now).asked requests).Stalls) ∧
    (∀ (protocol : Protocol) (codec : Codec) (response : Http.Response),
      Event.InOrder (Exchange.events protocol codec response : List (Event Res))) ∧
    ∀ (protocol : Protocol) (codec : Codec) (response other : Http.Response), Recut response other →
      (Exchange.events protocol codec other : List (Event Res)) = Exchange.events protocol codec response := by
  refine ⟨?_, Exchange.inOrder_events, fun protocol codec response other => Exchange.events_recut protocol codec⟩
  intro remote path options now requests
  exact Feed.orderly_asked (remote.orderly_source path options) requests

theorem exchange_inOrder_oneMessage :
    Event.InOrder (Exchange.events .grpc .proto Exchange.oneMessage : List (Event Empty)) ∧
      Exchange.events .grpc .proto
          { Exchange.oneMessage with body := [.data [0, 0, 0, 0, 0], .trailers Exchange.goodTrailers] } =
        (Exchange.events .grpc .proto Exchange.oneMessage : List (Event Empty)) := by
  obtain ⟨-, hordered, hrecut⟩ := @exchange_inOrder Empty Empty _ _
  have hflatten : [[0, 0, 0], [0, 0]].flatten = ([[0, 0, 0, 0, 0]].flatten : Bytes) := rfl
  exact ⟨hordered .grpc .proto Exchange.oneMessage,
    hrecut .grpc .proto _ _ (recut_chunks Exchange.oneMessage hflatten [.trailers Exchange.goodTrailers])⟩

end Client
end RpcConformance
