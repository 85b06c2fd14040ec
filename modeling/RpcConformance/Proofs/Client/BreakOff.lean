import RpcConformance.Proofs.Client.Outcome
import RpcConformance.Proofs.Client.Unary
import RpcConformance.Proofs.Session.Received
/-!
Calls whose response breaks off: it brings messages, and then it has no end, or one that tells a failure
(`Event.Fails`). A client that waits for one message after the other gets those messages and then the failure, again and
again; and however long it waits each time, it is never told of a good end (`Link.dies_of_unfolds`). A call with one
response has none then (`Call.unary_ne_ok`).

Of a link only the events that are left on it matter (`Link.Unfolds`). What is left is known of a response that is there
(`Feed.unfolds`) and of a session that comes to its end (`Served.unfolds`).
-/
namespace RpcConformance

/-- The events of a response that brings messages and then fails, because its end says so or because it has none. -/
inductive Event.Fails {Res : Type} : Status → List Res → List (Event Res) → Prop
  | closed : Fails Client.Call.unfinished [] []
  | ended (status : Status) (trailers : Metadata) : Fails status [] [.ended (.error status) trailers]
  | headers {status : Status} {messages : List Res} {events : List (Event Res)} (metadata : Metadata)
      (h : Fails status messages events) : Fails status messages (.headers metadata :: events)
  | message {status : Status} {messages : List Res} {events : List (Event Res)} (message : Res)
      (h : Fails status messages events) : Fails status (message :: messages) (.message message :: events)

theorem Event.fails_messages {α : Type} (messages : List α) (status : Status) (trailers : Metadata) :
    Fails status messages (messages.map .message ++ [.ended (.error status) trailers]) := by
  induction messages with
  | nil => exact .ended status trailers
  | cons message messages ih => exact ih.message message

namespace Client

/-- What is left on links: whoever waits for the next event gets the first of those that are left. A wait that is not
up to the horizon may be in vain, and then nothing is lost. The clock does not pass `latest`. -/
structure Link.Unfolds {L Req Res : Type} [Link L Req Res] (horizon latest : Nat) (left : L → List (Event Res) → Prop) :
    Prop where
  horizon_le : horizon ≤ latest
  now_le : ∀ {link events}, left link events → Link.now link ≤ latest
  receive : ∀ {link events}, left link events → ∃ rest, left rest events.tail ∧
    ∀ time, Link.receive link time = (.first events, rest) ∨
      time < horizon ∧ ∃ later, Link.receive link time = (.blocked, later) ∧ left later events

namespace Call

variable {L Req Res : Type} [Link L Req Res]

/-- What a client gets that waits for one message after the other, each time up to a limit of its own. -/
def receiveAll (call : Call L) : List Nat → List (Except Halt (Option Res))
  | [] => []
  | limit :: limits => (call.receive limit).1 :: (call.receive limit).2.receiveAll limits

/-- The client is told messages and then a failure if it waits long enough each time and the call has time enough. It is
never told of a good end, and a call that should have one response has none. -/
structure Dies (horizon latest : Nat) (status : Status) (messages : List Res) (call : Call L) : Prop where
  tells : (∀ time, call.deadline = some time → latest < time) → ∀ limits extra, (∀ limit ∈ limits, horizon ≤ limit) →
    limits.length = messages.length + extra →
      call.receiveAll limits =
        messages.map (fun message => .ok (some message)) ++ List.replicate extra (.error (.failed status))
  never : ∀ limits, .ok none ∉ call.receiveAll limits
  alone : call.sending = false → ∀ limit response rest, call.closeAndReceive limit ≠ (.ok response, rest)

end Call

/-- So does every call over a link, unless it has an outcome already. -/
def Link.Dies {L Req Res : Type} [Link L Req Res] (horizon : Nat) (status : Status) (messages : List Res) (link : L) :
    Prop :=
  ∀ call : Call L, call.link = link → call.outcome = none → call.listening = true →
    call.Dies horizon (max (Link.now link) horizon) status messages

namespace Call

variable {L Req Res : Type} [Link L Req Res]

/-- A call without an outcome, on whose link messages are left and then a failure. -/
structure Hears (left : L → List (Event Res) → Prop) (deadline : Option Nat) (status : Status) (messages : List Res)
    (call : Call L) : Prop where
  outcome : call.outcome = none
  listening : call.listening = true
  deadline_eq : call.deadline = deadline
  left : ∃ events, left call.link events ∧ Event.Fails status messages events

/-- What comes of waiting for a message: the next one, or the failure after the last one. A client that does not wait
long enough (`late`) may also have waited in vain, or be told that its time is over. -/
inductive Fares (left : L → List (Event Res) → Prop) (deadline : Option Nat) (status : Status) (late : Prop) :
    List Res → Except Halt (Option Res) × Call L → Prop
  | message {message : Res} {messages : List Res} {rest : Call L} (h : rest.Hears left deadline status messages) :
    Fares left deadline status late (message :: messages) (.ok (some message), rest)
  | failed {rest : Call L} (h : rest.outcome = some (.error status)) :
    Fares left deadline status late [] (.error (.failed status), rest)
  | waits {messages : List Res} {rest : Call L} (hlate : late) (h : rest.Hears left deadline status messages) :
    Fares left deadline status late messages (.error .blocked, rest)
  | expired {messages : List Res} {rest : Call L} (hlate : late) (h : rest.outcome = some (.error Context.expired)) :
    Fares left deadline status late messages (.error (.failed Context.expired), rest)

/-- The client waits up to the horizon, and the deadline is later than that and than any time the link comes to. -/
def InTime (horizon latest : Nat) (deadline : Option Nat) (limit : Nat) : Prop :=
  horizon ≤ limit ∧ ∀ time, deadline = some time → latest < time

section Listen

variable {call : Call L} {limit : Nat} {link : L}

theorem listen_of_closed (houtcome : call.outcome = none) (hlistening : call.listening = true)
    (h : Link.receive call.link (call.horizon limit) = (.closed, link)) :
    call.listen limit = (.error (.failed unfinished), { call with link, outcome := some (.error unfinished) }) := by
  rw [listen]
  simp only [houtcome, hlistening, if_true]
  split <;> simp_all

theorem listen_of_blocked (houtcome : call.outcome = none) (hlistening : call.listening = true)
    (h : Link.receive call.link (call.horizon limit) = (.blocked, link)) :
    call.listen limit = { call with link }.timeUp limit := by
  rw [listen]
  simp only [houtcome, hlistening, if_true]
  split <;> simp_all

theorem receiveAll_of_failed {status : Status} (h : call.outcome = some (.error status)) (limits : List Nat) :
    call.receiveAll limits = List.replicate limits.length (.error (.failed status)) := by
  induction limits with
  | nil => rfl
  | cons limit limits ih =>
    rw [receiveAll, receive_of_outcome h, ih]
    rfl

end Listen

section Unfolding

variable {left : L → List (Event Res) → Prop} {horizon latest : Nat} {deadline : Option Nat} {status : Status}
  {messages : List Res} {call : Call L} {late : Prop}

theorem Hears.timeUp (h : call.Hears left deadline status messages) (hlate : late) (limit : Nat) :
    Fares left deadline status late messages (call.timeUp limit) := by
  rw [Call.timeUp]
  split
  · split
    · exact .expired hlate rfl
    · exact .waits hlate h
  · exact .waits hlate h

theorem fares_of_blocked (houtcome : call.outcome = none) (hlistening : call.listening = true)
    (hdeadline : call.deadline = deadline) {limit : Nat} {later : L} {events : List (Event Res)}
    (hblocked : Link.receive call.link (call.horizon limit) = (.blocked, later)) (hlater : left later events)
    (hfails : Event.Fails status messages events) (hlate : late) :
    Fares left deadline status late messages (call.listen limit) := by
  have hhears : { call with link := later }.Hears left deadline status messages :=
    ⟨houtcome, hlistening, hdeadline, events, hlater, hfails⟩
  rw [listen_of_blocked houtcome hlistening hblocked]
  exact hhears.timeUp hlate limit

section Steps

variable (hunfolds : Link.Unfolds horizon latest left)

include hunfolds

/-- By induction on the events: headers are kept on the way to a message or the end. -/
theorem Hears.listen (h : call.Hears left deadline status messages) {limit : Nat}
    (hlate : call.horizon limit < horizon → late) :
    Fares left deadline status late messages (call.listen limit) := by
  obtain ⟨houtcome, hlistening, hdeadline, events, hleft, hfails⟩ := h
  induction hfails generalizing call with
  | closed =>
    obtain ⟨rest, hrest, hreceive⟩ := hunfolds.receive hleft
    rcases hreceive (call.horizon limit) with hnext | ⟨hearly, later, hblocked, hlater⟩
    · rw [listen_of_closed houtcome hlistening hnext]
      exact .failed rfl
    · exact fares_of_blocked houtcome hlistening hdeadline hblocked hlater .closed (hlate hearly)
  | ended status trailers =>
    obtain ⟨rest, hrest, hreceive⟩ := hunfolds.receive hleft
    rcases hreceive (call.horizon limit) with hnext | ⟨hearly, later, hblocked, hlater⟩
    · rw [listen_of_ended houtcome hlistening hnext]
      exact .failed rfl
    · exact fares_of_blocked houtcome hlistening hdeadline hblocked hlater (.ended _ _) (hlate hearly)
  | headers metadata hfails ih =>
    obtain ⟨rest, hrest, hreceive⟩ := hunfolds.receive hleft
    rcases hreceive (call.horizon limit) with hnext | ⟨hearly, later, hblocked, hlater⟩
    · rw [listen_of_headers houtcome hlistening hnext]
      exact ih hlate houtcome hlistening hdeadline hrest
    · exact fares_of_blocked houtcome hlistening hdeadline hblocked hlater (hfails.headers _) (hlate hearly)
  | message message hfails ih =>
    obtain ⟨rest, hrest, hreceive⟩ := hunfolds.receive hleft
    rcases hreceive (call.horizon limit) with hnext | ⟨hearly, later, hblocked, hlater⟩
    · rw [listen_of_message houtcome hlistening hnext]
      exact .message ⟨houtcome, hlistening, hdeadline, _, hrest, hfails⟩
    · exact fares_of_blocked houtcome hlistening hdeadline hblocked hlater (hfails.message _) (hlate hearly)

theorem Hears.receive (h : call.Hears left deadline status messages) (limit : Nat) :
    Fares left deadline status (¬InTime horizon latest deadline limit) messages (call.receive limit) := by
  obtain ⟨events, hleft, -⟩ := h.left
  have hnow : call.now ≤ latest := hunfolds.now_le hleft
  rw [Call.receive]
  by_cases hexpired : ∃ time, deadline = some time ∧ time ≤ call.now
  · obtain ⟨time, hdeadline, hcome⟩ := hexpired
    rw [expire_of_late (h.deadline_eq.trans hdeadline) hcome h.outcome, listen_of_outcome rfl]
    refine .expired (fun hintime => ?_) rfl
    have hlater := hintime.2 time hdeadline
    omega
  · have hexpire : call.expire = call := by
      cases hsome : deadline with
      | none => exact expire_of_endless (h.deadline_eq.trans hsome)
      | some time =>
        have hearly : ¬time ≤ call.now := fun hcome => hexpired ⟨time, hsome, hcome⟩
        simp [Call.expire, Context.isExpired, h.deadline_eq, hsome, hearly]
    rw [hexpire]
    refine h.listen hunfolds fun hearly hintime => ?_
    rw [Call.horizon, h.deadline_eq] at hearly
    cases hsome : deadline with
    | none =>
      rw [hsome] at hearly
      exact absurd hintime.1 (Nat.not_le_of_lt hearly)
    | some time =>
      rw [hsome] at hearly
      have hlater := hintime.2 time hsome
      have hlimit := hintime.1
      have hhorizon := hunfolds.horizon_le
      simp only at hearly
      omega

theorem Hears.ne_good_end (h : call.Hears left deadline status messages) {limit : Nat} {rest : Call L} :
    call.receive limit ≠ (.ok none, rest) := by
  intro hreceive
  have hfares := h.receive hunfolds limit
  rw [hreceive] at hfares
  cases hfares

/-- However long the client waits each time, it is never told of a good end. -/
theorem Hears.none_notMem (h : call.Hears left deadline status messages) (limits : List Nat) :
    .ok none ∉ call.receiveAll limits := by
  induction limits generalizing call messages with
  | nil => exact List.not_mem_nil
  | cons limit limits ih =>
    have hfailed {rest : Call L} {status : Status} (hrest : rest.outcome = some (.error status)) :
        .ok none ∉ rest.receiveAll limits := by
      rw [receiveAll_of_failed hrest]
      exact fun hmem => nomatch List.eq_of_mem_replicate hmem
    have hfares := h.receive hunfolds limit
    rw [receiveAll]
    generalize call.receive limit = found at hfares ⊢
    cases hfares with
    | message hrest => exact List.not_mem_cons_of_ne_of_not_mem nofun (ih hrest)
    | failed hrest => exact List.not_mem_cons_of_ne_of_not_mem nofun (hfailed hrest)
    | waits _ hrest => exact List.not_mem_cons_of_ne_of_not_mem nofun (ih hrest)
    | expired _ hrest => exact List.not_mem_cons_of_ne_of_not_mem nofun (hfailed hrest)

/-- A client that waits long enough is told the messages and then the failure. -/
theorem Hears.receiveAll (h : call.Hears left deadline status messages) {limits : List Nat} {extra : Nat}
    (hintime : ∀ limit ∈ limits, InTime horizon latest deadline limit)
    (hlength : limits.length = messages.length + extra) :
    call.receiveAll limits =
      messages.map (fun message => .ok (some message)) ++ List.replicate extra (.error (.failed status)) := by
  induction limits generalizing call messages with
  | nil =>
    obtain ⟨hmessages, rfl⟩ : messages.length = 0 ∧ extra = 0 := by
      rw [List.length_nil] at hlength
      omega
    rw [List.length_eq_zero_iff.1 hmessages]
    rfl
  | cons limit limits ih =>
    obtain ⟨hfirst, hothers⟩ := List.forall_mem_cons.1 hintime
    have hfares := h.receive hunfolds limit
    rw [Call.receiveAll]
    generalize call.receive limit = found at hfares ⊢
    cases hfares with
    | message hrest =>
      rw [ih hrest hothers (by simp only [List.length_cons] at hlength; omega)]
      rfl
    | failed hrest =>
      rw [receiveAll_of_failed hrest, ← List.replicate_succ, ← List.length_cons, hlength]
      simp
    | waits hlate | expired hlate => exact absurd hfirst hlate

theorem closeAndReceive_ne_ok (h : call.closeSend.Hears left deadline status messages) {limit : Nat}
    {response : Response Res} {rest : Call L} : call.closeAndReceive limit ≠ (.ok response, rest) := by
  intro hresponse
  have hfares := h.receive hunfolds limit
  unfold closeAndReceive at hresponse
  split at hresponse
  · cases hresponse
  · cases hresponse
  · rename_i message first hfirst
    rw [hfirst] at hfares
    cases hfares with
    | message hrest =>
      split at hresponse
      · cases hresponse
      · cases hresponse
      · rename_i hsecond
        exact hrest.ne_good_end hunfolds hsecond

theorem dies_of_hears (h : call.Hears left deadline status messages) : call.Dies horizon latest status messages where
  tells hdeadline limits extra hlimits hlength :=
    h.receiveAll hunfolds (fun limit hmem => ⟨hlimits limit hmem, h.deadline_eq ▸ hdeadline⟩) hlength
  never := h.none_notMem hunfolds
  alone hclosed limit response rest := by
    have hclose : call.closeSend = call := by
      rw [closeSend, hclosed]
      rfl
    exact closeAndReceive_ne_ok hunfolds (hclose.symm ▸ h)

/-- A call with one request, over a link that takes it and then has messages left and a failure. -/
theorem unary_ne_ok {opened taken : L} {request : Req}
    (hsend : ∀ time, Link.send opened request time = (.accepted, taken)) {events : List (Event Res)}
    (hleft : left (Link.closeSend taken) events) (hfails : Event.Fails status messages events) {limit : Nat}
    {response : Response Res} {rest : Call L} :
    ({ link := opened, deadline } : Call L).unary request limit ≠ (.ok response, rest) := by
  have hclosed : ({ link := taken, deadline } : Call L).closeSend.Hears left deadline status messages :=
    ⟨rfl, rfl, rfl, events, hleft, hfails⟩
  have hsent : ({ link := opened, deadline } : Call L).send request limit = (.ok (), { link := taken, deadline }) ∨
      ({ link := opened, deadline } : Call L).send request limit =
        (.error (.failed Context.expired), ({ link := opened, deadline } : Call L).abandon Context.expired) := by
    rw [send, expire]
    cases Context.isExpired deadline (Call.now { link := opened, deadline }) with
    | true => exact .inr rfl
    | false => exact .inl (by simp [failure?, hsend])
  intro hunary
  unfold unary sendOnly at hunary
  rcases hsent with hsent | hsent
  · rw [hsent] at hunary
    exact closeAndReceive_ne_ok hunfolds hclosed hunary
  · rw [hsent] at hunary
    cases hunary

end Steps

end Unfolding

end Call

theorem Link.dies_of_unfolds {L Req Res : Type} [Link L Req Res] {horizon : Nat} {link : L}
    {left : L → List (Event Res) → Prop} (hunfolds : Link.Unfolds horizon (max (Link.now link) horizon) left)
    {events : List (Event Res)} (hleft : left link events) {status : Status} {messages : List Res}
    (hfails : Event.Fails status messages events) : Link.Dies horizon status messages link := by
  rintro call rfl houtcome hlistening
  exact Call.dies_of_hears hunfolds ⟨houtcome, hlistening, rfl, events, hleft, hfails⟩

/-- What is left of a response that is there: no wait is in vain. -/
theorem Feed.unfolds (Req Res : Type) [Message Req] (latest : Nat) :
    Link.Unfolds (L := Feed Req Res) 0 latest fun feed events =>
      feed.source = .ready events true ∧ feed.now ≤ latest where
  horizon_le := Nat.zero_le latest
  now_le h := h.2
  receive {feed events} h := by
    refine ⟨{ feed with source := .ready events.tail true }, ⟨rfl, h.2⟩, fun time => .inl ?_⟩
    show feed.receive time = _
    rw [Feed.receive, h.1]
    cases events with
    | nil => simp [Received.first, ← h.1]
    | cons event events => rfl

namespace Served

variable {service : Service} {path : String} {Req Res : Type} [Message Req] [Message Res]

/-- What is left of a call in the same process that is over by the horizon: the events of its session, whose messages
can be read. -/
def Left (codec : Codec) (horizon latest : Nat) (served : Served service path Req Res) (events : List (Event Res)) :
    Prop :=
  ∃ written, served.session.completeEvents? horizon = some written ∧
    List.Forall₂ (fun event event' => readEvent codec event = .ok event') written events ∧
      served.session.now ≤ latest ∧ served.session.sink.codec = codec

theorem unfolds (codec : Codec) {horizon latest : Nat} (hhorizon : horizon ≤ latest) :
    Link.Unfolds (L := Served service path Req Res) horizon latest (Left codec horizon latest) where
  horizon_le := hhorizon
  now_le h := by
    obtain ⟨-, -, -, hnow, -⟩ := h
    exact hnow
  receive {served events} h := by
    obtain ⟨written, hcomplete, hread, hnow, hcodec⟩ := h
    obtain ⟨rest, hrest, hreceive⟩ := Session.leads_of_complete hcomplete
    have hkept {later : Session (service.endpoint path).handler} {left : List (Event Bytes)} {events : List (Event Res)}
        (hlater : served.session.Keeps horizon later left)
        (hread : List.Forall₂ (fun event event' => readEvent codec event = .ok event') left events) :
        Left codec horizon latest (⟨later⟩ : Served service path Req Res) events :=
      ⟨left, hlater.complete, hread, Nat.le_trans hlater.now_le (Nat.max_le.2 ⟨hnow, hhorizon⟩),
        hlater.codec.trans hcodec⟩
    refine ⟨⟨rest⟩, hkept hrest ?_, fun time => ?_⟩
    · cases hread with
      | nil => exact .nil
      | cons _ hothers => exact hothers
    · show served.receive time = _ ∨ _ ∧ ∃ later, served.receive time = _ ∧ _
      rcases hreceive time with hnext | ⟨hearly, later, hblocked, hlater⟩
      · refine .inl ?_
        rw [receive, hnext]
        cases hread with
        | nil => rfl
        | @cons event event' left events hevent hothers =>
          have hdeliver : @deliver service path Req Res _ rest event = (event', ⟨rest⟩) :=
            deliver_of_read (hrest.codec.trans hcodec) hevent
          simp only [Received.first, hdeliver]
      · refine .inr ⟨hearly, ⟨later⟩, ?_, hkept hlater hread⟩
        rw [receive, hblocked]

end Served

end Client
end RpcConformance
