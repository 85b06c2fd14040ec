import RpcConformance.Proofs.Handler.Script
import RpcConformance.Proofs.Session.Move
/-!
The runs of a call that nothing hinders: no deadline, no cancellation, and a peer that stays. Whenever its requests
arrive and its events are taken, the handler does what its script says for what it has read so far
(`Unhindered.run`).
-/
namespace RpcConformance

namespace Inbound

/-- What asking for the next item of a queue can give, if nobody gave the call up. -/
inductive Polled (inbound : Inbound) (now : Nat) : Poll → Prop
  | item (item : Except Status Bytes) (arrivals : List Arrival) (h : inbound.arrivals = .item item :: arrivals) :
      Polled inbound now (.item item { inbound with arrivals })
  | ended (h : inbound.arrivals = []) (hclosed : inbound.closed = true) : Polled inbound now (.ended .gone)
  | pause (ticks : Nat) (arrivals : List Arrival) (h : inbound.arrivals = .pause ticks :: arrivals) :
      Polled inbound now (.begun { inbound with arrivals := .due (now + ticks) :: arrivals })
  | due (time : Nat) (arrivals : List Arrival) (h : inbound.arrivals = .due time :: arrivals) (htime : time ≤ now) :
      Polled inbound now (.begun { inbound with arrivals })
  | early (time : Nat) (arrivals : List Arrival) (h : inbound.arrivals = .due time :: arrivals) (htime : now < time) :
      Polled inbound now .waiting
  | starved (h : inbound.arrivals = []) (hclosed : inbound.closed = false) : Polled inbound now .waiting

theorem polled {inbound : Inbound} (h : inbound.canceled = false) (now : Nat) :
    Polled inbound now (inbound.poll now) := by
  rw [poll, if_neg (Bool.eq_false_iff.1 h)]
  split
  · rename_i hnone
    split
    · rename_i hclosed
      exact .ended hnone hclosed
    · rename_i hclosed
      exact .starved hnone (Bool.eq_false_iff.2 hclosed)
  · rename_i harrivals
    exact .item _ _ harrivals
  · rename_i harrivals
    exact .pause _ _ harrivals
  · rename_i harrivals
    split
    · rename_i htime
      exact .due _ _ harrivals htime
    · rename_i htime
      exact .early _ _ harrivals (Nat.lt_of_not_le htime)

end Inbound

namespace Session

variable {Req Res : Type} {handler : Handler Req Res}

/-- No deadline will strike, nobody gave the call up, and the peer is there; a reader that listens no more has nothing
to read. -/
structure Unhindered (session : Session handler) : Prop where
  bound : session.bound = none
  deadline : session.context.deadline = none
  canceled : session.context.canceled = false
  present : session.sink.closed = false
  kept : session.inbound.canceled = false
  gone : session.inbound.dropped = true → session.inbound = .gone

def hearsBy (session : Session handler) : Action handler.State Req Res → List Reading
  | .receive _ => if session.inbound.dropped then [] else (session.inbound.next? session.now).toList
  | _ => []

/-- What the handler reads by the next step. -/
def hears (session : Session handler) : List Reading :=
  match session.stage with
  | .running state => session.hearsBy (handler.act state)
  | _ => []

variable [Message Req] [Message Res]

/-- What the handler still does if it reads `heard` from now on. -/
def script (session : Session handler) (heard : List Reading) : List Deed :=
  match session.stage with
  | .running state | .asleep _ state =>
    handler.script session.sink.codec session.sink.headersSent session.inbound.dropped state heard
  | .closing _ | .over => []

/-- The runs of a call: what its handler read and did and what its peer took on the way to a session. The client may
send requests at any time, and close the request side. -/
inductive Run (start : Session handler) :
    Session handler → List Reading → List Deed → List (Event Bytes) → Prop
  | start : Run start start [] [] []
  | step {session next : Session handler} {heard : List Reading} {deeds : List Deed} {taken : List (Event Bytes)}
      (h : Run start session heard deeds taken) (hstep : session.step = some next) :
      Run start next (heard ++ session.hears) (deeds ++ session.deeds) taken
  | take {session rest : Session handler} {heard : List Reading} {deeds : List Deed} {taken : List (Event Bytes)}
      {event : Event Bytes} (h : Run start session heard deeds taken) (hpop : session.pop = some (event, rest)) :
      Run start rest heard deeds (taken ++ [event])
  | wait {session : Session handler} {heard : List Reading} {deeds : List Deed} {taken : List (Event Bytes)}
      (h : Run start session heard deeds taken) {time : Nat} (htime : session.now ≤ time) :
      Run start { session with now := time } heard deeds taken
  | send {session : Session handler} {heard : List Reading} {deeds : List Deed} {taken : List (Event Bytes)}
      (h : Run start session heard deeds taken) {item : Except Status Bytes} {inbound : Inbound}
      (haccepted : session.inbound.push item = .accepted inbound) : Run start { session with inbound } heard deeds taken
  | close {session : Session handler} {heard : List Reading} {deeds : List Deed} {taken : List (Event Bytes)}
      (h : Run start session heard deeds taken) :
      Run start { session with inbound := session.inbound.close } heard deeds taken

theorem Run.course {start session : Session handler} {heard : List Reading} {deeds : List Deed}
    {taken : List (Event Bytes)} (h : Run start session heard deeds taken) : Course start session deeds taken := by
  induction h with
  | start => exact .start
  | step _ hstep ih => exact ih.step hstep
  | take _ hpop ih => exact ih.take hpop
  | wait _ htime ih => exact ih.wait htime
  | send _ _ ih => exact ih.request _
  | close _ ih => exact ih.request _

theorem present_of_puts {sink next : Sink} {deeds : List Deed} (h : Puts sink deeds next) :
    next.closed = sink.closed ∧ next.codec = sink.codec := by
  cases h <;> exact ⟨rfl, rfl⟩

namespace Unhindered

variable {session next : Session handler} (h : session.Unhindered)

include h

omit [Message Req] [Message Res] in
theorem expire_eq_none : session.expire = none := by
  rw [expire, h.bound]
  rfl

omit [Message Req] [Message Res] in
/-- A session that changed neither in its context nor in what the peer did. -/
theorem withSink {sink : Sink} (hclosed : sink.closed = session.sink.closed) (stage : Stage handler.State) :
    Unhindered { session with sink, stage } :=
  ⟨h.bound, h.deadline, h.canceled, hclosed.trans h.present, h.kept, h.gone⟩

omit [Message Req] [Message Res] in
theorem withArrivals (hthere : session.inbound.dropped = false) (arrivals : List Arrival)
    (stage : Stage handler.State) : Unhindered { session with inbound := { session.inbound with arrivals }, stage } :=
  ⟨h.bound, h.deadline, h.canceled, h.present, h.kept, fun hgone => nomatch hthere.symm.trans hgone⟩

omit [Message Req] [Message Res] in
theorem withGone (stage : Stage handler.State) : Unhindered { session with inbound := .gone, stage } :=
  ⟨h.bound, h.deadline, h.canceled, h.present, rfl, fun _ => rfl⟩

theorem afterSink {deeds : List Deed} {k : Outcome → handler.State} {put : Option (Outcome × Sink)}
    (hput : ∀ outcome sink, put = some (outcome, sink) → Puts session.sink deeds sink)
    (hnext : session.afterSink k put = some next) :
    next.Unhindered ∧ ∃ outcome sink, put = some (outcome, sink) ∧ ∀ future, next.script future =
      handler.script session.sink.codec sink.headersSent session.inbound.dropped (k outcome) future := by
  match put, hnext with
  | some (outcome, sink), rfl =>
    obtain ⟨hclosed, hcodec⟩ := present_of_puts (hput outcome sink rfl)
    refine ⟨h.withSink hclosed _, outcome, sink, rfl, fun future => ?_⟩
    rw [script, hcodec]

theorem flush {k : Outcome → handler.State} (hnext : session.afterSink k session.sink.flush = some next) :
    next.Unhindered ∧ ∀ future, next.script future =
      handler.script session.sink.codec true session.inbound.dropped (k (.ok ())) future := by
  obtain ⟨hunhindered, outcome, sink, hflush, hscript⟩ :=
    h.afterSink (fun _ _ hflush => (puts_of_flush h.present hflush).2) hnext
  refine ⟨hunhindered, fun future => ?_⟩
  rw [hscript, (puts_of_flush h.present hflush).1, headersSent_of_flush hflush]

theorem sendMessage {k : Outcome → handler.State} {message : Res} (hsent : session.sink.headersSent = true)
    (hnext : session.afterSink k (session.sink.sendMessage message) = some next) :
    next.Unhindered ∧ ∀ future, next.script future =
      handler.script session.sink.codec true session.inbound.dropped
        (k ((session.sink.codec.encode message).map fun _ => ())) future := by
  obtain ⟨hunhindered, outcome, sink, hsend, hscript⟩ :=
    h.afterSink (fun _ _ hsend => puts_of_sendMessage h.present hsent hsend) hnext
  refine ⟨hunhindered, fun future => ?_⟩
  have houtcome : outcome = (session.sink.codec.encode message).map fun _ => () := by
    rw [Sink.sendMessage] at hsend
    cases hencode : session.sink.codec.encode message with
    | ok bytes =>
      rw [hencode] at hsend
      exact (push_of_present h.present hsend).1
    | error status =>
      rw [hencode] at hsend
      cases hsend
      rfl
  rw [hscript, houtcome, headersSent_of_sendMessage hsend, hsent]

theorem receive {k : Except Status (Option Req) → handler.State} {state : handler.State}
    (hstage : session.stage = .running state) (haction : handler.act state = .receive k)
    (hnext : session.act (.receive k) = some next) :
    next.Unhindered ∧ ∀ future,
      handler.scriptOf session.sink.codec session.sink.headersSent session.inbound.dropped
        (session.hearsBy (.receive k) ++ future) (.receive k) = next.script future := by
  have hpolled := Inbound.polled h.kept session.now
  simp only [Session.act] at hnext
  simp only [hearsBy, Inbound.next?]
  cases hdropped : session.inbound.dropped with
  | true =>
    rw [h.gone hdropped] at hnext
    cases hnext
    exact ⟨h.withGone _, fun future => rfl⟩
  | false =>
    generalize session.inbound.poll session.now = polled at hpolled hnext
    cases hpolled with
    | item item arrivals harrivals =>
      cases hnext
      refine ⟨h.withArrivals hdropped arrivals _, fun future => ?_⟩
      rw [script, hdropped]
      rfl
    | ended harrivals hclosed =>
      cases hnext
      exact ⟨h.withGone _, fun future => rfl⟩
    | pause ticks arrivals harrivals | due time arrivals harrivals htime =>
      cases hnext
      refine ⟨h.withArrivals hdropped _ _, fun future => ?_⟩
      simp only [script, hstage, hdropped, handler.script_eq, haction]
      rfl
    | early | starved => cases hnext

theorem act {state : handler.State} {action : Action handler.State Req Res} (hstage : session.stage = .running state)
    (haction : handler.act state = action) (hnext : session.act action = some next) :
    next.Unhindered ∧ ∀ future,
      handler.scriptOf session.sink.codec session.sink.headersSent session.inbound.dropped
        (session.hearsBy action ++ future) action = session.deedsOf action ++ next.script future := by
  cases action with
  | finish outcome | panic =>
    cases hnext
    exact ⟨h.withGone _, fun future => rfl⟩
  | hang => cases hnext
  | sleep span k | headers metadata k | trailers metadata k =>
    cases hnext
    refine ⟨h.withSink ?_ _, fun future => rfl⟩
    rfl
  | flush k =>
    obtain ⟨hunhindered, hscript⟩ := h.flush hnext
    refine ⟨hunhindered, fun future => ?_⟩
    rw [hscript]
    rfl
  | send message k =>
    simp only [Session.act] at hnext
    simp only [deedsOf]
    cases hsent : session.sink.headersSent with
    | true =>
      rw [if_pos hsent] at hnext
      obtain ⟨hunhindered, hscript⟩ := h.sendMessage hsent hnext
      refine ⟨hunhindered, fun future => ?_⟩
      rw [hscript, Handler.scriptOf]
      cases session.sink.codec.encode message <;> rfl
    | false =>
      rw [if_neg (Bool.eq_false_iff.1 hsent)] at hnext
      split at hnext
      -- the headers go first, and the same action is taken again
      · rename_i sink hflush
        cases hnext
        obtain ⟨hclosed, hcodec⟩ := present_of_puts (puts_of_flush h.present hflush).2
        refine ⟨h.withSink hclosed _, fun future => ?_⟩
        simp only [script, hstage, hcodec, headersSent_of_flush hflush, handler.script_eq, haction]
        rfl
      · rename_i hflush
        obtain ⟨-, outcome, sink, hsome, -⟩ :=
          h.afterSink (fun _ _ hsome => (puts_of_flush h.present hsome).2) hnext
        obtain rfl := (puts_of_flush h.present hsome).1
        exact absurd hsome (hflush sink)
  | receive k => exact h.receive hstage haction hnext
  | check k =>
    cases hnext
    refine ⟨h.withSink rfl _, fun future => ?_⟩
    have hcheck : session.context.check session.now = .ok () := by
      rw [Context.check, h.canceled, h.deadline]
      rfl
    simp only [hearsBy, deedsOf, script, hcheck]
    rfl
  | release k =>
    cases hnext
    exact ⟨h.withGone _, fun future => rfl⟩

theorem step (hstep : session.step = some next) :
    next.Unhindered ∧ ∀ future, session.script (session.hears ++ future) = session.deeds ++ next.script future := by
  rw [Session.step] at hstep
  rw [hears, deeds]
  split at hstep
  · cases hstep
  · rename_i hstage
    cases hstep
    refine ⟨h.withSink rfl _, fun future => ?_⟩
    simp only [script, hstage]
    rfl
  · rename_i event left hstage
    split at hstep
    · rename_i sink hpush
      cases hstep
      refine ⟨h.withSink ?_ _, fun future => ?_⟩
      · rw [(push_of_present h.present hpush).2]
      · simp only [script, hstage]
        rfl
    · rename_i hpush
      cases (push_of_present h.present hpush).1
    · cases hstep
  · rename_i wakes state hstage
    split at hstep
    · rename_i hwakes
      cases hstep
      refine ⟨h.withSink rfl _, fun future => ?_⟩
      simp only [script, hstage, hwakes]
      rfl
    · rw [h.expire_eq_none] at hstep
      cases hstep
  · rename_i state hstage
    split at hstep
    · rename_i hact
      cases hstep
      obtain ⟨hunhindered, hscript⟩ := h.act hstage rfl hact
      refine ⟨hunhindered, fun future => ?_⟩
      have hself : session.script (session.hearsBy (handler.act state) ++ future) =
          handler.scriptOf session.sink.codec session.sink.headersSent session.inbound.dropped
            (session.hearsBy (handler.act state) ++ future) (handler.act state) := by
        rw [← handler.script_eq]
        simp only [script, hstage]
      simp only [hstage, hact, Option.isSome_some, if_true]
      rw [hself, hscript]
    · rw [h.expire_eq_none] at hstep
      cases hstep

end Unhindered

/-- At every moment of a run the handler has done what the script says for what it has read so far, whatever it reads
from then on. -/
theorem Unhindered.run {start session : Session handler} (h : start.Unhindered) {heard : List Reading}
    {deeds : List Deed} {taken : List (Event Bytes)} (hrun : Run start session heard deeds taken) :
    session.Unhindered ∧ ∀ future, start.script (heard ++ future) = deeds ++ session.script future := by
  induction hrun with
  | start => exact ⟨h, fun _ => rfl⟩
  | step _ hstep ih =>
    obtain ⟨hsession, hscript⟩ := ih
    obtain ⟨hnext, hread⟩ := hsession.step hstep
    refine ⟨hnext, fun future => ?_⟩
    rw [List.append_assoc, hscript, hread, List.append_assoc]
  | take _ hpop ih =>
    obtain ⟨hsession, hscript⟩ := ih
    rw [pop] at hpop
    split at hpop
    · cases hpop
      refine ⟨hsession.withSink ?_ _, hscript⟩
      rfl
    · cases hpop
  | wait _ _ ih =>
    obtain ⟨hsession, hscript⟩ := ih
    exact ⟨⟨hsession.bound, hsession.deadline, hsession.canceled, hsession.present, hsession.kept, hsession.gone⟩,
      hscript⟩
  | send _ haccepted ih =>
    obtain ⟨hsession, hscript⟩ := ih
    rw [Inbound.push] at haccepted
    split at haccepted
    · cases haccepted
    · rename_i hthere
      split at haccepted
      · cases haccepted
        exact ⟨hsession.withArrivals (Bool.eq_false_iff.2 hthere) _ _, hscript⟩
      · cases haccepted
  | close _ ih =>
    obtain ⟨hsession, hscript⟩ := ih
    refine ⟨⟨hsession.bound, hsession.deadline, hsession.canceled, hsession.present, hsession.kept, ?_⟩, hscript⟩
    intro hgone
    rw [hsession.gone hgone]
    rfl

end Session
end RpcConformance
