import RpcConformance.Proofs.Session.Answering
import RpcConformance.Proofs.Session.Events
import RpcConformance.Proofs.Session.Run
/-!
A call that nothing hinders comes to where its script leads for all its requests, if its peer takes what comes and
waits long enough: the events of the call do not depend on when the requests arrive (`Unhindered.completes`).
-/
namespace RpcConformance

namespace Arrival

def item? : Arrival → Option (Except Status Bytes)
  | .item found => some found
  | .pause _ | .due _ => none

end Arrival

namespace Inbound

def items (inbound : Inbound) : List (Except Status Bytes) := inbound.arrivals.filterMap Arrival.item?

/-- What there is to be read of a queue, sooner or later. -/
def readings (inbound : Inbound) : List Reading :=
  if inbound.dropped then []
  else inbound.items.map .item ++ if inbound.closed then [.ended] else []

/-- What a queue leaves to be read if anyone reads it. A reader that has gone may have left anything. -/
def Leaves (inbound : Inbound) (unread : List Reading) : Prop :=
  inbound.dropped = false → inbound.readings = unread

end Inbound

namespace Session

variable {Req Res : Type} {handler : Handler Req Res} [Message Req] [Message Res] {session next : Session handler}

section Stages

omit [Message Req] [Message Res]

theorem isActive_of_wake {wake : Nat} (h : session.wake? = some wake) : session.isActive = true := by
  rw [wake?] at h
  rw [isActive]
  split at h <;> simp_all

theorem not_isOver_of_active (h : session.isActive = true) : ¬session.isOver = true := by
  rw [isActive] at h
  rw [isOver]
  split at h <;> simp_all

theorem Accounted.withNow {deeds : List Deed} {taken : List (Event Bytes)} (h : Accounted session deeds taken)
    (time : Nat) : Accounted { session with now := time } deeds taken :=
  ⟨h.present, h.room, h.events, h.active, h.panicked⟩

end Stages

section Sinks

variable {sink : Sink} (hpresent : sink.closed = false) (hroom : 0 < sink.capacity) (hqueue : sink.queue = [])

include hpresent hroom hqueue

theorem exists_push (event : Event Bytes) : ∃ next, sink.push event = some (.ok (), next) := by
  rw [Sink.push, if_neg (Bool.eq_false_iff.1 hpresent), hqueue, List.length_nil, if_pos hroom]
  exact ⟨_, rfl⟩

theorem flush_ne_none : sink.flush ≠ none := by
  rw [Sink.flush]
  split
  · exact Option.some_ne_none _
  · obtain ⟨next, hpush⟩ :=
      @exists_push { sink with headers := .empty, headersSent := true } hpresent hroom hqueue (.headers sink.headers)
    rw [hpush]
    exact Option.some_ne_none _

theorem sendMessage_ne_none (message : Res) : sink.sendMessage message ≠ none := by
  rw [Sink.sendMessage]
  split
  · rename_i bytes _
    obtain ⟨next, hpush⟩ := exists_push hpresent hroom hqueue (.message bytes)
    rw [hpush]
    exact Option.some_ne_none _
  · exact Option.some_ne_none _

end Sinks

/-- A peer that took `taken` and then takes what comes gets the events of `deeds` in all, if it waits long enough, and
the end if the handler returns by them. -/
def Brings (session : Session handler) (deeds : List Deed) (taken : List (Event Bytes)) : Prop :=
  ∃ bound, ∀ horizon, bound ≤ horizon →
    taken ++ (session.transcript horizon).1.map (·.2) = Deed.account deeds ∧
      ((session.transcript horizon).2 = true ∨ Deed.returned? deeds = none)

namespace Brings

variable {deeds : List Deed} {taken : List (Event Bytes)}

theorem of_step (hstep : session.step = some next) (h : next.Brings deeds taken) : session.Brings deeds taken := by
  obtain ⟨bound, hbound⟩ := h
  refine ⟨bound, fun horizon hle => ?_⟩
  rw [transcript_of_step hstep]
  exact hbound horizon hle

theorem of_pop {rest : Session handler} {event : Event Bytes} (hstep : session.step = none)
    (hpop : session.pop = some (event, rest)) (h : rest.Brings deeds (taken ++ [event])) :
    session.Brings deeds taken := by
  obtain ⟨bound, hbound⟩ := h
  refine ⟨bound, fun horizon hle => ?_⟩
  obtain ⟨hevents, hcomplete⟩ := hbound horizon hle
  rw [List.append_assoc] at hevents
  rw [transcript_of_pop hstep hpop]
  exact ⟨hevents, hcomplete⟩

theorem of_wake (hquiet : session.Quiet) {wake : Nat} (hwake : session.wake? = some wake) (hlater : session.now < wake)
    (h : Brings { session with now := wake } deeds taken) : session.Brings deeds taken := by
  obtain ⟨bound, hbound⟩ := h
  refine ⟨max bound wake, fun horizon hle => ?_⟩
  have hreached : session.now < wake ∧ wake ≤ horizon := ⟨hlater, Nat.le_trans (Nat.le_max_right _ _) hle⟩
  rw [transcript_of_quiet hquiet.step hquiet.pop, if_neg (not_isOver_of_active (isActive_of_wake hwake)), hwake]
  simp only [if_pos hreached]
  exact hbound horizon (Nat.le_trans (Nat.le_max_left _ _) hle)

theorem of_over (hover : session.stage = .over) (haccounted : Accounted session deeds taken) :
    session.Brings deeds taken := by
  have hevents := haccounted.events
  rw [left, hover, List.append_nil] at hevents
  refine ⟨0, fun horizon _ => ?_⟩
  rw [transcript_of_over horizon hover, ← hevents, List.map_map]
  exact ⟨congrArg _ (List.map_id _), .inl rfl⟩

theorem of_stalled (hquiet : session.Quiet) (hactive : session.isActive = true) (hwake : session.wake? = none)
    (haccounted : Accounted session deeds taken) : session.Brings deeds taken := by
  have hevents := haccounted.events
  rw [left_of_active hactive, queue_of_pop hquiet.pop, List.append_nil] at hevents
  refine ⟨0, fun horizon _ => ?_⟩
  rw [transcript_of_quiet hquiet.step hquiet.pop, if_neg (not_isOver_of_active hactive), hwake, ← hevents]
  exact ⟨rfl, .inr (haccounted.active hactive).pending⟩

end Brings

/-- Why nothing happens to a session now: the call is over, something will happen at a time that is known, or nothing
will happen any more and the handler has done all that the script says. -/
inductive Resting (session : Session handler) : Prop
  | ended (h : session.stage = .over)
  | waiting (wake : Nat) (next : Session handler) (hwake : session.wake? = some wake) (hlater : session.now < wake)
      (hnext : Session.step { session with now := wake } = some next)
  | stalled (h : session.isActive = true) (hwake : session.wake? = none)
      (hscript : session.script session.inbound.readings = [])

theorem script_of_leaves {unread : List Reading} (h : session.inbound.Leaves unread) :
    session.script unread = session.script session.inbound.readings := by
  cases hdropped : session.inbound.dropped with
  | false => rw [h hdropped]
  | true =>
    rw [script, script, hdropped]
    cases session.stage with
    | running state | asleep wakes state => exact handler.script_gone _ _ _ _ _
    | _ => rfl

/-- Only reading takes something out of the queue; some actions give up the whole of it. -/
theorem inbound_of_act {action : Action handler.State Req Res} (hother : ∀ k, action ≠ .receive k)
    (hact : session.act action = some next) : next.inbound = session.inbound ∨ next.inbound = .gone := by
  have hput {k : Outcome → handler.State} {put : Option (Outcome × Sink)} (h : session.afterSink k put = some next) :
      next.inbound = session.inbound := by
    match put, h with
    | some (outcome, sink), rfl => rfl
  cases action with
  | receive k => exact absurd rfl (hother k)
  | finish | panic | release =>
    cases hact
    exact .inr rfl
  | hang => cases hact
  | sleep | headers | trailers | check =>
    cases hact
    exact .inl rfl
  | flush k => exact .inl (hput hact)
  | send message k =>
    simp only [act] at hact
    split at hact
    · exact .inl (hput hact)
    · split at hact
      · cases hact
        exact .inl rfl
      · exact .inl (hput hact)

namespace Unhindered

variable (h : session.Unhindered)

include h

theorem receive_readings {k : Except Status (Option Req) → handler.State}
    (hnext : session.act (.receive k) = some next) :
    ∃ future, session.inbound.readings = session.hearsBy (.receive k) ++ future ∧ next.inbound.Leaves future := by
  have hpolled := Inbound.polled h.kept session.now
  simp only [Session.act] at hnext
  simp only [hearsBy, Inbound.next?]
  cases hdropped : session.inbound.dropped with
  | true =>
    rw [h.gone hdropped] at hnext
    cases hnext
    exact ⟨_, rfl, fun hthere => by cases hthere⟩
  | false =>
    generalize session.inbound.poll session.now = polled at hpolled hnext
    cases hpolled with
    | item item arrivals harrivals =>
      cases hnext
      refine ⟨_, ?_, fun _ => rfl⟩
      simp only [Inbound.readings, Inbound.items, hdropped, harrivals]
      rfl
    | ended harrivals hclosed =>
      cases hnext
      refine ⟨[], ?_, fun hthere => by cases hthere⟩
      simp only [Inbound.readings, Inbound.items, hdropped, harrivals, hclosed]
      rfl
    | pause ticks arrivals harrivals | due time arrivals harrivals htime =>
      cases hnext
      refine ⟨_, ?_, fun _ => rfl⟩
      simp only [Inbound.readings, Inbound.items, hdropped, harrivals]
      rfl
    | early | starved => cases hnext

/-- What a step reads is the next thing to be read, unless the handler gives up reading. -/
theorem step_readings (hstep : session.step = some next) :
    ∃ future, session.inbound.readings = session.hears ++ future ∧ next.inbound.Leaves future := by
  have hkept (hsame : next.inbound = session.inbound ∨ next.inbound = .gone) :
      next.inbound.Leaves session.inbound.readings := by
    intro hthere
    rcases hsame with hsame | hgone
    · rw [hsame]
    · rw [hgone] at hthere
      cases hthere
  rw [Session.step] at hstep
  rw [hears]
  split at hstep
  · cases hstep
  · rename_i hstage
    cases hstep
    rw [hstage]
    exact ⟨_, rfl, fun _ => rfl⟩
  · rename_i event left hstage
    rw [hstage]
    split at hstep
    · cases hstep
      exact ⟨_, rfl, fun _ => rfl⟩
    · cases hstep
      exact ⟨_, rfl, fun _ => rfl⟩
    · cases hstep
  · rename_i wakes state hstage
    rw [hstage]
    split at hstep
    · cases hstep
      exact ⟨_, rfl, fun _ => rfl⟩
    · rw [h.expire_eq_none] at hstep
      cases hstep
  · rename_i state hstage
    rw [hstage]
    simp only
    split at hstep
    · rename_i hact
      cases hstep
      cases haction : handler.act state with
      | receive k =>
        rw [haction] at hact
        exact h.receive_readings hact
      | _ =>
        refine ⟨_, rfl, hkept (inbound_of_act ?_ hact)⟩
        intro k hreceive
        rw [haction] at hreceive
        cases hreceive
    · rw [h.expire_eq_none] at hstep
      cases hstep

/-- One step of all that the script says for the requests that there are. -/
theorem step_whole (hstep : session.step = some next) :
    session.script session.inbound.readings = session.deeds ++ next.script next.inbound.readings := by
  obtain ⟨hnext, hscript⟩ := h.step hstep
  obtain ⟨future, hreadings, hfuture⟩ := h.step_readings hstep
  -- a handler that gave up reading does not care for what it leaves
  rw [hreadings, hscript, script_of_leaves hfuture]

theorem act_eq_none (hroom : 0 < session.sink.capacity) (hqueue : session.sink.queue = [])
    {action : Action handler.State Req Res} (hact : session.act action = none) :
    action = .hang ∨ ∃ k, action = .receive k := by
  have hput {k : Outcome → handler.State} {put : Option (Outcome × Sink)} (hsome : put ≠ none) :
      session.afterSink k put ≠ none := by
    cases put with
    | none => exact absurd rfl hsome
    | some => exact Option.some_ne_none _
  have hflush := @flush_ne_none session.sink h.present hroom hqueue
  cases action with
  | hang => exact .inl rfl
  | receive k => exact .inr ⟨k, rfl⟩
  | flush k => exact absurd hact (hput hflush)
  | send message k =>
    simp only [Session.act] at hact
    split at hact
    · exact absurd hact (hput (sendMessage_ne_none h.present hroom hqueue message))
    · split at hact
      · cases hact
      · exact absurd hact (hput hflush)
  | _ => cases hact

/-- A handler that waits for a request at a session at which nothing can happen now. -/
theorem resting_of_receive {state : handler.State} {k : Except Status (Option Req) → handler.State}
    (hstage : session.stage = .running state) (haction : handler.act state = .receive k)
    (hact : session.act (.receive k) = none) : session.Resting := by
  have hpolled := Inbound.polled h.kept session.now
  simp only [Session.act] at hact
  generalize session.inbound.poll session.now = polled at hpolled hact
  cases hpolled with
  | item | ended | pause | due => cases hact
  | early time arrivals harrivals hearly =>
    have hdue : session.inbound.poll time = .begun { session.inbound with arrivals } := by
      simp only [Inbound.poll, h.kept, harrivals, Nat.le_refl, Bool.false_eq_true, if_false, if_true]
    refine .waiting time { session with now := time, inbound := { session.inbound with arrivals } } ?_ hearly ?_
    · simp only [wake?, hstage, haction, h.bound, Inbound.wake?, harrivals]
      rfl
    · simp only [Session.step, hstage, haction, Session.act, hdue]
  | starved harrivals hopen =>
    have hthere : session.inbound.dropped = false := by
      cases hdropped : session.inbound.dropped with
      | false => rfl
      | true =>
        rw [h.gone hdropped] at hopen
        cases hopen
    refine .stalled (isActive_of_running hstage) ?_ ?_
    · simp only [wake?, hstage, haction, h.bound, Inbound.wake?, harrivals]
      rfl
    · simp only [script, hstage]
      rw [handler.script_eq, haction]
      simp only [Handler.scriptOf, Inbound.readings, Inbound.items, hthere, harrivals, hopen]
      rfl

/-- Where nothing can happen now and nothing waits to be taken, that is because of the handler: there is room. -/
theorem resting (hroom : 0 < session.sink.capacity) (hquiet : session.Quiet) : session.Resting := by
  have hqueue := queue_of_pop hquiet.pop
  have hstep := hquiet.step
  cases hstage : session.stage with
  | closing left =>
    simp only [Session.step, hstage] at hstep
    cases left with
    | nil => cases hstep
    | cons event left =>
      obtain ⟨sink, hpush⟩ := exists_push h.present hroom hqueue event
      simp only [hpush] at hstep
      cases hstep
  | asleep wakes state =>
    refine .waiting wakes (Session.goOn { session with now := wakes } state) ?_ ?_ ?_
    · simp only [wake?, hstage, h.bound]
      rfl
    · simp only [Session.step, hstage] at hstep
      split at hstep
      · cases hstep
      · rename_i hearly
        exact Nat.lt_of_not_le hearly
    · simp only [Session.step, hstage, Nat.le_refl, if_true]
  | running state =>
    have hact : session.act (handler.act state) = none := by
      simp only [Session.step, hstage] at hstep
      split at hstep
      · cases hstep
      · assumption
    rcases h.act_eq_none hroom hqueue hact with haction | ⟨k, haction⟩
    · refine .stalled (isActive_of_running hstage) ?_ ?_
      · simp only [wake?, hstage, haction, h.bound]
      · simp only [script, hstage, handler.script_eq, haction]
        rfl
    · rw [haction] at hact
      exact h.resting_of_receive hstage haction hact
  -- what is left is a call that is over
  | _ => exact .ended hstage

omit [Message Req] [Message Res] in
theorem withNow (time : Nat) : Unhindered { session with now := time } :=
  ⟨h.bound, h.deadline, h.canceled, h.present, h.kept, h.gone⟩

theorem pop {rest : Session handler} {event : Event Bytes} (hpop : session.pop = some (event, rest)) :
    rest.Unhindered ∧ rest.inbound = session.inbound ∧ rest.script = session.script := by
  rw [Session.pop] at hpop
  split at hpop
  · cases hpop
    refine ⟨h.withSink ?_ _, rfl, rfl⟩
    rfl
  · cases hpop

theorem brings {deeds : List Deed} {taken : List (Event Bytes)} (haccounted : Accounted session deeds taken) :
    session.Brings (deeds ++ session.script session.inbound.readings) taken := by
  -- by induction on what is left to do; that what was done and taken so far is accounted for is kept
  induction hsize : session.size using sizeBelow_wf.induction generalizing session deeds taken with
  | _ size ih =>
    subst hsize
    cases hstep : session.step with
    | some next =>
      rw [h.step_whole hstep, ← List.append_assoc]
      exact .of_step hstep (ih _ (size_of_below (step_shrinks hstep)) (h.step hstep).1
        (haccounted.move (move_of_step h.present hstep)) rfl)
    | none =>
      cases hpop : session.pop with
      | some found =>
        obtain ⟨hrest, hreadings, hscript⟩ := h.pop hpop
        rw [← hreadings, ← hscript]
        exact .of_pop hstep hpop (ih _ (size_of_pop hpop) hrest (haccounted.take hpop) rfl)
      | none =>
        cases h.resting haccounted.room ⟨hstep, hpop⟩ with
        | ended hover =>
          have hscript : session.script session.inbound.readings = [] := by
            rw [script, hover]
          rw [hscript, List.append_nil]
          exact .of_over hover haccounted
        | waiting wake next hwake hlater hnext =>
          have hwoken := h.withNow wake
          have hshrinks := step_shrinks hnext
          have hwhole : session.script session.inbound.readings = _ := hwoken.step_whole hnext
          rw [hwhole, ← List.append_assoc]
          exact .of_wake ⟨hstep, hpop⟩ hwake hlater (.of_step hnext (ih _ (size_of_below hshrinks)
            (hwoken.step hnext).1 ((haccounted.withNow wake).move (move_of_step hwoken.present hnext)) rfl))
        | stalled hactive hwake hscript =>
          rw [hscript, List.append_nil]
          exact .of_stalled ⟨hstep, hpop⟩ hactive hwake haccounted

end Unhindered

def Awaits (session : Session handler) : Prop :=
  session.inbound.dropped = false ∧ ∃ state next, session.stage = .running state ∧ handler.act state = .receive next

/-- A session that a call may come to whose requests are `inputs` in all, and what its peer took until then. -/
def Reaches (start : Session handler) (inputs : List Reading) (session : Session handler)
    (taken : List (Event Bytes)) : Prop :=
  ∃ heard deeds unread, Run start session heard deeds taken ∧ session.inbound.Leaves unread ∧ heard ++ unread = inputs

/-- A peer that took `taken` and then takes what comes gets `events` in all and the call comes to its end, if it waits
long enough. -/
def Completes (session : Session handler) (taken events : List (Event Bytes)) : Prop :=
  ∃ bound, ∀ horizon, bound ≤ horizon → ∃ rest, session.completeEvents? horizon = some rest ∧ taken ++ rest = events

/-- The events of a run are accounted for together with those before it, as nobody leaves. -/
theorem Accounted.run {start : Session handler} {before deeds : List Deed} {before' taken : List (Event Bytes)}
    (h : Accounted start before before') {heard : List Reading} (hrun : Run start session heard deeds taken) :
    Accounted session (before ++ deeds) (before' ++ taken) := by
  induction hrun with
  | start => simpa using h
  | step _ hstep ih => simpa [List.append_assoc] using ih.move (move_of_step ih.present hstep)
  | take _ hpop ih => simpa [List.append_assoc] using ih.take hpop
  | wait _ _ ih => exact ih.withNow _
  | send _ _ ih | close _ ih => exact ⟨ih.present, ih.room, ih.events, ih.active, ih.panicked⟩

/-- The events of a run from the start of a call are accounted for. -/
theorem accounted_of_run {start : Session handler} (hstart : Accounted start [] []) {heard : List Reading}
    {deeds : List Deed} {taken : List (Event Bytes)} (hrun : Run start session heard deeds taken) :
    Accounted session deeds taken := hstart.run hrun

section Runs

variable {start : Session handler} (h : start.Unhindered) (hstart : Accounted start [] []) {heard : List Reading}
  {deeds : List Deed} {taken : List (Event Bytes)}

include h hstart

/-- Whenever the handler waits, it has done just what it does for what it has read. -/
theorem Unhindered.awaiting (hrun : Run start session heard deeds taken) (hawaits : session.Awaits) :
    Deed.returned? (start.script heard) = none ∧
      taken ++ session.sink.queue = Deed.account (start.script heard) := by
  obtain ⟨hthere, state, next, hstage, haction⟩ := hawaits
  have haccounted := accounted_of_run hstart hrun
  have hactive := isActive_of_running hstage
  have hidle : session.script [] = [] := by
    simp only [script, hstage, hthere]
    rw [handler.script_eq, haction]
    rfl
  have hscript := (h.run hrun).2 []
  rw [List.append_nil, hidle, List.append_nil] at hscript
  rw [hscript, ← haccounted.events, left_of_active hactive, List.append_nil]
  exact ⟨(haccounted.active hactive).pending, rfl⟩

/-- There are no events while the handler has neither let its headers out nor returned. -/
theorem Unhindered.silent (hrun : Run start session heard deeds taken)
    (hopened : Deed.opened (start.script heard) = false) (hreturned : Deed.returned? (start.script heard) = none) :
    taken = [] ∧ session.sink.queue = [] := by
  have hscript := (h.run hrun).2 []
  rw [List.append_nil] at hscript
  rw [hscript, Deed.opened_append, Bool.or_eq_false_iff] at hopened
  rw [hscript, Deed.returned?_append, Option.or_eq_none_iff] at hreturned
  have hevents := (accounted_of_run hstart hrun).events
  rw [Deed.account_of_pending hreturned.1, Deed.letOut, hopened.1, if_neg Bool.false_ne_true, List.append_eq_nil_iff,
    List.append_eq_nil_iff] at hevents
  exact hevents.1

/-- Whatever the times at which the requests came and at which the events were taken, from any moment on a peer that
takes what comes gets the events that the script says, if the handler returns by it. -/
theorem Unhindered.completes {inputs : List Reading} (hreaches : start.Reaches inputs session taken) {outcome : Outcome}
    (hreturned : Deed.returned? (start.script inputs) = some outcome) :
    session.Completes taken (Deed.account (start.script inputs)) := by
  obtain ⟨heard, deeds, unread, hrun, hunread, rfl⟩ := hreaches
  obtain ⟨hsession, hscript⟩ := h.run hrun
  rw [hscript, script_of_leaves hunread] at hreturned ⊢
  obtain ⟨bound, hbound⟩ := hsession.brings (accounted_of_run hstart hrun)
  refine ⟨bound, fun horizon hle => ?_⟩
  obtain ⟨hevents, hcomplete⟩ := hbound horizon hle
  rw [hreturned] at hcomplete
  exact ⟨_, completeEvents?_of_complete (hcomplete.resolve_right nofun), hevents⟩

end Runs

end Session
end RpcConformance
