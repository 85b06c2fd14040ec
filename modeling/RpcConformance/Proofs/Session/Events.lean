import RpcConformance.Proofs.Session.Account
import RpcConformance.Proofs.Session.Answering
import RpcConformance.Proofs.Session.Move
import RpcConformance.Service.Reference
/-!
The events of a call are determined by the deeds of its handler. What ties the two together at every
moment of a course whose peer is there is `Accounted`; the main statement is `serve_answers`.
-/
namespace RpcConformance

/-- The longest span there is: its seconds fill 64 bits. -/
def Duration.longest : Duration := ⟨Nat.pow 2 64 * 1000000000 - 1⟩

namespace Session

variable {Req Res : Type} {handler : Handler Req Res}

/-- A sink as the deeds of a handler left it that still acts. -/
structure Underway (sink : Sink) (deeds : List Deed) : Prop where
  sent : sink.headersSent = Deed.opened deeds
  headers : Deed.opened deeds = false → sink.headers = Deed.earlyHeaders deeds
  trailers : sink.trailers = Deed.allTrailers deeds
  pending : Deed.returned? deeds = none
  sane : .panicked ∉ deeds

/-- What a session whose peer is there has to do with the deeds of its handler and the events taken:
taken, queued and still to be queued, they are the account of the deeds. -/
structure Accounted (session : Session handler) (deeds : List Deed) (taken : List (Event Bytes)) : Prop where
  present : session.sink.closed = false
  room : 0 < session.sink.capacity
  events : taken ++ session.sink.queue ++ session.left = Deed.account deeds
  active : session.isActive = true → Underway session.sink deeds
  panicked : .panicked ∈ deeds → Deed.returned? deeds = none

/-- The peer has gone, and what it took is where the account breaks off. -/
structure Gone (session : Session handler) (deeds : List Deed) (taken : List (Event Bytes)) : Prop where
  halted : session.stage = .over
  closed : session.sink.closed = true
  queue : session.sink.queue = []
  events : taken <+: Deed.account deeds
  panicked : .panicked ∈ deeds → Deed.returned? deeds = none

/-- What the sink has left for the end is what the deeds say comes then. -/
theorem Underway.remaining {sink : Sink} {deeds : List Deed} (h : Underway sink deeds)
    (outcome : Outcome) : sink.remaining outcome = Deed.ending deeds outcome := by
  unfold Sink.remaining Deed.ending
  rw [h.sent, h.trailers]
  by_cases hopened : Deed.opened deeds = true
  · rw [if_pos hopened, if_pos hopened]
  · rw [if_neg hopened, if_neg hopened, h.headers (Bool.eq_false_iff.2 hopened)]
    cases outcome <;> rfl

theorem Underway.append {sink next : Sink} {deeds more : List Deed} (h : Underway sink deeds)
    (hsent : next.headersSent = (Deed.opened deeds || Deed.opened more))
    (hheaders : Deed.opened deeds = false → Deed.opened more = false →
      next.headers = sink.headers.extend (Deed.earlyHeaders more))
    (htrailers : next.trailers = sink.trailers.extend (Deed.allTrailers more))
    (hpending : Deed.returned? more = none) (hsane : .panicked ∉ more) : Underway next (deeds ++ more) where
  sent := by rw [hsent, Deed.opened_append]
  headers := by
    intro hopened
    rw [Deed.opened_append, Bool.or_eq_false_iff] at hopened
    rw [hheaders hopened.1 hopened.2, h.headers hopened.1, Deed.earlyHeaders_append hopened.1]
  trailers := by rw [htrailers, h.trailers, Deed.allTrailers_append]
  pending := by rw [Deed.returned?_append, h.pending, hpending, Option.none_or]
  sane := by
    rw [List.mem_append]
    exact not_or.2 ⟨h.sane, hsane⟩

/-- What the deeds of an action do to the sink, they do to what is known of it. -/
theorem Underway.puts {sink next : Sink} {deeds more : List Deed} (h : Underway sink deeds)
    (hputs : Puts sink more next) : Underway next (deeds ++ more) := by
  cases hputs with
  | nothing => rwa [List.append_nil]
  | headers metadata =>
    refine h.append ?_ ?_ ?_ rfl (by simp)
    · rw [h.sent]
      exact (Bool.or_false _).symm
    · intro _ _
      simp [Deed.earlyHeaders, Deed.opens, Deed.headerEntries]
    · simp [Deed.allTrailers, Deed.trailerEntries, Metadata.extend]
  | trailers metadata =>
    refine h.append ?_ ?_ ?_ rfl (by simp)
    · rw [h.sent]
      exact (Bool.or_false _).symm
    · intro _ _
      simp [Deed.earlyHeaders, Deed.opens, Deed.headerEntries, Metadata.extend]
    · simp [Deed.allTrailers, Deed.trailerEntries]
  | flushed hsent =>
    refine h.append ?_ ?_ ?_ rfl (by simp)
    · rw [hsent]
      exact (Bool.or_true _).symm
    · intro _ hopened
      cases hopened
    · simp [Deed.allTrailers, Deed.trailerEntries, Metadata.extend]
  | flush hsent =>
    refine h.append (Bool.or_true _).symm ?_ ?_ rfl (by simp)
    · intro _ hopened
      cases hopened
    · simp [Deed.allTrailers, Deed.trailerEntries, Metadata.extend]
  | message hsent bytes =>
    refine h.append ?_ ?_ ?_ rfl (by simp)
    · exact hsent.trans (Bool.or_true _).symm
    · intro _ hopened
      cases hopened
    · simp [Deed.allTrailers, Deed.trailerEntries, Metadata.extend]

theorem letOut_of_puts {sink next : Sink} {deeds more : List Deed} (h : Underway sink deeds)
    (hputs : Puts sink more next) {taken : List (Event Bytes)}
    (hevents : taken ++ sink.queue = Deed.letOut deeds) :
    taken ++ next.queue = Deed.letOut (deeds ++ more) := by
  cases hputs with
  | nothing => rw [hevents, List.append_nil]
  | headers metadata => rw [Deed.letOut_append_of_silent deeds rfl, ← hevents]
  | trailers metadata => rw [Deed.letOut_append_of_silent deeds rfl, ← hevents]
  | flushed hsent =>
    rw [Deed.letOut_append_of_opened (h.sent ▸ hsent), ← hevents]
    exact (List.append_nil _).symm
  | flush hsent =>
    have hopened : Deed.opened deeds = false := h.sent ▸ hsent
    rw [Deed.letOut_append_flush hopened, ← h.headers hopened, ← hevents, List.append_assoc]
  | message hsent bytes =>
    rw [Deed.letOut_append_of_opened (h.sent ▸ hsent), ← hevents, List.append_assoc]
    rfl

theorem left_of_active {session : Session handler} (h : session.isActive = true) : session.left = [] := by
  rw [isActive] at h
  rw [left]
  split <;> simp_all

theorem accounted_start (codec : Codec) {capacity : Nat} (hcapacity : 0 < capacity) (context : Context)
    (bound : Option Nat) (inbound : Inbound) (now : Nat) :
    Accounted (.start handler codec capacity context bound inbound now) [] [] where
  present := rfl
  room := hcapacity
  events := rfl
  active _ := ⟨rfl, fun _ => rfl, rfl, rfl, List.not_mem_nil⟩
  panicked h := absurd h List.not_mem_nil

theorem capacity_of_puts {sink next : Sink} {more : List Deed} (h : Puts sink more next) :
    next.closed = sink.closed ∧ next.capacity = sink.capacity := by
  cases h <;> exact ⟨rfl, rfl⟩

theorem Accounted.rest {session next : Session handler} {deeds more : List Deed}
    {taken : List (Event Bytes)} (h : Accounted session deeds taken) (hidle : next.isActive = false)
    (hclosed : next.sink.closed = session.sink.closed)
    (hcapacity : next.sink.capacity = session.sink.capacity)
    (hevents : taken ++ next.sink.queue ++ next.left = Deed.account more)
    (hpanicked : .panicked ∈ more → Deed.returned? more = none) : Accounted next more taken where
  present := hclosed.trans h.present
  room := hcapacity ▸ h.room
  events := hevents
  active := by
    intro hactive
    rw [hidle] at hactive
    cases hactive
  panicked := hpanicked

theorem Accounted.move {session next : Session handler} {deeds more : List Deed}
    {taken : List (Event Bytes)} (h : Accounted session deeds taken) (hmove : Move session next more) :
    Accounted next (deeds ++ more) taken := by
  have hevents := h.events
  cases hmove with
  | act hactive hnext hputs =>
    have hunderway := h.active hactive
    have hunderway' := hunderway.puts hputs
    obtain ⟨hclosed, hcapacity⟩ := capacity_of_puts hputs
    rw [left_of_active hactive, List.append_nil, Deed.account_of_pending hunderway.pending] at hevents
    refine ⟨hclosed.trans h.present, hcapacity ▸ h.room, ?_, fun _ => hunderway',
      fun _ => hunderway'.pending⟩
    rw [left_of_active hnext, List.append_nil, Deed.account_of_pending hunderway'.pending]
    exact letOut_of_puts hunderway hputs hevents
  | finish outcome hactive hsink hnext =>
    have hunderway := h.active hactive
    rw [left_of_active hactive, List.append_nil] at hevents
    refine h.rest (by rw [isActive, hnext]) (by rw [hsink]) (by rw [hsink]) ?_ ?_
    · rw [Deed.account_append_returned hunderway.pending, ← hevents, hsink, left, hnext,
        ← hunderway.remaining]
    · intro hpanicked
      simp [hunderway.sane] at hpanicked
  | panic hactive hsink hnext =>
    have hunderway := h.active hactive
    have hpending : Deed.returned? (deeds ++ [.panicked]) = none := by
      rw [Deed.returned?_append, hunderway.pending]
      rfl
    rw [left_of_active hactive, List.append_nil, Deed.account_of_pending hunderway.pending] at hevents
    refine h.rest (by rw [isActive, hnext]) (by rw [hsink]) (by rw [hsink]) ?_ (fun _ => hpending)
    rw [Deed.account_of_pending hpending, Deed.letOut_append_of_silent deeds rfl, ← hevents, hsink, left,
      hnext, List.append_nil]
  | queue event events hstage hsink hnext =>
    rw [List.append_nil]
    refine h.rest (by rw [isActive, hnext]) (by rw [hsink]) (by rw [hsink]) ?_ h.panicked
    rw [← hevents, hsink, left, left, hstage, hnext]
    simp
  | stop hstage hsink hnext =>
    rw [List.append_nil]
    refine h.rest (by rw [isActive, hnext]) (by rw [hsink]) (by rw [hsink]) ?_ h.panicked
    rw [← hevents, hsink, left, left, hstage, hnext]

theorem Accounted.take {session rest : Session handler} {deeds : List Deed} {taken : List (Event Bytes)}
    {event : Event Bytes} (h : Accounted session deeds taken) (hpop : session.pop = some (event, rest)) :
    Accounted rest deeds (taken ++ [event]) := by
  rw [pop] at hpop
  split at hpop
  · rename_i queue hqueue
    cases hpop
    have hevents := h.events
    rw [hqueue] at hevents
    refine ⟨h.present, h.room, ?_, ?_, h.panicked⟩
    · rw [← hevents, List.append_assoc taken]
      rfl
    · intro hactive
      obtain ⟨hsent, hheaders, htrailers, hpending, hsane⟩ := h.active hactive
      exact ⟨hsent, hheaders, htrailers, hpending, hsane⟩
  · cases hpop

theorem Accounted.hangUp {session : Session handler} {deeds : List Deed} {taken : List (Event Bytes)}
    (h : Accounted session deeds taken) : Gone session.hangUp deeds taken where
  halted := rfl
  closed := rfl
  queue := rfl
  events := by
    rw [← h.events, List.append_assoc]
    exact List.prefix_append _ _
  panicked := h.panicked

theorem Gone.step [Message Req] [Message Res] {session : Session handler} {deeds : List Deed}
    {taken : List (Event Bytes)} (h : Gone session deeds taken) : session.step = none := by
  rw [Session.step, h.halted]

theorem Gone.pop {session : Session handler} {deeds : List Deed} {taken : List (Event Bytes)}
    (h : Gone session deeds taken) : session.pop = none := by
  rw [Session.pop, h.queue]

/-- At every moment of a course the peer is there and the events are accounted for, or it has gone. -/
theorem accounted_of_course [Message Req] [Message Res] {start session : Session handler}
    {deeds : List Deed} {taken : List (Event Bytes)} (hstart : Accounted start [] [])
    (h : Course start session deeds taken) :
    Accounted session deeds taken ∨ Gone session deeds taken := by
  induction h with
  | start => exact .inl hstart
  | step _ hstep ih =>
    rcases ih with hthere | hgone
    · exact .inl (hthere.move (move_of_step hthere.present hstep))
    · rw [hgone.step] at hstep
      cases hstep
  | take _ hpop ih =>
    rcases ih with hthere | hgone
    · exact .inl (hthere.take hpop)
    · rw [hgone.pop] at hpop
      cases hpop
  | wait _ _ ih =>
    rcases ih with hthere | hgone
    · exact .inl ⟨hthere.present, hthere.room, hthere.events, hthere.active, hthere.panicked⟩
    · exact .inr ⟨hgone.halted, hgone.closed, hgone.queue, hgone.events, hgone.panicked⟩
  | request _ _ ih =>
    rcases ih with hthere | hgone
    · exact .inl ⟨hthere.present, hthere.room, hthere.events, hthere.active, hthere.panicked⟩
    · exact .inr ⟨hgone.halted, hgone.closed, hgone.queue, hgone.events, hgone.panicked⟩
  | leave _ ih =>
    rcases ih with hthere | hgone
    · exact .inr hthere.hangUp
    · exact .inr ⟨rfl, rfl, rfl, hgone.events, hgone.panicked⟩

theorem Accounted.idle {session : Session handler} {deeds : List Deed} {taken : List (Event Bytes)}
    {outcome : Outcome} (h : Accounted session deeds taken)
    (hreturned : Deed.returned? deeds = some outcome) : ¬session.isActive = true := by
  intro hactive
  rw [(h.active hactive).pending] at hreturned
  cases hreturned

theorem queue_of_pop {session : Session handler} (h : session.pop = none) : session.sink.queue = [] := by
  rw [pop] at h
  split at h
  · cases h
  · assumption

/-- Where nothing more can happen, a session whose handler is done is over: there is room for all that is left. -/
theorem over_of_quiet [Message Req] [Message Res] {session : Session handler}
    (hpresent : session.sink.closed = false) (hroom : 0 < session.sink.capacity) (hidle : ¬session.isActive = true)
    (hquiet : session.Quiet) : session.stage = .over := by
  have hqueue := queue_of_pop hquiet.pop
  have hstep := hquiet.step
  rw [Session.step] at hstep
  split at hstep
  · assumption
  · cases hstep
  · simp [Sink.push, hpresent, hqueue, hroom] at hstep
  · rename_i hstage
    exact absurd (by rw [isActive, hstage]) hidle
  · rename_i hstage
    exact absurd (by rw [isActive, hstage]) hidle

theorem Accounted.halted [Message Req] [Message Res] {session : Session handler} {deeds : List Deed}
    {taken : List (Event Bytes)} {outcome : Outcome} (h : Accounted session deeds taken)
    (hreturned : Deed.returned? deeds = some outcome) (hquiet : session.Quiet) :
    session.stage = .over :=
  over_of_quiet h.present h.room (h.idle hreturned) hquiet

theorem deeds_of_idle [Message Req] [Message Res] {session : Session handler}
    (h : ¬session.isActive = true) : session.deeds = [] := by
  rw [isActive] at h
  rw [deeds]
  split at h <;> simp_all

/-- Once the handler returned, a peer that goes on taking events gets the rest of the account. -/
theorem Accounted.transcript [Message Req] [Message Res] {session : Session handler}
    {deeds : List Deed} {taken : List (Event Bytes)} {outcome : Outcome}
    (h : Accounted session deeds taken) (hreturned : Deed.returned? deeds = some outcome) (horizon : Nat) :
    (session.transcript horizon).2 = true ∧
      taken ++ (session.transcript horizon).1.map (·.2) = Deed.account deeds := by
  fun_induction Session.transcript horizon session generalizing taken with
  | case1 session next hstep ih =>
    have hnext := h.move (move_of_step h.present hstep)
    rw [deeds_of_idle (h.idle hreturned), List.append_nil] at hnext
    exact ih hnext
  | case2 session hstep event rest hpop events complete hrest ih =>
    have hih := ih (h.take hpop)
    rw [hrest] at hih
    refine ⟨hih.1, ?_⟩
    rw [← hih.2, List.map_cons, List.append_assoc]
    rfl
  | case3 session hstep hpop hover =>
    have hevents := h.events
    rw [queue_of_pop hpop, left, h.halted hreturned ⟨hstep, hpop⟩, List.append_nil] at hevents
    exact ⟨rfl, hevents⟩
  | case4 session hstep hpop hover =>
    exact absurd (by rw [isOver, h.halted hreturned ⟨hstep, hpop⟩]) hover
  | case5 session hstep hpop hover =>
    exact absurd (by rw [isOver, h.halted hreturned ⟨hstep, hpop⟩]) hover
  | case6 session hstep hpop hover =>
    exact absurd (by rw [isOver, h.halted hreturned ⟨hstep, hpop⟩]) hover

theorem completeEvents?_of_complete [Message Req] [Message Res] {session : Session handler} {horizon : Nat}
    (h : (session.transcript horizon).2 = true) :
    session.completeEvents? horizon = some ((session.transcript horizon).1.map (·.2)) := by
  rw [completeEvents?]
  split
  · rename_i hrun
    rw [hrun]
  · rename_i hrun
    rw [hrun] at h
    cases h

theorem account_prefix_of_pending {deeds : List Deed} (h : Deed.returned? deeds = none) (outcome : Outcome) :
    Deed.account deeds <+: Deed.account (deeds ++ [.returned outcome]) := by
  rw [Deed.account_append_returned h]
  exact List.prefix_append _ _

theorem answer_of_account {deeds : List Deed} {taken : List (Event Bytes)}
    (h : taken <+: Deed.account deeds) :
    ∃ more outcome whole, Deed.returned? (deeds ++ more) = some outcome ∧
      Deed.Answers (deeds ++ more) outcome whole ∧ taken <+: whole := by
  cases hreturned : Deed.returned? deeds with
  | some outcome =>
    refine ⟨[], outcome, Deed.account deeds, ?_, ?_, h⟩
    · rwa [List.append_nil]
    · rw [List.append_nil]
      exact Deed.answers_account hreturned
  | none =>
    have hmore : Deed.returned? (deeds ++ [.returned (.ok ())]) = some (.ok ()) := by
      rw [Deed.returned?_append, hreturned]
      rfl
    exact ⟨_, _, _, hmore, Deed.answers_account hmore, h.trans (account_prefix_of_pending hreturned (.ok ()))⟩

end Session

namespace Service

open Session

theorem accounted_dispatch (service : Service) (call : Incoming) (now : Nat) :
    Accounted (service.dispatch call now) [] [] :=
  accounted_start call.codec (by decide) _ _ call.inbound now

theorem accounted_serve (service : Service) (call : Incoming) (now : Nat) :
    Accounted (service.serve call now) [] [] := by
  have hdispatch := accounted_dispatch service call now
  rw [serve]
  split
  · exact hdispatch
  · refine ⟨hdispatch.present, hdispatch.room, rfl, fun hactive => ?_, hdispatch.panicked⟩
    cases hactive

theorem transcript_of_untold (service : Service) {call : Incoming} {now : Nat}
    (hpath : (Method.ofPath? call.path).isSome = true) (huntold : Context.isTold call.timeout now = false)
    (horizon : Nat) : (service.serve call now).transcript horizon = ([], true) := by
  rw [serve_of_untold service hpath huntold]
  exact transcript_of_over horizon rfl

end Service
end RpcConformance
