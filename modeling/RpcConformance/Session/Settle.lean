import RpcConformance.Session.Basic
/-!
An instant of a session comes to rest: every step makes the session smaller (`step_shrinks`), because
it uses up what arrived or lets the handler's state shrink.
-/
namespace RpcConformance.Session

variable {Req Res : Type} {handler : Handler Req Res}

/-- How many times headers may still be sent. -/
def unsent (headersSent : Bool) : Nat := if headersSent then 0 else 1

/-- How many steps the handler may take before it reads something. -/
def stageWeight (session : Session handler) : Nat :=
  match session.stage with
  | .over => 0
  | .closing left => left.length + 1
  | .running state => 2 * handler.size state + unsent session.sink.headersSent + 4
  | .asleep _ state => 2 * handler.size state + unsent session.sink.headersSent + 5

/-- The order in which steps descend. -/
def Below : Session handler → Session handler → Prop :=
  InvImage (Prod.Lex (· < ·) (· < ·)) fun session => (session.inbound.weight, session.stageWeight)

theorem below_wf : WellFounded (@Below Req Res handler) :=
  InvImage.wf _ (Prod.lex ⟨_, Nat.lt_wfRel.wf⟩ ⟨_, Nat.lt_wfRel.wf⟩).wf

theorem below_of_weight {next session : Session handler}
    (h : next.inbound.weight < session.inbound.weight) : Below next session :=
  Prod.Lex.left _ _ h

theorem below_of_stage {next session : Session handler}
    (hw : next.inbound.weight ≤ session.inbound.weight) (hs : next.stageWeight < session.stageWeight) :
    Below next session := by
  rcases Nat.lt_or_eq_of_le hw with h | h
  · exact below_of_weight h
  · simp only [Below, InvImage, h]
    exact Prod.Lex.right _ hs

theorem length_remaining_le (sink : Sink) (outcome : Outcome) : (sink.remaining outcome).length ≤ 2 := by
  unfold Sink.remaining
  repeat' split
  all_goals simp

theorem finish_below {session : Session handler} {outcome : Outcome} (h : 4 ≤ session.stageWeight) :
    Below (session.finish outcome) session := by
  refine below_of_stage (Nat.zero_le _) (Nat.lt_of_lt_of_le ?_ h)
  have := length_remaining_le session.sink outcome
  simp only [finish, stageWeight]
  omega

theorem expire_below {next session : Session handler} (h : session.expire = some next)
    (hw : 4 ≤ session.stageWeight) : Below next session := by
  unfold expire at h
  split at h
  · cases h; exact finish_below hw
  · cases h

theorem headersSent_of_push {sink sink' : Sink} {event : Event Bytes} {outcome : Outcome}
    (h : sink.push event = some (outcome, sink')) : sink'.headersSent = sink.headersSent := by
  unfold Sink.push at h
  repeat' split at h
  all_goals cases h
  all_goals rfl

theorem headersSent_of_flush {sink sink' : Sink} {outcome : Outcome}
    (h : sink.flush = some (outcome, sink')) : sink'.headersSent = true := by
  unfold Sink.flush at h
  split at h
  · cases h; assumption
  · simpa using headersSent_of_push h

theorem afterSink_below {next session : Session handler} {state : handler.State}
    (hstage : session.stage = .running state) {k : Outcome → handler.State}
    (hk : ∀ outcome, handler.size (k outcome) < handler.size state) {put : Option (Outcome × Sink)}
    (hput : ∀ outcome sink, put = some (outcome, sink) →
      session.sink.headersSent = true → sink.headersSent = true)
    (h : session.afterSink k put = some next) : Below next session := by
  match put, h with
  | some (outcome, sink), rfl =>
    refine below_of_stage (Nat.le_refl _) ?_
    have hlt := hk outcome
    simp only [stageWeight, hstage]
    have := hput outcome sink rfl
    grind [unsent]

variable [Message Req] [Message Res]

theorem headersSent_of_sendMessage {sink sink' : Sink} {message : Res} {outcome : Outcome}
    (h : sink.sendMessage message = some (outcome, sink')) : sink'.headersSent = sink.headersSent := by
  unfold Sink.sendMessage at h
  split at h
  · exact headersSent_of_push h
  · cases h; rfl

theorem act_below {next session : Session handler} {state : handler.State}
    (hstage : session.stage = .running state)
    (h : session.act (handler.act state) = some next) : Below next session := by
  have hsize := handler.shrinks state
  have hfour : 4 ≤ session.stageWeight := by simp only [stageWeight, hstage]; omega
  generalize handler.act state = action at h hsize
  cases action with
  | finish outcome => cases h; exact finish_below hfour
  | panic =>
    cases h
    exact below_of_stage (Nat.zero_le _) (Nat.lt_of_lt_of_le (by simp [abandon, stageWeight]) hfour)
  | hang => cases h
  | sleep span k =>
    cases h
    refine below_of_stage (Nat.le_refl _) ?_
    simp only [Action.Shrinks] at hsize
    simp only [stageWeight, hstage]
    omega
  | headers metadata k | trailers metadata k =>
    cases h
    refine below_of_stage (Nat.le_refl _) ?_
    simp only [Action.Shrinks] at hsize
    simp only [stageWeight, hstage]
    omega
  | flush k =>
    exact afterSink_below hstage hsize (fun _ _ hs _ => headersSent_of_flush hs) h
  | send message k =>
    simp only [act] at h
    split at h
    · refine afterSink_below hstage hsize (fun _ _ hs hsent => ?_) h
      rw [headersSent_of_sendMessage hs, hsent]
    · split at h
      · rename_i hsent sink hflush
        cases h
        refine below_of_stage (Nat.le_refl _) ?_
        have := headersSent_of_flush hflush
        simp_all [stageWeight, unsent]
      · exact afterSink_below hstage hsize (fun _ _ hs _ => headersSent_of_flush hs) h
  | receive k =>
    simp only [act] at h
    split at h
    · rename_i hpoll; cases h; exact below_of_weight (Inbound.weight_of_item hpoll)
    · rename_i hpoll
      cases h
      refine below_of_stage ?_ ?_
      · simp [Inbound.eq_gone_of_ended hpoll]
      · simp only [Action.Shrinks] at hsize
        simp only [stageWeight, hstage]
        omega
    · rename_i hpoll; cases h; exact below_of_weight (Inbound.weight_of_begun hpoll)
    · cases h
  | check k =>
    cases h
    refine below_of_stage (Nat.le_refl _) ?_
    have := hsize (session.context.check session.now)
    simp only [goOn, stageWeight, hstage]
    omega
  | release k =>
    cases h
    refine below_of_stage (Nat.zero_le _) ?_
    simp only [Action.Shrinks] at hsize
    simp only [stageWeight, hstage]
    omega

theorem step_shrinks {next session : Session handler} (h : session.step = some next) :
    Below next session := by
  unfold step at h
  split at h
  · cases h
  · rename_i hstage
    cases h
    exact below_of_stage (Nat.le_refl _) (by simp [stageWeight, hstage])
  · rename_i event left hstage
    split at h
    · cases h
      exact below_of_stage (Nat.le_refl _) (by simp [stageWeight, hstage])
    · cases h
      exact below_of_stage (Nat.le_refl _) (by simp [stageWeight, hstage])
    · cases h
  · rename_i wakes state hstage
    split at h
    · cases h
      exact below_of_stage (Nat.le_refl _) (by simp [goOn, stageWeight, hstage])
    · exact expire_below h (by simp [stageWeight, hstage])
  · rename_i state hstage
    split at h
    · rename_i hact; cases h; exact act_below hstage hact
    · exact expire_below h (by simp [stageWeight, hstage])

/-- Lets everything happen that can happen at this instant. -/
def settle (session : Session handler) : Session handler :=
  match _h : session.step with
  | some next => next.settle
  | none => session
termination_by below_wf.wrap session
decreasing_by exact step_shrinks _h

end RpcConformance.Session
