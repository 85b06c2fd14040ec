import RpcConformance.Proofs.Session.History
/-!
How long a handler that follows a plan takes at least. A message is not sent before the sleeps that its plan puts before
it are over (`Plan.due`): one step of a call takes away from what is due no more than the clock advances
(`Session.paces_of_step`), and so does a run (`Session.Run.paces`), whenever its requests come and its events are taken.
-/
namespace RpcConformance

namespace Plan

variable {Req Res : Type}

/-- How many ticks pass at least before a handler that takes some steps has sent a number of messages, if it ever does.
Of what comes after the steps nothing is said. -/
def due : List (Step Res) → Nat → Option Nat
  | [], _ => some 0
  | .sleep span :: steps, count + 1 => (due steps (count + 1)).map (span.ticks + ·)
  | .send _ :: steps, count + 1 => due steps count
  | .fail _ :: _, _ + 1 | .panic :: _, _ + 1 | .hang :: _, _ + 1 => none
  | .sleep _ :: _, 0 | .send _ :: _, 0 | .fail _ :: _, 0 | .panic :: _, 0 | .hang :: _, 0 => some 0
  | .check :: steps, count | .headers _ :: steps, count | .trailers _ :: steps, count | .flush :: steps, count
  | .release :: steps, count => due steps count

@[simp] theorem due_zero (steps : List (Step Res)) : due steps 0 = some 0 := by
  induction steps with
  | nil => rfl
  | cons step steps ih => cases step <;> first | rfl | exact ih

/-- The same from where a plan is. -/
def Progress.due : Progress Req Res → Nat → Option Nat
  | .going steps _, count => Plan.due steps count
  | .done _, 0 => some 0
  | .done _, _ + 1 => none

@[simp] theorem Progress.due_zero (progress : Progress Req Res) : progress.due 0 = some 0 := by
  cases progress with
  | going steps rest => exact Plan.due_zero steps
  | done outcome => rfl

end Plan

/-- How many ticks pass at least before a handler at some stage has sent a number of messages more, if it ever does. -/
def Stage.due {Req Res : Type} (now : Nat) : Stage (Plan.Progress Req Res) → Nat → Option Nat
  | _, 0 => some 0
  | .running progress, count + 1 => progress.due (count + 1)
  | .asleep wakes progress, count + 1 => (progress.due (count + 1)).map (wakes - now + ·)
  | .closing _, _ + 1 | .over, _ + 1 => none

@[simp] theorem Stage.due_zero {Req Res : Type} (now : Nat) (stage : Stage (Plan.Progress Req Res)) :
    stage.due now 0 = some 0 := by
  cases stage <;> rfl

theorem Stage.due_later {Req Res : Type} {stage : Stage (Plan.Progress Req Res)} {now time : Nat} (htime : now ≤ time)
    {count ticks : Nat} (h : stage.due time count = some ticks) :
    ∃ before, stage.due now count = some before ∧ now + before ≤ time + ticks := by
  cases count with
  | zero => exact ⟨0, stage.due_zero now, Nat.le_add_right_of_le htime⟩
  | succ count =>
    cases stage with
    | running progress => exact ⟨ticks, h, Nat.add_le_add_right htime ticks⟩
    | asleep wakes progress =>
      obtain ⟨later, hlater, rfl⟩ := Option.map_eq_some_iff.1 h
      exact ⟨_, Option.map_eq_some_iff.2 ⟨later, hlater, rfl⟩, by omega⟩
    | _ => cases h

namespace Session

variable {Req Res : Type} {plan : Context → Plan Req Res}

/-- The same for the handler of a call. -/
def due (session : Session (Plan.handler plan)) : Nat → Option Nat := Stage.due session.now session.stage

/-- A call comes from one session to another, and its handler sends so many messages on the way: whatever is due then to
messages that follow was due before to these and those together, but for the time that has passed. -/
def Paces (session next : Session (Plan.handler plan)) (sent : Nat) : Prop :=
  ∀ count ticks, next.due count = some ticks →
    ∃ before, session.due (sent + count) = some before ∧ session.now + before ≤ next.now + ticks

variable {session next last : Session (Plan.handler plan)}

@[simp] theorem due_zero (session : Session (Plan.handler plan)) : session.due 0 = some 0 :=
  Stage.due_zero session.now session.stage

theorem due_of_running {progress : Plan.Progress Req Res} (h : session.stage = .running progress) :
    session.due = progress.due := by
  funext count
  rw [due, h]
  cases count with
  | zero => exact (Plan.Progress.due_zero progress).symm
  | succ count => rfl

theorem Paces.trans {sent more : Nat} (h : session.Paces next sent) (h' : next.Paces last more) :
    session.Paces last (sent + more) := by
  intro count ticks hticks
  obtain ⟨between, hbetween, hle⟩ := h' count ticks hticks
  obtain ⟨before, hbefore, hle'⟩ := h (more + count) between hbetween
  exact ⟨before, by rw [Nat.add_assoc, hbefore], Nat.le_trans hle' hle⟩

theorem paces_of_end {sent : Nat} (hend : ∀ count, next.due (count + 1) = none) (hsent : session.due sent = some 0)
    (hnow : session.now ≤ next.now) : session.Paces next sent := by
  intro count ticks hticks
  cases count with
  | zero => exact ⟨0, hsent, Nat.le_add_right_of_le hnow⟩
  | succ count =>
    rw [hend count] at hticks
    cases hticks

theorem paces_of_silent (hend : ∀ count, next.due (count + 1) = none) (hnow : next.now = session.now) :
    session.Paces next 0 :=
  paces_of_end hend (due_zero session) (Nat.le_of_eq hnow.symm)

/-- What is due stays due while nothing happens but that requests come and events are taken. -/
theorem paces_of_same (hstage : next.stage = session.stage) (hnow : next.now = session.now) : session.Paces next 0 := by
  intro count ticks hticks
  refine ⟨ticks, ?_, Nat.le_of_eq (by rw [hnow])⟩
  rw [← hticks, due, due, hstage, hnow, Nat.zero_add]

theorem paces_of_wait {time : Nat} (htime : session.now ≤ time) : session.Paces { session with now := time } 0 := by
  intro count ticks hticks
  rw [Nat.zero_add]
  exact Stage.due_later htime hticks

theorem due_of_idle (h : ¬next.isActive = true) (count : Nat) : next.due (count + 1) = none := by
  rw [due]
  cases hstage : next.stage with
  | running progress | asleep wakes progress =>
    rw [isActive, hstage] at h
    exact absurd rfl h
  | _ => rfl

theorem due_of_done {outcome : Outcome} (h : next.stage = .running (Plan.Progress.done outcome)) (count : Nat) :
    next.due (count + 1) = none := by
  rw [due_of_running h]
  rfl

theorem paces_of_free (hfree : ∀ count, session.due count = some 0) (hnow : session.now ≤ next.now) (sent : Nat) :
    session.Paces next sent :=
  fun count _ _ => ⟨0, hfree (sent + count), Nat.le_add_right_of_le hnow⟩

theorem paces_of_unless {progress : Plan.Progress Req Res} {outcome : Outcome}
    (hstage : next.stage = .running (progress.unless outcome)) (hnow : next.now = session.now) {sent : Nat}
    (hdue : ∀ count, session.due (sent + count) = progress.due count) : session.Paces next sent := by
  cases outcome with
  | ok =>
    intro count ticks hticks
    rw [due_of_running hstage] at hticks
    exact ⟨ticks, (hdue count).trans hticks, Nat.le_of_eq (by rw [hnow])⟩
  | error status =>
    exact paces_of_end (due_of_done hstage) ((hdue 0).trans progress.due_zero) (Nat.le_of_eq hnow.symm)

theorem paces_of_afterSink {progress : Plan.Progress Req Res} {put : Option (Outcome × Sink)}
    (hnext : session.afterSink progress.unless put = some next) {sent : Nat}
    (hdue : ∀ count, session.due (sent + count) = progress.due count) : session.Paces next sent := by
  have hnow := (kept_of_afterSink hnext).1
  match put, hnext with
  | some (outcome, sink), hsome =>
    have hgoes : next.stage = .running (progress.unless outcome) := by
      cases hsome
      rfl
    exact paces_of_unless hgoes hnow hdue

theorem paces_of_refused {progress : Plan.Progress Req Res} {status : Status} {sink : Sink}
    (hnext : session.afterSink progress.unless (some (.error status, sink)) = some next) : session.Paces next 0 := by
  have hnow := (kept_of_afterSink hnext).1
  have hdone : next.stage = .running (Plan.Progress.done (.error status)) := by
    cases hnext
    rfl
  exact paces_of_silent (due_of_done hdone) hnow

section Acting

variable [Message Req] [Message Res] {step : Step Res} {steps : List (Step Res)} {rest : Plan Req Res}

theorem paces_of_send {message : Res}
    (hstage : session.stage = .running (Plan.Progress.going (.send message :: steps) rest))
    (hact : session.act (Plan.stepAction (.going steps rest) (.send message)) = some next) :
    session.Paces next
      (Deed.messages (session.deedsOf (Plan.stepAction (.going steps rest) (.send message)))).length := by
  rw [Plan.stepAction] at hact ⊢
  simp only [act] at hact
  simp only [deedsOf]
  split at hact
  · rename_i hsent
    rw [if_pos hsent]
    rw [Sink.sendMessage] at hact
    cases hencode : session.sink.codec.encode message with
    | ok bytes =>
      refine paces_of_afterSink hact fun count => ?_
      rw [due_of_running hstage]
      exact congrArg (Plan.due (.send message :: steps)) (Nat.add_comm 1 count)
    | error status =>
      rw [hencode] at hact
      exact paces_of_refused hact
  · rename_i hsent
    rw [if_neg hsent]
    split at hact
    · cases hact
      exact paces_of_same rfl rfl
    · rename_i hnot
      -- what else can come of letting the headers out is a failure
      rcases hput : session.sink.flush with _ | ⟨status | _, sink⟩
      · rw [hput] at hact
        cases hact
      · rw [hput] at hact
        exact paces_of_refused hact
      · exact absurd hput (hnot sink)

/-- The first of some steps takes the time that was due for it, and sends at most one message. -/
theorem paces_of_stepAction (hstage : session.stage = .running (Plan.Progress.going (step :: steps) rest))
    (hact : session.act (Plan.stepAction (.going steps rest) step) = some next) :
    session.Paces next (Deed.messages (session.deedsOf (Plan.stepAction (.going steps rest) step))).length := by
  have hdue (count : Nat) : session.due count = Plan.due (step :: steps) count := by
    rw [due_of_running hstage]
    rfl
  have hnow := (kept_of_act hact).1
  -- a step that neither waits nor sends leaves what is due to those that follow
  have hskip (hnone : ∀ count, Plan.due (step :: steps) count = Plan.due steps count) (count : Nat) :
      session.due (0 + count) = (Plan.Progress.going steps rest).due count := by
    rw [Nat.zero_add, hdue, hnone]
    rfl
  have hgoes (outcome : Outcome) (hnext : next.stage = .running (Plan.Progress.unless (.going steps rest) outcome))
      (hnone : ∀ count, Plan.due (step :: steps) count = Plan.due steps count) : session.Paces next 0 :=
    paces_of_unless hnext hnow (hskip hnone)
  cases step with
  | sleep span =>
    cases hact
    intro count ticks hticks
    refine ⟨ticks, (congrArg session.due (Nat.zero_add count)).trans ?_, Nat.le_refl _⟩
    cases count with
    | zero => exact hticks
    | succ count =>
      have hspan : session.now + span.ticks - session.now = span.ticks := Nat.add_sub_cancel_left _ _
      simp only [due, Stage.due, hspan] at hticks
      rw [hdue]
      exact hticks
  | panic | fail status =>
    cases hact
    exact paces_of_silent (due_of_idle nofun) hnow
  | hang => cases hact
  | check =>
    cases hact
    exact hgoes (session.context.check session.now) rfl fun _ => rfl
  | headers metadata | trailers metadata | release =>
    cases hact
    exact hgoes (.ok ()) rfl fun _ => rfl
  | flush => exact paces_of_afterSink hact (hskip fun _ => rfl)
  | send message => exact paces_of_send hstage hact

theorem paces_of_act {progress : Plan.Progress Req Res} (hstage : session.stage = .running progress)
    (hact : session.act (Plan.act progress) = some next) :
    session.Paces next (Deed.messages (session.deedsOf (Plan.act progress))).length := by
  have hnow := (kept_of_act hact).1
  match progress with
  | .done outcome =>
    cases hact
    exact paces_of_silent (due_of_idle nofun) hnow
  | .going (step :: steps) rest => exact paces_of_stepAction hstage hact
  | .going [] rest =>
    have hfree (count : Nat) : session.due count = some 0 := by
      rw [due_of_running hstage]
      rfl
    exact paces_of_free hfree (Nat.le_of_eq hnow.symm) _

theorem idle_of_step (hidle : ¬session.isActive = true) (hstep : session.step = some next) :
    ¬next.isActive = true := by
  rw [Session.step] at hstep
  split at hstep
  · cases hstep
  · cases hstep
    exact Bool.false_ne_true
  · split at hstep <;> cases hstep <;> exact Bool.false_ne_true
  · rename_i hstage
    rw [isActive, hstage] at hidle
    exact absurd rfl hidle
  · rename_i hstage
    exact absurd (isActive_of_running hstage) hidle

omit [Message Req] [Message Res] in
theorem paces_of_expire (h : session.expire = some next) : session.Paces next 0 := by
  have hnow := (kept_of_expire h).1
  rw [expire] at h
  split at h <;> cases h
  exact paces_of_silent (due_of_idle Bool.false_ne_true) hnow

omit [Message Req] [Message Res] in
/-- What was due to a handler that slept is due to it when it wakes. -/
theorem paces_of_waking {wakes : Nat} {progress : Plan.Progress Req Res}
    (hstage : session.stage = .asleep wakes progress) (hwakes : wakes ≤ session.now)
    (hnext : some (session.goOn progress) = some next) : session.Paces next 0 := by
  have hgoes : next.stage = .running (progress.unless (.ok ())) ∧ next.now = session.now := by
    cases hnext
    exact ⟨rfl, rfl⟩
  refine paces_of_unless hgoes.1 hgoes.2 fun count => ?_
  rw [Nat.zero_add, due, hstage]
  cases count with
  | zero => exact progress.due_zero.symm
  | succ count => simp [Stage.due, Nat.sub_eq_zero_of_le hwakes]

/-- One step of a call: what is due to the messages that follow is what was due before, less the time that has
passed. -/
theorem paces_of_step (hstep : session.step = some next) :
    session.Paces next (Deed.messages session.deeds).length := by
  by_cases hactive : session.isActive = true
  · rcases stage_of_active hactive with ⟨wakes, progress, hstage⟩ | ⟨progress, hstage⟩
    · rw [step_of_asleep hstage] at hstep
      rw [deeds, hstage]
      split at hstep
      · rename_i hwakes
        simp only [if_pos hwakes]
        exact paces_of_waking hstage hwakes hstep
      · rename_i hearly
        simp only [if_neg hearly]
        exact paces_of_expire hstep
    · have hacts : session.step = (session.act (Plan.act progress)).or session.expire := step_of_running hstage
      rw [hacts] at hstep
      cases hact : session.act (Plan.act progress) with
      | some found =>
        rw [hact, Option.some_or] at hstep
        obtain rfl := Option.some.inj hstep
        rw [deeds_of_act hstage rfl hact]
        exact paces_of_act hstage hact
      | none =>
        rw [hact, Option.none_or] at hstep
        have hstuck : session.deeds = [.returned (.error Context.expired)] := by
          simp only [deeds, hstage]
          exact if_neg (Bool.eq_false_iff.1 (congrArg Option.isSome hact))
        rw [hstuck]
        exact paces_of_expire hstep
  · rw [deeds_of_idle hactive]
    exact paces_of_silent (due_of_idle (idle_of_step hactive hstep)) (kept_of_step hstep).1

/-- A run takes at least the time that was due to the messages that are sent in it. -/
theorem Run.paces {start session : Session (Plan.handler plan)} {heard : List Reading} {deeds : List Deed}
    {taken : List (Event Bytes)} (h : Run start session heard deeds taken) :
    start.Paces session (Deed.messages deeds).length := by
  induction h with
  | start => exact paces_of_same rfl rfl
  | step _ hstep ih =>
    rw [Deed.messages_append, List.length_append]
    exact ih.trans (paces_of_step hstep)
  | take _ hpop ih =>
    rw [(eq_of_pop hpop).2]
    exact ih.trans (paces_of_same rfl rfl)
  | wait _ htime ih => exact ih.trans (paces_of_wait htime)
  | send _ _ ih | close _ ih => exact ih.trans (paces_of_same rfl rfl)

theorem Run.exists_due {start session : Session (Plan.handler plan)} {heard : List Reading} {deeds : List Deed}
    {taken : List (Event Bytes)} (h : Run start session heard deeds taken) :
    ∃ ticks, start.due (Deed.messages deeds).length = some ticks ∧ start.now + ticks ≤ session.now :=
  h.paces 0 0 (due_zero session)

end Acting

end Session
end RpcConformance
