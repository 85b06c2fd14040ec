import RpcConformance.Proofs.Session.History
/-!
A call with a deadline beside the same call without one. Until the deadline the two take the same steps
(`Unlimited.step_within`). The deadline strikes where the handler cannot act (`Unlimited.step_within_of_none`); a call at
rest stays so until it or what the handler waits for comes (`Unlimited.wake?_within`, `step_later`).
-/
namespace RpcConformance

/-- The deadline makes no difference to what a handler does, except that it gives up once a check fails. -/
structure Handler.Heeds {Req Res : Type} (handler : Handler Req Res) : Prop where
  start : ∀ context deadline, handler.start { context with deadline } = handler.start context
  check : ∀ state next, handler.act state = .check next →
    ∀ status, handler.act (next (.error status)) = .finish (.error status)

namespace Inbound

variable {inbound : Inbound} {now : Nat}

theorem waiting_iff : inbound.poll now = .waiting ↔
    inbound.canceled = false ∧ (inbound.arrivals = [] ∧ inbound.closed = false ∨
      ∃ time arrivals, inbound.arrivals = .due time :: arrivals ∧ now < time) := by
  rw [poll]
  by_cases hcanceled : inbound.canceled = true
  · simp [hcanceled]
  · rw [if_neg hcanceled]
    rcases harrivals : inbound.arrivals with _ | ⟨_ | _ | time, arrivals⟩
    · simp [hcanceled]
    · simp
    · simp
    · simp [hcanceled]

/-- A reader that waits goes on waiting until the time at which it has to ask again. -/
theorem poll_later {time : Nat} (hwaiting : inbound.poll now = .waiting)
    (hlate : ∀ wake, inbound.wake? = some wake → time < wake) : inbound.poll time = .waiting := by
  rw [waiting_iff] at hwaiting ⊢
  obtain ⟨hcanceled, hstarved | ⟨due, arrivals, harrivals, -⟩⟩ := hwaiting
  · exact ⟨hcanceled, .inl hstarved⟩
  · exact ⟨hcanceled, .inr ⟨due, arrivals, harrivals, hlate due (by rw [wake?, harrivals])⟩⟩

theorem now_lt_of_waiting {wake : Nat} (hwaiting : inbound.poll now = .waiting)
    (hwake : inbound.wake? = some wake) : now < wake := by
  rw [wake?] at hwake
  obtain ⟨-, ⟨harrivals, -⟩ | ⟨due, arrivals, harrivals, hlater⟩⟩ := waiting_iff.1 hwaiting
  · rw [harrivals] at hwake
    cases hwake
  · rw [harrivals] at hwake
    cases hwake
    exact hlater

end Inbound

namespace Session

variable {Req Res : Type} {handler : Handler Req Res}

/-- A call with another deadline. -/
def within (session : Session handler) (deadline : Nat) : Session handler :=
  { session with bound := some deadline, context := { session.context with deadline := some deadline } }

/-- Only its handler ends this call: there is no deadline, nobody gave the call up, and the peer is there. -/
structure Unlimited (session : Session handler) : Prop where
  bound : session.bound = none
  deadline : session.context.deadline = none
  canceled : session.context.canceled = false
  present : session.sink.closed = false
  room : 0 < session.sink.capacity

def Checks (session : Session handler) : Prop :=
  ∃ state next, session.stage = .running state ∧ handler.act state = .check next

variable {session next rest : Session handler} {deadline : Nat}

section Within

@[simp] theorem within_now (session : Session handler) (deadline : Nat) :
    (session.within deadline).now = session.now := rfl

@[simp] theorem within_sink (session : Session handler) (deadline : Nat) :
    (session.within deadline).sink = session.sink := rfl

@[simp] theorem within_stage (session : Session handler) (deadline : Nat) :
    (session.within deadline).stage = session.stage := rfl

@[simp] theorem within_inbound (session : Session handler) (deadline : Nat) :
    (session.within deadline).inbound = session.inbound := rfl

theorem pop_within {event : Event Bytes} (h : session.pop = some (event, rest)) :
    (session.within deadline).pop = some (event, rest.within deadline) := by
  obtain ⟨hqueue, hrest⟩ := eq_of_pop h
  rw [hrest]
  simp [pop, within, hqueue]

theorem afterSink_within (session : Session handler) (deadline : Nat) (k : Outcome → handler.State)
    (put : Option (Outcome × Sink)) :
    (session.within deadline).afterSink k put = (session.afterSink k put).map (within · deadline) := by
  cases put <;> rfl

variable [Message Req] [Message Res]

theorem act_within {action : Action handler.State Req Res} (hother : ∀ k, action ≠ .check k) :
    (session.within deadline).act action = (session.act action).map (within · deadline) := by
  cases action with
  | check k => exact absurd rfl (hother k)
  | flush k =>
    simp only [act, within_sink]
    exact afterSink_within session deadline k _
  | send message k =>
    have hsent : (session.within deadline).sink.headersSent = session.sink.headersSent := rfl
    simp only [act, hsent]
    by_cases hopen : session.sink.headersSent = true
    · rw [if_pos hopen, if_pos hopen]
      exact afterSink_within session deadline k _
    · rw [if_neg hopen, if_neg hopen, within_sink]
      split
      · rfl
      · exact afterSink_within session deadline k _
  | receive k =>
    simp only [act, within_inbound, within_now]
    cases session.inbound.poll session.now <;> rfl
  | _ => rfl

theorem act_check_within (h : session.Unlimited) (hbefore : session.now < deadline) (k : Outcome → handler.State) :
    (session.within deadline).act (.check k) = (session.act (.check k)).map (within · deadline) := by
  have hfree : session.context.check session.now = .ok () := by
    simp [Context.check, Context.isExpired, h.canceled, h.deadline]
  have hbounded : (session.within deadline).context.check session.now = .ok () := by
    simp [Context.check, Context.isExpired, within, h.canceled, hbefore]
  simp only [act, within_now, hfree, hbounded]
  rfl

theorem isSome_act_within (session : Session handler) (deadline : Nat) (action : Action handler.State Req Res) :
    ((session.within deadline).act action).isSome = (session.act action).isSome := by
  by_cases hcheck : ∃ k, action = .check k
  · obtain ⟨k, rfl⟩ := hcheck
    rfl
  · rw [act_within (fun k hk => hcheck ⟨k, hk⟩), Option.isSome_map]

theorem deeds_within (session : Session handler) (deadline : Nat) :
    (session.within deadline).deeds = session.deeds := by
  simp only [deeds, within_stage, within_now]
  split
  · rw [isSome_act_within]
    rfl
  · rfl
  · rfl
  · rfl

end Within

namespace Unlimited

variable (h : session.Unlimited)

include h

theorem expire_eq_none : session.expire = none := by
  simp [expire, Context.isExpired, h.bound]

theorem withNow (time : Nat) : Unlimited { session with now := time } :=
  ⟨h.bound, h.deadline, h.canceled, h.present, h.room⟩

theorem pop {event : Event Bytes} (hpop : session.pop = some (event, rest)) : rest.Unlimited := by
  rw [(eq_of_pop hpop).2]
  exact ⟨h.bound, h.deadline, h.canceled, h.present, h.room⟩

variable [Message Req] [Message Res]

theorem step (hstep : session.step = some next) : next.Unlimited := by
  obtain ⟨-, hcontext, hbound⟩ := kept_of_step hstep
  have hmove := move_of_step h.present hstep
  have hsink : next.sink.closed = session.sink.closed ∧ next.sink.capacity = session.sink.capacity := by
    generalize session.deeds = deeds at hmove
    cases hmove with
    | act _ _ hputs => exact capacity_of_puts hputs
    | finish _ _ hsink | panic _ hsink | queue _ _ _ hsink | stop _ hsink =>
      rw [hsink]
      exact ⟨rfl, rfl⟩
  refine ⟨hbound.trans h.bound, ?_, ?_, hsink.1.trans h.present, hsink.2 ▸ h.room⟩
  · rw [hcontext, h.deadline]
  · rw [hcontext, h.canceled]

/-- Where the call without a deadline takes a step, the call with one takes the same step, unless it is a check and the
deadline has come. -/
theorem step_within (hstep : session.step = some next) (hbefore : session.now < deadline ∨ ¬session.Checks) :
    (session.within deadline).step = some (next.within deadline) := by
  cases hstage : session.stage with
  | «over» =>
    rw [step_of_over hstage] at hstep
    cases hstep
  | closing left =>
    cases left with
    | nil =>
      simp only [Session.step, within_stage, hstage] at hstep ⊢
      cases hstep
      rfl
    | cons event left =>
      simp only [Session.step, within_stage, within_sink, hstage] at hstep ⊢
      split at hstep <;> cases hstep
      all_goals rfl
  | asleep wakes state =>
    rw [step_of_asleep hstage, h.expire_eq_none, Option.ite_none_right_eq_some] at hstep
    obtain ⟨hwakes, hnext⟩ := hstep
    have hdue : wakes ≤ (session.within deadline).now := hwakes
    have hasleep : (session.within deadline).stage = .asleep wakes state := hstage
    rw [step_of_asleep hasleep, if_pos hdue, ← Option.some.inj hnext]
    rfl
  | running state =>
    have hact : (session.within deadline).act (handler.act state) =
        (session.act (handler.act state)).map (within · deadline) := by
      by_cases hcheck : ∃ k, handler.act state = .check k
      · obtain ⟨k, hk⟩ := hcheck
        have hearly : session.now < deadline := hbefore.resolve_right (not_not_intro ⟨state, k, hstage, hk⟩)
        rw [hk]
        exact act_check_within h hearly k
      · exact act_within fun k hk => hcheck ⟨k, hk⟩
    have hrunning : (session.within deadline).stage = .running state := hstage
    rw [step_of_running hstage, h.expire_eq_none, Option.or_none] at hstep
    rw [step_of_running hrunning, hact, hstep]
    rfl

omit h in
/-- Where nothing happens to a handler that may still act, the deadline may strike. -/
theorem step_within_of_none (hactive : session.isActive = true) (hstep : session.step = none) :
    (session.within deadline).step = (session.within deadline).expire := by
  rcases stage_of_active hactive with ⟨wakes, state, hstage⟩ | ⟨state, hstage⟩
  · have hearly : ¬wakes ≤ (session.within deadline).now := by
      intro (hwakes : wakes ≤ session.now)
      rw [step_of_asleep hstage, if_pos hwakes] at hstep
      cases hstep
    have hasleep : (session.within deadline).stage = .asleep wakes state := hstage
    rw [step_of_asleep hasleep, if_neg hearly]
  · have hrunning : (session.within deadline).stage = .running state := hstage
    have hact := isSome_act_within session deadline (handler.act state)
    rw [step_of_running hstage, Option.or_eq_none_iff] at hstep
    rw [step_of_running hrunning]
    simp_all

end Unlimited

section Clock

theorem exists_earlier?_left (a : Nat) (b : Option Nat) : ∃ c, earlier? (some a) b = some c ∧ c ≤ a := by
  cases b with
  | none => exact ⟨a, rfl, Nat.le_refl _⟩
  | some b => exact ⟨min a b, rfl, Nat.min_le_left a b⟩

theorem exists_earlier?_right (a : Option Nat) (b : Nat) : ∃ c, earlier? a (some b) = some c ∧ c ≤ b := by
  cases a with
  | none => exact ⟨b, rfl, Nat.le_refl _⟩
  | some a => exact ⟨min a b, rfl, Nat.min_le_right a b⟩

theorem Unlimited.wake?_within (h : session.Unlimited) (hactive : session.isActive = true) :
    (session.within deadline).wake? = earlier? session.wake? (some deadline) := by
  rcases stage_of_active hactive with ⟨wakes, state, hstage⟩ | ⟨state, hstage⟩
  · simp only [wake?, within_stage, hstage, h.bound]
    rfl
  · simp only [wake?, within_stage, hstage, h.bound]
    cases handler.act state with
    | receive k =>
      simp only [within_inbound]
      cases session.inbound.wake? <;> rfl
    | _ => rfl

theorem afterSink_eq_none_iff {k : Outcome → handler.State} {put : Option (Outcome × Sink)} :
    session.afterSink k put = none ↔ put = none := by
  cases put <;> simp [afterSink]

variable [Message Req] [Message Res]

theorem receive_eq_none_iff {k : Except Status (Option Req) → handler.State} :
    session.act (.receive k) = none ↔ session.inbound.poll session.now = .waiting := by
  simp only [act]
  cases session.inbound.poll session.now <;> simp

theorem Unlimited.now_lt_of_wake (h : session.Unlimited) (hstep : session.step = none) {wake : Nat}
    (hwake : session.wake? = some wake) : session.now < wake := by
  rcases stage_of_active (isActive_of_wake hwake) with ⟨wakes, state, hstage⟩ | ⟨state, hstage⟩
  · simp only [wake?, hstage, h.bound, earlier?, Option.some.injEq] at hwake
    have hearly : ¬wakes ≤ session.now := by
      intro hwakes
      rw [step_of_asleep hstage, if_pos hwakes] at hstep
      cases hstep
    omega
  · rw [step_of_running hstage, Option.or_eq_none_iff] at hstep
    simp only [wake?, hstage, h.bound] at hwake
    cases haction : handler.act state with
    | receive k =>
      rw [haction] at hstep hwake
      have hinbound : session.inbound.wake? = some wake := by
        cases hsome : session.inbound.wake? <;> simp_all [earlier?]
      exact Inbound.now_lt_of_waiting (receive_eq_none_iff.1 hstep.1) hinbound
    | _ =>
      rw [haction] at hwake
      cases hwake

/-- An action that is not possible now does not become possible before there is something to be read. -/
theorem act_later {action : Action handler.State Req Res} {time : Nat} (hact : session.act action = none)
    (hlate : ∀ k, action = .receive k → ∀ wake, session.inbound.wake? = some wake → time < wake) :
    Session.act { session with now := time } action = none := by
  cases action with
  | receive k =>
    rw [receive_eq_none_iff] at hact ⊢
    exact Inbound.poll_later hact (hlate k rfl)
  | flush k => exact afterSink_eq_none_iff.2 (afterSink_eq_none_iff.1 hact)
  | send message k =>
    simp only [act] at hact ⊢
    by_cases hsent : session.sink.headersSent = true
    · rw [if_pos hsent] at hact ⊢
      exact afterSink_eq_none_iff.2 (afterSink_eq_none_iff.1 hact)
    · rw [if_neg hsent] at hact ⊢
      split at hact
      · cases hact
      · exact afterSink_eq_none_iff.2 (afterSink_eq_none_iff.1 hact)
  | hang => rfl
  | _ => cases hact

omit [Message Req] [Message Res] in
theorem expire_later (hactive : session.isActive = true) {time : Nat}
    (hlate : ∀ wake, session.wake? = some wake → time < wake) : Session.expire { session with now := time } = none := by
  suffices hbefore : ∀ bound, session.bound = some bound → time < bound by
    cases hbound : session.bound with
    | none => simp [expire, Context.isExpired]
    | some bound => simp [expire, Context.isExpired, hbefore bound hbound]
  intro bound hbound
  obtain ⟨wake, hwake, hle⟩ : ∃ wake, session.wake? = some wake ∧ wake ≤ bound := by
    rcases stage_of_active hactive with ⟨wakes, state, hstage⟩ | ⟨state, hstage⟩
    · simp only [wake?, hstage, hbound]
      exact exists_earlier?_right (some wakes) bound
    · simp only [wake?, hstage, hbound]
      split
      · exact exists_earlier?_right session.inbound.wake? bound
      · exact ⟨bound, rfl, Nat.le_refl _⟩
  exact Nat.lt_of_lt_of_le (hlate wake hwake) hle

theorem step_later (hactive : session.isActive = true) (hstep : session.step = none) {time : Nat}
    (hlate : ∀ wake, session.wake? = some wake → time < wake) : Session.step { session with now := time } = none := by
  have hexpire := expire_later hactive hlate
  rcases stage_of_active hactive with ⟨wakes, state, hstage⟩ | ⟨state, hstage⟩
  · obtain ⟨wake, hwake, hle⟩ := exists_earlier?_left wakes session.bound
    have hearly : ¬wakes ≤ time :=
      Nat.not_le_of_lt (Nat.lt_of_lt_of_le (hlate wake (by rw [wake?, hstage]; exact hwake)) hle)
    have hasleep : Session.stage { session with now := time } = .asleep wakes state := hstage
    rw [step_of_asleep hasleep, hexpire, if_neg hearly]
  · have hrunning : Session.stage { session with now := time } = .running state := hstage
    rw [step_of_running hstage, Option.or_eq_none_iff] at hstep
    rw [step_of_running hrunning, hexpire, Option.or_none]
    refine act_later hstep.1 fun k hreceive due hinbound => ?_
    obtain ⟨wake, hwake, hle⟩ := exists_earlier?_left due session.bound
    exact Nat.lt_of_lt_of_le (hlate wake (by simp only [wake?, hstage, hreceive, hinbound, hwake])) hle

theorem Unlimited.step_within_early (hactive : session.isActive = true) (hstep : session.step = none)
    (hbefore : session.now < deadline) : (session.within deadline).step = none := by
  have hexpired : Context.isExpired (session.within deadline).bound (session.within deadline).now = false :=
    decide_eq_false (Nat.not_le_of_lt hbefore)
  rw [step_within_of_none hactive hstep, expire, hexpired]
  rfl

/-- The course of a call before its deadline, where nothing happens at this instant. -/
theorem Unlimited.quiet_within (hactive : session.isActive = true) (hquiet : session.Quiet)
    (hbefore : session.now < deadline) : (session.within deadline).Quiet where
  step := step_within_early hactive hquiet.step hbefore
  pop := pop_of_sink hquiet.pop rfl

omit [Message Req] [Message Res] in
theorem Unlimited.wake_within (h : session.Unlimited) {wake : Nat} (hwake : session.wake? = some wake)
    (hle : wake ≤ deadline) : (session.within deadline).wake? = some wake := by
  rw [h.wake?_within (isActive_of_wake hwake), hwake, earlier?, Nat.min_eq_left hle]

/-- At a call at rest it makes no difference when the clock is read. -/
theorem Unlimited.pass (h : session.Unlimited) (hactive : session.isActive = true) {time : Nat}
    (hrests : session.Rests time) (hle : session.now ≤ time) (horizon : Nat) :
    session.history horizon = history horizon { session with now := time } ∧
      session.transcript horizon = transcript horizon { session with now := time } := by
  have hlate (wake : Nat) (hwake : session.wake? = some wake) : time < wake :=
    hrests.late wake hwake (h.now_lt_of_wake hrests.step hwake)
  have hlater : Quiet { session with now := time } := ⟨step_later hactive hrests.step hlate, pop_of_sink hrests.pop rfl⟩
  have hover : ¬session.isOver = true := not_isOver_of_active hactive
  have hover' : ¬Session.isOver { session with now := time } = true := hover
  have hwake? : Session.wake? { session with now := time } = session.wake? := rfl
  rw [history_of_quiet hrests.toQuiet, history_of_quiet hlater, transcript_of_quiet hrests.step hrests.pop,
    transcript_of_quiet hlater.step hlater.pop, if_neg hover, if_neg hover', hwake?]
  cases hwake : session.wake? with
  | none => exact ⟨rfl, rfl⟩
  | some wake =>
    have hafter : time < wake := hlate wake hwake
    have hbefore : session.now < wake := by omega
    simp [hafter, hbefore]

end Clock

end Session
end RpcConformance
