import RpcConformance.Proofs.Session.Completion
/-!
What a handler does while its peer takes each event as soon as it is there: its deeds with their times (`history`),
beside the events with theirs. Both follow the same course up to a horizon (`upTo_induction`). The events are the account
of the deeds (`Accounted.account_history`), and neither goes back in time.
-/
namespace RpcConformance

def Deed.ends : Deed → Bool
  | returned _ | panicked => true
  | headers _ | trailers _ | flush | message _ => false

namespace Session

variable {Req Res : Type} {handler : Handler Req Res} [Message Req] [Message Res]

/-- What the handler of a call does up to `horizon`, and when. -/
def history (horizon : Nat) (session : Session handler) : List (Nat × Deed) :=
  match _hstep : session.step with
  | some next => session.deeds.map (session.now, ·) ++ next.history horizon
  | none =>
    match _hpop : session.pop with
    | some (_, rest) => rest.history horizon
    | none =>
      match session.wake? with
      | some wake =>
        if session.now < wake ∧ wake ≤ horizon then { session with now := wake }.history horizon else []
      | none => []
termination_by
  (Prod.lex ⟨SizeBelow, sizeBelow_wf⟩ Nat.lt_wfRel).wf.wrap (session.size, horizon - session.now)
decreasing_by
  · exact Prod.Lex.left _ _ (size_of_below (step_shrinks _hstep))
  · exact Prod.Lex.left _ _ (size_of_pop _hpop)
  · refine Prod.Lex.right _ (show horizon - wake < horizon - session.now from ?_)
    omega

/-- Nothing happens any more up to `horizon`. -/
structure Rests (horizon : Nat) (session : Session handler) : Prop extends session.Quiet where
  late : ∀ wake, session.wake? = some wake → session.now < wake → horizon < wake

variable {session next rest : Session handler} {horizon : Nat}

section Course

theorem history_of_step (h : session.step = some next) (horizon : Nat) :
    session.history horizon = session.deeds.map (session.now, ·) ++ next.history horizon := by
  conv => lhs; rw [history]
  split
  · rename_i hsome
    rw [h] at hsome
    rw [Option.some.inj hsome]
  · rename_i hnone
    rw [h] at hnone
    cases hnone

theorem history_of_pop {event : Event Bytes} (hstep : session.step = none) (hpop : session.pop = some (event, rest))
    (horizon : Nat) : session.history horizon = rest.history horizon := by
  conv => lhs; rw [history]
  split
  · rename_i hsome
    rw [hstep] at hsome
    cases hsome
  · split
    · rename_i hsome
      rw [hpop] at hsome
      cases hsome
      rfl
    · rename_i hnone
      rw [hpop] at hnone
      cases hnone

theorem history_of_quiet (hquiet : session.Quiet) (horizon : Nat) :
    session.history horizon =
      match session.wake? with
      | some wake => if session.now < wake ∧ wake ≤ horizon then history horizon { session with now := wake } else []
      | none => [] := by
  conv => lhs; rw [history]
  split
  · rename_i hsome
    rw [hquiet.step] at hsome
    cases hsome
  · split
    · rename_i hsome
      rw [hquiet.pop] at hsome
      cases hsome
    · rfl

section Wake

variable (hquiet : session.Quiet) {wake : Nat} (hwake : session.wake? = some wake) (hlater : session.now < wake)
  (htime : wake ≤ horizon)

include hquiet hwake hlater htime

theorem history_of_wake : session.history horizon = history horizon { session with now := wake } := by
  simp [history_of_quiet hquiet, hwake, hlater, htime]

theorem transcript_of_wake : session.transcript horizon = transcript horizon { session with now := wake } := by
  have hactive := not_isOver_of_active (isActive_of_wake hwake)
  simp [transcript_of_quiet hquiet.step hquiet.pop, hactive, hwake, hlater, htime]

end Wake

theorem history_of_rests (h : session.Rests horizon) : session.history horizon = [] := by
  rw [history_of_quiet h.toQuiet]
  cases hwake : session.wake? with
  | none => rfl
  | some wake =>
    have hlate := h.late wake hwake
    simp only [ite_eq_right_iff]
    rintro ⟨hlater, htime⟩
    exact absurd (hlate hlater) (by omega)

theorem transcript_of_rests (h : session.Rests horizon) : session.transcript horizon = ([], session.isOver) := by
  rw [transcript_of_quiet h.step h.pop]
  split
  · simp [*]
  · rename_i hover
    rw [Bool.not_eq_true] at hover
    cases hwake : session.wake? with
    | none => simp [hover]
    | some wake =>
      have hlate := h.late wake hwake
      have hnot : ¬(session.now < wake ∧ wake ≤ horizon) := by
        rintro ⟨hlater, htime⟩
        exact absurd (hlate hlater) (by omega)
      simp [hnot, hover]

/-- What holds of a call follows from what holds of it after its next step, after the next event is taken, or at the
next time at which something happens, down to where nothing happens any more up to `horizon`. -/
theorem upTo_induction (handler : Handler Req Res) (horizon : Nat) {motive : Session handler → Prop}
    (step : ∀ session next : Session handler, session.step = some next → motive next → motive session)
    (pop : ∀ (session rest : Session handler) (event : Event Bytes), session.step = none →
      session.pop = some (event, rest) → motive rest → motive session)
    (wake : ∀ (session : Session handler) (wake : Nat), session.Quiet → session.wake? = some wake →
      session.now < wake → wake ≤ horizon → motive { session with now := wake } → motive session)
    (rests : ∀ session : Session handler, session.Rests horizon → motive session) (session : Session handler) :
    motive session := by
  fun_induction history horizon session with
  | case1 session next hstep ih => exact step session next hstep ih
  | case2 session hstep event rest hpop ih => exact pop session rest event hstep hpop ih
  | case3 session hstep hpop time hwake htime ih => exact wake session time ⟨hstep, hpop⟩ hwake htime.1 htime.2 ih
  | case4 session hstep hpop time hwake htime =>
    refine rests session { step := hstep, pop := hpop, late := fun other hother hlater => ?_ }
    obtain rfl : time = other := Option.some.inj (hwake.symm.trans hother)
    omega
  | case5 session hstep hpop hwake =>
    refine rests session { step := hstep, pop := hpop, late := fun other hother => ?_ }
    rw [hwake] at hother
    cases hother

end Course

section Kept

omit [Message Req] [Message Res] in
theorem kept_of_afterSink {k : Outcome → handler.State} {put : Option (Outcome × Sink)}
    (h : session.afterSink k put = some next) :
    next.now = session.now ∧ next.context = session.context ∧ next.bound = session.bound := by
  match put, h with
  | some _, rfl => exact ⟨rfl, rfl, rfl⟩

omit [Message Req] [Message Res] in
theorem kept_of_expire (h : session.expire = some next) :
    next.now = session.now ∧ next.context = session.context ∧ next.bound = session.bound := by
  rw [expire] at h
  split at h
  · cases h
    exact ⟨rfl, rfl, rfl⟩
  · cases h

theorem kept_of_act {action : Action handler.State Req Res} (h : session.act action = some next) :
    next.now = session.now ∧ next.context = session.context ∧ next.bound = session.bound := by
  cases action with
  | hang => cases h
  | flush k => exact kept_of_afterSink h
  | send message k =>
    simp only [act] at h
    split at h
    · exact kept_of_afterSink h
    · split at h
      · cases h
        exact ⟨rfl, rfl, rfl⟩
      · exact kept_of_afterSink h
  | receive k =>
    simp only [act] at h
    split at h <;> cases h
    all_goals exact ⟨rfl, rfl, rfl⟩
  | _ =>
    cases h
    exact ⟨rfl, rfl, rfl⟩

/-- A step takes no time and changes nothing of what was agreed for the call. -/
theorem kept_of_step (h : session.step = some next) :
    next.now = session.now ∧ next.context = session.context ∧ next.bound = session.bound := by
  rw [step] at h
  split at h
  · cases h
  · cases h
    exact ⟨rfl, rfl, rfl⟩
  · split at h <;> cases h
    all_goals exact ⟨rfl, rfl, rfl⟩
  · split at h
    · cases h
      exact ⟨rfl, rfl, rfl⟩
    · exact kept_of_expire h
  · split at h
    · rename_i hact
      cases h
      exact kept_of_act hact
    · exact kept_of_expire h

omit [Message Req] [Message Res] in
theorem eq_of_pop {event : Event Bytes} (h : session.pop = some (event, rest)) :
    session.sink.queue = event :: rest.sink.queue ∧
      rest = { session with sink := { session.sink with queue := rest.sink.queue } } := by
  rw [pop] at h
  split at h
  · rename_i queue hqueue
    cases h
    exact ⟨hqueue, rfl⟩
  · cases h

omit [Message Req] [Message Res] in
theorem now_of_pop {event : Event Bytes} (h : session.pop = some (event, rest)) : rest.now = session.now := by
  rw [(eq_of_pop h).2]

end Kept

section Times

theorem now_le_of_mem_history (horizon : Nat) (session : Session handler) :
    ∀ entry ∈ session.history horizon, session.now ≤ entry.1 := by
  induction session using upTo_induction handler horizon with
  | step session next hstep ih =>
    obtain ⟨hnow, -⟩ := kept_of_step hstep
    rw [history_of_step hstep, List.forall_mem_append]
    refine ⟨?_, fun entry hentry => hnow ▸ ih entry hentry⟩
    simp
  | pop session rest event hstep hpop ih =>
    have hnow := now_of_pop hpop
    rw [history_of_pop hstep hpop, ← hnow]
    exact ih
  | wake session wake hquiet hwake hlater htime ih =>
    rw [history_of_wake hquiet hwake hlater htime]
    exact fun entry hentry => Nat.le_of_lt (Nat.lt_of_lt_of_le hlater (ih entry hentry))
  | rests session hrests =>
    rw [history_of_rests hrests]
    exact nofun

theorem now_le_of_mem_transcript (horizon : Nat) (session : Session handler) :
    ∀ entry ∈ (session.transcript horizon).1, session.now ≤ entry.1 := by
  induction session using upTo_induction handler horizon with
  | step session next hstep ih =>
    obtain ⟨hnow, -⟩ := kept_of_step hstep
    rw [transcript_of_step hstep, ← hnow]
    exact ih
  | pop session rest event hstep hpop ih =>
    have hnow := now_of_pop hpop
    rw [transcript_of_pop hstep hpop, ← hnow, List.forall_mem_cons]
    exact ⟨Nat.le_refl _, ih⟩
  | wake session wake hquiet hwake hlater htime ih =>
    rw [transcript_of_wake hquiet hwake hlater htime]
    exact fun entry hentry => Nat.le_of_lt (Nat.lt_of_lt_of_le hlater (ih entry hentry))
  | rests session hrests =>
    rw [transcript_of_rests hrests]
    exact nofun

end Times

section Account

theorem Accounted.left_of_quiet {deeds : List Deed} {taken : List (Event Bytes)} (h : Accounted session deeds taken)
    (hquiet : session.Quiet) : session.left = [] := by
  by_cases hactive : session.isActive = true
  · exact left_of_active hactive
  · have hover := over_of_quiet h.present h.room hactive hquiet
    simp [left, hover]

/-- The events that a peer takes are the account of what the handler does meanwhile. -/
theorem Accounted.account_history {deeds : List Deed} {taken : List (Event Bytes)}
    (h : Accounted session deeds taken) (horizon : Nat) :
    taken ++ (session.transcript horizon).1.map (·.2) = Deed.account (deeds ++ (session.history horizon).map (·.2)) := by
  induction session using upTo_induction handler horizon generalizing deeds taken with
  | step session next hstep ih =>
    have hnext := ih (h.move (move_of_step h.present hstep))
    have hdeeds : (session.deeds.map (session.now, ·)).map (·.2) = session.deeds := by
      simp [Function.comp_def]
    rw [transcript_of_step hstep, history_of_step hstep, List.map_append, hdeeds, hnext, List.append_assoc]
  | pop session rest event hstep hpop ih =>
    have hrest := ih (h.take hpop)
    rw [transcript_of_pop hstep hpop, history_of_pop hstep hpop, ← hrest, List.map_cons, List.append_assoc,
      List.singleton_append]
  | wake session wake hquiet hwake hlater htime ih =>
    rw [transcript_of_wake hquiet hwake hlater htime, history_of_wake hquiet hwake hlater htime]
    exact ih (h.withNow wake)
  | rests session hrests =>
    have hevents := h.events
    rw [queue_of_pop hrests.pop, h.left_of_quiet hrests.toQuiet] at hevents
    rw [transcript_of_rests hrests, history_of_rests hrests]
    simpa using hevents

end Account

section Moves

omit [Message Req] [Message Res] in
theorem stage_of_active (h : session.isActive = true) :
    (∃ wakes state, session.stage = .asleep wakes state) ∨ ∃ state, session.stage = .running state := by
  rw [isActive] at h
  split at h
  · rename_i state hstage
    exact .inr ⟨state, hstage⟩
  · rename_i wakes state hstage
    exact .inl ⟨wakes, state, hstage⟩
  · cases h
  · cases h

omit [Message Req] [Message Res] in
theorem pop_of_sink (h : session.pop = none) (hsink : next.sink = session.sink) : next.pop = none := by
  rw [pop, hsink, queue_of_pop h]

theorem step_of_running {state : handler.State} (hstage : session.stage = .running state) :
    session.step = (session.act (handler.act state)).or session.expire := by
  simp only [step, hstage]
  cases session.act (handler.act state) <;> rfl

theorem step_of_asleep {wakes : Nat} {state : handler.State} (hstage : session.stage = .asleep wakes state) :
    session.step = if wakes ≤ session.now then some (session.goOn state) else session.expire := by
  rw [step, hstage]

theorem deeds_of_stuck (hactive : session.isActive = true) (hstep : session.step = none) :
    session.deeds = [.returned (.error Context.expired)] := by
  rcases stage_of_active hactive with ⟨wakes, state, hstage⟩ | ⟨state, hstage⟩
  · have hearly : ¬wakes ≤ session.now := by
      intro hwakes
      rw [step_of_asleep hstage, if_pos hwakes] at hstep
      cases hstep
    simp [deeds, hstage, hearly]
  · rw [step_of_running hstage, Option.or_eq_none_iff] at hstep
    simp [deeds, hstage, hstep.1]

theorem deeds_of_act {state : handler.State} {action : Action handler.State Req Res}
    (hstage : session.stage = .running state) (haction : handler.act state = action)
    (hact : session.act action = some next) : session.deeds = session.deedsOf action := by
  simp [deeds, hstage, haction, hact]

theorem step_of_act {state : handler.State} {action : Action handler.State Req Res}
    (hstage : session.stage = .running state) (haction : handler.act state = action)
    (hact : session.act action = some next) : session.step = some next := by
  rw [step_of_running hstage, haction, hact, Option.some_or]

omit [Message Req] [Message Res] in
theorem ends_of_puts {sink sink' : Sink} {deeds : List Deed} (h : Puts sink deeds sink') :
    ∀ deed ∈ deeds, deed.ends = false := by
  cases h <;> simp [Deed.ends]

omit [Message Req] [Message Res] in
theorem queue_of_puts {sink sink' : Sink} {deeds : List Deed} (h : Puts sink deeds sink') :
    ∃ more, sink'.queue = sink.queue ++ more := by
  cases h with
  | nothing | headers | trailers | flushed => exact ⟨[], (List.append_nil _).symm⟩
  | flush | message => exact ⟨_, rfl⟩

/-- A handler goes on by a step if it does not end by it. -/
theorem isActive_of_step (hpresent : session.sink.closed = false) (hactive : session.isActive = true)
    (hstep : session.step = some next) :
    next.isActive = true ↔ ∀ deed ∈ session.deeds, deed.ends = false := by
  have hmove := move_of_step hpresent hstep
  generalize session.deeds = deeds at hmove ⊢
  cases hmove with
  | act _ hnext hputs => exact iff_of_true hnext (ends_of_puts hputs)
  | finish _ _ _ hnext | panic _ _ hnext => simp [isActive, hnext, Deed.ends]
  | queue _ _ hstage | stop hstage =>
    rw [isActive, hstage] at hactive
    cases hactive

theorem queue_of_step (hpresent : session.sink.closed = false) (hstep : session.step = some next) :
    ∃ more, next.sink.queue = session.sink.queue ++ more := by
  have hmove := move_of_step hpresent hstep
  generalize session.deeds = deeds at hmove
  cases hmove with
  | act _ _ hputs => exact queue_of_puts hputs
  | queue event _ _ hsink => exact ⟨[event], by rw [hsink]⟩
  | finish _ _ hsink | panic _ hsink | stop _ hsink => exact ⟨[], by rw [hsink, List.append_nil]⟩

end Moves

/-- The handler of a call is done, and what is left waits for a peer that is there. -/
structure Done (session : Session handler) : Prop where
  present : session.sink.closed = false
  room : 0 < session.sink.capacity
  idle : ¬session.isActive = true

namespace Done

variable (h : session.Done)

include h

omit [Message Req] [Message Res] in
theorem pop {event : Event Bytes} (hpop : session.pop = some (event, rest)) :
    rest.Done ∧ rest.left = session.left := by
  rw [(eq_of_pop hpop).2]
  exact ⟨⟨h.present, h.room, h.idle⟩, rfl⟩

theorem step (hstep : session.step = some next) :
    next.Done ∧ next.sink.queue ++ next.left = session.sink.queue ++ session.left := by
  have hmove := move_of_step h.present hstep
  generalize session.deeds = deeds at hmove
  cases hmove with
  | act hactive | finish _ hactive | panic hactive => exact absurd hactive h.idle
  | queue event events hstage hsink hnext =>
    refine ⟨⟨hsink ▸ h.present, hsink ▸ h.room, by simp [isActive, hnext]⟩, ?_⟩
    rw [hsink]
    simp [left, hstage, hnext]
  | stop hstage hsink hnext =>
    refine ⟨⟨hsink ▸ h.present, hsink ▸ h.room, by simp [isActive, hnext]⟩, ?_⟩
    rw [hsink]
    simp [left, hstage, hnext]

theorem history (horizon : Nat) : session.history horizon = [] := by
  induction session using upTo_induction handler horizon with
  | step session next hstep ih =>
    rw [history_of_step hstep, deeds_of_idle h.idle, ih (h.step hstep).1]
    rfl
  | pop session rest event hstep hpop ih =>
    rw [history_of_pop hstep hpop, ih (h.pop hpop).1]
  | wake session wake hquiet hwake => exact absurd (isActive_of_wake hwake) h.idle
  | rests session hrests => exact history_of_rests hrests

/-- What is queued and what is left comes at once, and that is all. -/
theorem transcript (horizon : Nat) :
    session.transcript horizon = ((session.sink.queue ++ session.left).map (session.now, ·), true) := by
  induction session using upTo_induction handler horizon with
  | step session next hstep ih =>
    obtain ⟨hnext, hleft⟩ := h.step hstep
    obtain ⟨hnow, -⟩ := kept_of_step hstep
    rw [transcript_of_step hstep, ih hnext, hleft, hnow]
  | pop session rest event hstep hpop ih =>
    obtain ⟨hrest, hleft⟩ := h.pop hpop
    rw [transcript_of_pop hstep hpop, ih hrest, hleft, now_of_pop hpop, (eq_of_pop hpop).1]
    rfl
  | wake session wake hquiet hwake => exact absurd (isActive_of_wake hwake) h.idle
  | rests session hrests =>
    have hover := over_of_quiet h.present h.room h.idle hrests.toQuiet
    have hqueue := queue_of_pop hrests.pop
    simp [transcript_of_rests hrests, hqueue, left, isOver, hover]

end Done

end Session
end RpcConformance
