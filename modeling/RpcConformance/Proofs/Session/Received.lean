import RpcConformance.Proofs.Session.Within
/-!
Receiving the events of a call one at a time. If the call is over by a horizon, then whoever waits for each event up to
there gets them as they stand in the transcript, and after them the news that there are no more; who waits less long may
have to ask again, and misses nothing (`leads_of_complete`).
-/
namespace RpcConformance

/-- The first of these events, or the news that there are none. -/
def Received.first {α : Type} : List α → Received α
  | [] => .closed
  | found :: _ => .event found

namespace Sink

variable {sink next : Sink} {outcome : Outcome}

theorem codec_of_push {event : Event Bytes} (h : sink.push event = some (outcome, next)) :
    next.codec = sink.codec := by
  unfold push at h
  repeat' split at h
  all_goals cases h
  all_goals rfl

theorem codec_of_flush (h : sink.flush = some (outcome, next)) : next.codec = sink.codec := by
  unfold flush at h
  split at h
  · cases h
    rfl
  · have hpush := codec_of_push h
    exact hpush

theorem codec_of_sendMessage {α : Type} [Message α] {message : α}
    (h : sink.sendMessage message = some (outcome, next)) : next.codec = sink.codec := by
  unfold sendMessage at h
  split at h
  · exact codec_of_push h
  · cases h
    rfl

end Sink

namespace Session

variable {Req Res : Type} {handler : Handler Req Res} {session next : Session handler}

section Codec

theorem codec_of_afterSink {k : Outcome → handler.State} {put : Option (Outcome × Sink)}
    (hput : ∀ outcome sink, put = some (outcome, sink) → sink.codec = session.sink.codec)
    (h : session.afterSink k put = some next) : next.sink.codec = session.sink.codec := by
  match put, h with
  | some (outcome, sink), rfl => exact hput outcome sink rfl

theorem codec_of_expire (h : session.expire = some next) : next.sink.codec = session.sink.codec := by
  rw [expire] at h
  split at h
  · cases h
    rfl
  · cases h

variable [Message Req] [Message Res]

theorem codec_of_act {action : Action handler.State Req Res} (h : session.act action = some next) :
    next.sink.codec = session.sink.codec := by
  cases action with
  | hang => cases h
  | flush k => exact codec_of_afterSink (fun _ _ => Sink.codec_of_flush) h
  | send message k =>
    simp only [act] at h
    split at h
    · exact codec_of_afterSink (fun _ _ => Sink.codec_of_sendMessage) h
    · split at h
      · rename_i hflush
        cases h
        exact Sink.codec_of_flush hflush
      · exact codec_of_afterSink (fun _ _ => Sink.codec_of_flush) h
  | receive k =>
    simp only [act] at h
    split at h <;> cases h
    all_goals rfl
  | _ =>
    cases h
    rfl

theorem codec_of_step (h : session.step = some next) : next.sink.codec = session.sink.codec := by
  rw [step] at h
  split at h
  · cases h
  · cases h
    rfl
  · split at h
    · rename_i hpush
      cases h
      exact Sink.codec_of_push hpush
    · cases h
      rfl
    · cases h
  · split at h
    · cases h
      rfl
    · exact codec_of_expire h
  · split at h
    · rename_i hact
      cases h
      exact codec_of_act hact
    · exact codec_of_expire h

end Codec

variable [Message Req] [Message Res] {horizon : Nat}

section Receive

theorem settle_of_none (h : session.step = none) : session.settle = session := by
  rw [settle]
  split
  · rename_i hsome
    rw [h] at hsome
    cases hsome
  · rfl

theorem runUntil_of_step {β : Type} (ready : Session handler → Option (β × Session handler))
    (h : session.step = some next) (time : Nat) : session.runUntil ready time = next.runUntil ready time := by
  obtain ⟨hnow, -⟩ := kept_of_step h
  rw [runUntil, runUntil, settle_of_step h, hnow]

theorem receive_of_step (h : session.step = some next) (time : Nat) : session.receive time = next.receive time := by
  rw [receive, receive, runUntil_of_step nextEvent h]

theorem receive_of_wake (hquiet : session.Quiet) {wake : Nat} (hwake : session.wake? = some wake)
    (hlater : session.now < wake) {time : Nat} (htime : wake ≤ time) :
    session.receive time = receive { session with now := wake } time := by
  have hnext : session.nextEvent = none := by
    simp [nextEvent, hquiet.pop, not_isOver_of_active (isActive_of_wake hwake)]
  have hrun : session.runUntil nextEvent time = runUntil nextEvent { session with now := wake } time := by
    rw [runUntil]
    simp only [settle_of_none hquiet.step, hnext, hwake, hlater, htime, and_self, if_true]
  rw [receive, receive, hrun]

theorem receive_of_early (hquiet : session.Quiet) {wake : Nat} (hwake : session.wake? = some wake) {time : Nat}
    (hearly : time < wake) : session.receive time = (.blocked, { session with now := max session.now time }) := by
  have hnext : session.nextEvent = none := by
    simp [nextEvent, hquiet.pop, not_isOver_of_active (isActive_of_wake hwake)]
  have hlate : ¬wake ≤ time := Nat.not_le_of_lt hearly
  rw [receive, runUntil]
  simp only [settle_of_none hquiet.step, hnext, hwake, hlate, and_false, if_false]

theorem receive_of_over (hquiet : session.Quiet) (hover : session.isOver = true) (time : Nat) :
    session.receive time = (.closed, session) := by
  have hnext : session.nextEvent = some (none, session) := by
    simp [nextEvent, hquiet.pop, hover]
  rw [receive, runUntil]
  simp only [settle_of_none hquiet.step, hnext]

end Receive

/-- Some time later a call still has these events and no others, and speaks the same format. -/
structure Keeps (horizon : Nat) (session later : Session handler) (events : List (Event Bytes)) : Prop where
  complete : later.completeEvents? horizon = some events
  now_le : later.now ≤ max session.now horizon
  codec : later.sink.codec = session.sink.codec

/-- Whoever waits for the next event of a call gets the first of these and leaves the others. Before the horizon the
wait may be in vain, and then nothing is lost. -/
def Leads (horizon : Nat) (session : Session handler) (events : List (Event Bytes)) : Prop :=
  ∃ rest, session.Keeps horizon rest events.tail ∧
    ∀ time, session.receive time = (.first events, rest) ∨
      time < horizon ∧ ∃ later, session.receive time = (.blocked, later) ∧ session.Keeps horizon later events

theorem Keeps.congr {later : Session handler} {events : List (Event Bytes)} (h : next.Keeps horizon later events)
    (hnow : max next.now horizon ≤ max session.now horizon) (hcodec : next.sink.codec = session.sink.codec) :
    session.Keeps horizon later events :=
  ⟨h.complete, Nat.le_trans h.now_le hnow, h.codec.trans hcodec⟩

theorem completeEvents?_of_wake (hquiet : session.Quiet) {wake : Nat} (hwake : session.wake? = some wake)
    (hlater : session.now < wake) (htime : wake ≤ horizon) :
    session.completeEvents? horizon = completeEvents? horizon { session with now := wake } := by
  rw [completeEvents?, completeEvents?, transcript_of_wake hquiet hwake hlater htime]

/-- A call at rest is still the same at any time before something happens. -/
theorem keeps_of_early {events : List (Event Bytes)} (h : session.completeEvents? horizon = some events)
    (hquiet : session.Quiet) {wake : Nat} (hwake : session.wake? = some wake) (htime : wake ≤ horizon) {time : Nat}
    (hnow : session.now ≤ time) (hearly : time < wake) : session.Keeps horizon { session with now := time } events := by
  have hlate (other : Nat) (hother : session.wake? = some other) : time < other := by
    rw [hwake] at hother
    cases hother
    exact hearly
  have hquiet' : Quiet { session with now := time } :=
    ⟨step_later (isActive_of_wake hwake) hquiet.step hlate, pop_of_sink hquiet.pop rfl⟩
  refine ⟨?_, ?_, rfl⟩
  · have hlater : session.now < wake := Nat.lt_of_le_of_lt hnow hearly
    rw [completeEvents?_of_wake hquiet' hwake hearly htime, ← h, completeEvents?_of_wake hquiet hwake hlater htime]
  · exact Nat.le_trans (Nat.le_of_lt (Nat.lt_of_lt_of_le hearly htime)) (Nat.le_max_right _ _)

/-- The events of a call that is over by the horizon are received in order. -/
theorem leads_of_complete {events : List (Event Bytes)} (h : session.completeEvents? horizon = some events) :
    session.Leads horizon events := by
  induction session using upTo_induction handler horizon with
  | step session next hstep ih =>
    have hcomplete : next.completeEvents? horizon = some events := by
      rw [← h, completeEvents?, completeEvents?, transcript_of_step hstep]
    have hnow : max next.now horizon ≤ max session.now horizon :=
      Nat.le_of_eq (congrArg (max · horizon) (kept_of_step hstep).1)
    have hkept {later : Session handler} {left : List (Event Bytes)} (hlater : next.Keeps horizon later left) :
        session.Keeps horizon later left := hlater.congr hnow (codec_of_step hstep)
    obtain ⟨rest, hrest, hreceive⟩ := ih hcomplete
    refine ⟨rest, hkept hrest, fun time => ?_⟩
    rw [receive_of_step hstep]
    refine (hreceive time).imp_right ?_
    rintro ⟨hearly, later, hblocked, hlater⟩
    exact ⟨hearly, later, hblocked, hkept hlater⟩
  | pop session rest event hstep hpop ih =>
    rw [completeEvents?, transcript_of_pop hstep hpop] at h
    cases hrest : rest.transcript horizon with
    | mk found complete =>
      rw [hrest] at h
      cases complete with
      | false => cases h
      | true =>
        cases h
        have hcomplete : rest.completeEvents? horizon = some (found.map (·.2)) := by
          rw [completeEvents?, hrest]
        have hsettled : session.settle.pop = some (event, rest) := by
          rw [settle_of_none hstep, hpop]
        refine ⟨rest, ⟨hcomplete, ?_, ?_⟩, fun time => .inl (receive_of_pop hsettled time)⟩
        · rw [now_of_pop hpop]
          exact Nat.le_max_left _ _
        · rw [(eq_of_pop hpop).2]
  | wake session wake hquiet hwake hlater htime ih =>
    have hcomplete : completeEvents? horizon { session with now := wake } = some events := by
      rw [← h, completeEvents?_of_wake hquiet hwake hlater htime]
    have hnow : max wake horizon ≤ max session.now horizon := by
      rw [Nat.max_eq_right htime]
      exact Nat.le_max_right _ _
    have hkept {later : Session handler} {left : List (Event Bytes)}
        (hlater : Keeps horizon { session with now := wake } later left) : session.Keeps horizon later left :=
      hlater.congr hnow rfl
    obtain ⟨rest, hrest, hreceive⟩ := ih hcomplete
    refine ⟨rest, hkept hrest, fun time => ?_⟩
    by_cases hdue : wake ≤ time
    · rw [receive_of_wake hquiet hwake hlater hdue]
      refine (hreceive time).imp_right ?_
      rintro ⟨hearly, later, hblocked, hlater⟩
      exact ⟨hearly, later, hblocked, hkept hlater⟩
    · have hearly : time < wake := Nat.lt_of_not_le hdue
      exact .inr ⟨Nat.lt_of_lt_of_le hearly htime, _, receive_of_early hquiet hwake hearly,
        keeps_of_early h hquiet hwake htime (Nat.le_max_left _ _) (Nat.max_lt.2 ⟨hlater, hearly⟩)⟩
  | rests session hrests =>
    have hself := h
    rw [completeEvents?, transcript_of_rests hrests] at h
    cases hover : session.isOver with
    | false =>
      rw [hover] at h
      cases h
    | true =>
      rw [hover] at h
      cases h
      exact ⟨session, ⟨hself, Nat.le_max_left _ _, rfl⟩, fun time => .inl (receive_of_over hrests.toQuiet hover time)⟩

end Session
end RpcConformance
