import RpcConformance.Proofs.Session.Within
/-!
What a deadline does to a call. A handler that returns earlier never learns of it (`Unlimited.transcript_within`). One
that goes on is stopped where it stands, and what it did so far is kept (`Unlimited.exists_cutOff`, `CutOff.account`).
-/
namespace RpcConformance.Session

variable {Req Res : Type} {handler : Handler Req Res} {session next rest : Session handler} {deadline : Nat}

/-- A course of something with times breaks off at a tick: all of it that is earlier is there, and nothing of it that is
later. -/
def BreaksOff {α : Type} (tick : Nat) (early whole : List (Nat × α)) : Prop :=
  ∃ late, whole = early ++ late ∧ (∀ entry ∈ early, entry.1 ≤ tick) ∧ ∀ entry ∈ late, tick ≤ entry.1

theorem BreaksOff.append {α : Type} {tick : Nat} {early whole : List (Nat × α)} (h : BreaksOff tick early whole)
    (before : List (Nat × α)) (hbefore : ∀ entry ∈ before, entry.1 ≤ tick) :
    BreaksOff tick (before ++ early) (before ++ whole) := by
  obtain ⟨late, hwhole, hearly, hlate⟩ := h
  refine ⟨late, by rw [hwhole, List.append_assoc], ?_, hlate⟩
  rw [List.forall_mem_append]
  exact ⟨hbefore, hearly⟩

section Struck

variable [Message Req] [Message Res]

/-- The handler fails with the status of a call that ran out of time, and does nothing else any more. -/
structure Struck (session : Session handler) : Prop where
  history : ∀ horizon, session.history horizon = [(session.now, .returned (.error Context.expired))]
  transcript : ∃ trailers, ∀ horizon, session.transcript horizon =
    ((session.sink.queue ++ [Event.ended (.error Context.expired) trailers]).map (session.now, ·), true)

theorem exists_remaining (sink : Sink) (status : Status) :
    ∃ trailers, sink.remaining (.error status) = [.ended (.error status) trailers] := by
  unfold Sink.remaining
  split <;> exact ⟨_, rfl⟩

theorem struck_of_finish (hpresent : session.sink.closed = false) (hroom : 0 < session.sink.capacity)
    (hdeeds : session.deeds = [.returned (.error Context.expired)])
    (hstep : session.step = some (session.finish (.error Context.expired))) : session.Struck := by
  have hdone : (session.finish (.error Context.expired)).Done := ⟨hpresent, hroom, Bool.false_ne_true⟩
  obtain ⟨trailers, htrailers⟩ := exists_remaining session.sink Context.expired
  refine ⟨fun horizon => ?_, trailers, fun horizon => ?_⟩
  · rw [history_of_step hstep, hdeeds, hdone.history]
    rfl
  · rw [transcript_of_step hstep, hdone.transcript, ← htrailers]
    rfl

theorem Struck.of_step (hstep : session.step = some next) (hdeeds : session.deeds = [])
    (hqueue : next.sink.queue = session.sink.queue) (h : next.Struck) : session.Struck := by
  obtain ⟨hnow, -⟩ := kept_of_step hstep
  obtain ⟨trailers, htranscript⟩ := h.transcript
  refine ⟨fun horizon => ?_, trailers, fun horizon => ?_⟩
  · rw [history_of_step hstep, hdeeds, h.history, hnow]
    rfl
  · rw [transcript_of_step hstep, htranscript, hqueue, hnow]

theorem Unlimited.struck_of_none (h : session.Unlimited) (hactive : session.isActive = true)
    (hstep : session.step = none) : (session.within session.now).Struck := by
  have hexpire : (session.within session.now).step =
      some ((session.within session.now).finish (.error Context.expired)) := by
    rw [Unlimited.step_within_of_none hactive hstep]
    simp [expire, Context.isExpired, within]
  refine struck_of_finish h.present h.room ?_ hexpire
  rw [deeds_within, deeds_of_stuck hactive hstep]

/-- A check fails once the time has come, and then the handler gives up. -/
theorem Unlimited.struck_of_check (h : session.Unlimited) (hheeds : handler.Heeds) (hchecks : session.Checks) :
    (session.within session.now).Struck := by
  obtain ⟨state, k, hstage, hcheck⟩ := hchecks
  let failing : Session handler := (session.within session.now).goOn (k (.error Context.expired))
  have hfails : (session.within session.now).context.check session.now = .error Context.expired := by
    simp [Context.check, Context.isExpired, within, h.canceled]
  have hstart : (session.within session.now).stage = .running state := hstage
  have hact : (session.within session.now).act (.check k) = some failing := by
    simp only [act, within_now, hfails]
    rfl
  have hgivesUp := hheeds.check state k hcheck Context.expired
  have hfailing : failing.Struck :=
    struck_of_finish h.present h.room (deeds_of_act rfl hgivesUp rfl) (step_of_act rfl hgivesUp rfl)
  exact hfailing.of_step (step_of_act hstart hcheck hact) (deeds_of_act hstart hcheck hact) rfl

end Struck

section Returned

variable [Message Req] [Message Res]

theorem Unlimited.active_of_history (h : session.Unlimited) {horizon : Nat} {entry : Nat × Deed}
    (hentry : entry ∈ session.history horizon) : session.isActive = true := by
  by_cases hactive : session.isActive = true
  · exact hactive
  · have hdone : session.Done := ⟨h.present, h.room, hactive⟩
    rw [hdone.history] at hentry
    cases hentry

theorem Unlimited.done_of_returned (h : session.Unlimited) (hactive : session.isActive = true)
    (hstep : session.step = some next) {outcome : Outcome} (hreturned : .returned outcome ∈ session.deeds) :
    next.Done := by
  have hnext := h.step hstep
  have hidle : ¬next.isActive = true := by
    rw [isActive_of_step h.present hactive hstep]
    intro hgoes
    cases hgoes _ hreturned
  exact ⟨hnext.present, hnext.room, hidle⟩

theorem Unlimited.transcript_within (h : session.Unlimited) {horizon time : Nat} {outcome : Outcome}
    (hreturned : (time, .returned outcome) ∈ session.history horizon) (hbefore : time < deadline) :
    (session.within deadline).transcript horizon = session.transcript horizon ∧
      (session.transcript horizon).2 = true := by
  induction session using upTo_induction handler horizon with
  | step session next hstep ih =>
    have hactive := h.active_of_history hreturned
    have hnow : session.now ≤ time := now_le_of_mem_history horizon session _ hreturned
    rw [transcript_of_step (h.step_within hstep (.inl (Nat.lt_of_le_of_lt hnow hbefore))), transcript_of_step hstep]
    rw [history_of_step hstep, List.mem_append] at hreturned
    rcases hreturned with hlast | hlater
    · obtain ⟨deed, hdeed, heq⟩ := List.mem_map.1 hlast
      cases heq
      have hdone := h.done_of_returned hactive hstep hdeed
      have hdone' : (next.within deadline).Done := ⟨hdone.present, hdone.room, hdone.idle⟩
      rw [hdone.transcript, hdone'.transcript]
      exact ⟨rfl, rfl⟩
    · exact ih (h.step hstep) hlater
  | pop session rest event hstep hpop ih =>
    have hactive := h.active_of_history hreturned
    have hnow : session.now ≤ time := now_le_of_mem_history horizon session _ hreturned
    have hearly := step_within_early hactive hstep (Nat.lt_of_le_of_lt hnow hbefore)
    rw [history_of_pop hstep hpop] at hreturned
    obtain ⟨hsame, hcomplete⟩ := ih (h.pop hpop) hreturned
    rw [transcript_of_pop hearly (pop_within hpop), transcript_of_pop hstep hpop, hsame]
    exact ⟨rfl, hcomplete⟩
  | wake session wake hquiet hwake hlater htime ih =>
    rw [history_of_wake hquiet hwake hlater htime] at hreturned
    have hle : wake ≤ time := now_le_of_mem_history horizon { session with now := wake } _ hreturned
    have hquiet' : (session.within deadline).Quiet :=
      quiet_within (isActive_of_wake hwake) hquiet (by omega)
    have hwake' : (session.within deadline).wake? = some wake := h.wake_within hwake (by omega)
    rw [transcript_of_wake hquiet hwake hlater htime, transcript_of_wake hquiet' hwake' hlater htime]
    exact ih (h.withNow wake) hreturned
  | rests session hrests =>
    rw [history_of_rests hrests] at hreturned
    cases hreturned

end Returned

/-- A call with a deadline does what it does without one up to `tick`, where it is cut off: its handler did `deeds` by
then, its peer took `events`, and the only thing that comes after them is the end. -/
structure CutOff (tick : Nat) (free bounded : Session handler) [Message Req] [Message Res]
    (deeds : List (Nat × Deed)) (events : List (Nat × Event Bytes)) (trailers : Metadata) : Prop where
  freeHistory : ∀ horizon, tick ≤ horizon → BreaksOff tick deeds (free.history horizon)
  freeTranscript : ∀ horizon, tick ≤ horizon → BreaksOff tick events (free.transcript horizon).1
  history : ∀ horizon, tick ≤ horizon →
    bounded.history horizon = deeds ++ [(tick, .returned (.error Context.expired))]
  transcript : ∀ horizon, tick ≤ horizon →
    bounded.transcript horizon = (events ++ [(tick, .ended (.error Context.expired) trailers)], true)

section CutOff

variable [Message Req] [Message Res] {tick : Nat} {deeds : List (Nat × Deed)} {events : List (Nat × Event Bytes)}
  {trailers : Metadata}

theorem Unlimited.exists_transcript_eq (h : session.Unlimited) (horizon : Nat) :
    ∃ late, (session.transcript horizon).1 = session.sink.queue.map (session.now, ·) ++ late := by
  induction session using upTo_induction handler horizon with
  | step session next hstep ih =>
    obtain ⟨hnow, -⟩ := kept_of_step hstep
    obtain ⟨more, hmore⟩ := queue_of_step h.present hstep
    obtain ⟨late, hlate⟩ := ih (h.step hstep)
    refine ⟨more.map (session.now, ·) ++ late, ?_⟩
    rw [transcript_of_step hstep, hlate, hmore, hnow, List.map_append, List.append_assoc]
  | pop session rest event hstep hpop ih =>
    obtain ⟨late, hlate⟩ := ih (h.pop hpop)
    refine ⟨late, ?_⟩
    rw [transcript_of_pop hstep hpop, hlate, (eq_of_pop hpop).1, now_of_pop hpop]
    rfl
  | wake session wake hquiet =>
    rw [queue_of_pop hquiet.pop]
    exact ⟨_, rfl⟩
  | rests session hrests =>
    rw [queue_of_pop hrests.pop]
    exact ⟨_, rfl⟩

theorem Unlimited.cutOff_of_struck (h : session.Unlimited) (hstruck : (session.within session.now).Struck) :
    ∃ deeds events trailers, CutOff session.now session (session.within session.now) deeds events trailers := by
  obtain ⟨trailers, htranscript⟩ := hstruck.transcript
  refine ⟨[], session.sink.queue.map (session.now, ·), trailers, ?_, ?_, ?_, ?_⟩
  · intro horizon _
    exact ⟨_, rfl, nofun, now_le_of_mem_history horizon session⟩
  · intro horizon _
    obtain ⟨late, hlate⟩ := h.exists_transcript_eq horizon
    refine ⟨late, hlate, by simp, fun entry hentry => ?_⟩
    refine now_le_of_mem_transcript horizon session entry ?_
    rw [hlate]
    exact List.mem_append_right _ hentry
  · intro horizon _
    exact hstruck.history horizon
  · intro horizon _
    rw [htranscript horizon, List.map_append]
    rfl

namespace CutOff

theorem of_step (hstep : session.step = some next) (hwithin : (session.within tick).step = some (next.within tick))
    (hle : session.now ≤ tick) (h : CutOff tick next (next.within tick) deeds events trailers) :
    CutOff tick session (session.within tick) (session.deeds.map (session.now, ·) ++ deeds) events trailers where
  freeHistory horizon htick := by
    rw [history_of_step hstep]
    exact (h.freeHistory horizon htick).append _ (by simp [hle])
  freeTranscript horizon htick := by
    rw [transcript_of_step hstep]
    exact h.freeTranscript horizon htick
  history horizon htick := by
    rw [history_of_step hwithin, h.history horizon htick, deeds_within, List.append_assoc]
    rfl
  transcript horizon htick := by
    rw [transcript_of_step hwithin, h.transcript horizon htick]

theorem of_pop {event : Event Bytes} (hstep : session.step = none) (hwithin : (session.within tick).step = none)
    (hpop : session.pop = some (event, rest)) (hle : session.now ≤ tick)
    (h : CutOff tick rest (rest.within tick) deeds events trailers) :
    CutOff tick session (session.within tick) deeds ((session.now, event) :: events) trailers where
  freeHistory horizon htick := by
    rw [history_of_pop hstep hpop]
    exact h.freeHistory horizon htick
  freeTranscript horizon htick := by
    rw [transcript_of_pop hstep hpop]
    exact (h.freeTranscript horizon htick).append [(session.now, event)] (by simp [hle])
  history horizon htick := by
    rw [history_of_pop hwithin (pop_within hpop), h.history horizon htick]
  transcript horizon htick := by
    rw [transcript_of_pop hwithin (pop_within hpop), h.transcript horizon htick]
    rfl

theorem of_pass {time : Nat} (htime : time ≤ tick)
    (hfree : ∀ horizon, time ≤ horizon → session.history horizon = next.history horizon ∧
      session.transcript horizon = next.transcript horizon)
    (hbounded : ∀ horizon, time ≤ horizon → (session.within tick).history horizon = (next.within tick).history horizon ∧
      (session.within tick).transcript horizon = (next.within tick).transcript horizon)
    (h : CutOff tick next (next.within tick) deeds events trailers) :
    CutOff tick session (session.within tick) deeds events trailers where
  freeHistory horizon htick := by
    rw [(hfree horizon (Nat.le_trans htime htick)).1]
    exact h.freeHistory horizon htick
  freeTranscript horizon htick := by
    rw [(hfree horizon (Nat.le_trans htime htick)).2]
    exact h.freeTranscript horizon htick
  history horizon htick := by
    rw [(hbounded horizon (Nat.le_trans htime htick)).1, h.history horizon htick]
  transcript horizon htick := by
    rw [(hbounded horizon (Nat.le_trans htime htick)).2, h.transcript horizon htick]

end CutOff

/-- Where the handler waits for something that comes after the deadline only, the deadline is what comes next. -/
theorem Unlimited.cutOff_of_rests (h : session.Unlimited) (hactive : session.isActive = true)
    (hrests : Rests tick session) (hle : session.now ≤ tick) :
    ∃ deeds events trailers, CutOff tick session (session.within tick) deeds events trailers := by
  have hlate (wake : Nat) (hwake : session.wake? = some wake) : tick < wake :=
    hrests.late wake hwake (h.now_lt_of_wake hrests.step hwake)
  have hnone := step_later hactive hrests.step hlate
  obtain ⟨deeds, events, trailers, hcut⟩ :=
    (h.withNow tick).cutOff_of_struck ((h.withNow tick).struck_of_none hactive hnone)
  refine ⟨deeds, events, trailers, ?_⟩
  rcases Nat.lt_or_eq_of_le hle with hbefore | rfl
  · have hquiet : (session.within tick).Quiet := quiet_within hactive hrests.toQuiet hbefore
    have hwake : (session.within tick).wake? = some tick := by
      rw [h.wake?_within hactive]
      cases hwake : session.wake? with
      | none => rfl
      | some wake => rw [earlier?, Nat.min_eq_right (Nat.le_of_lt (hlate wake hwake))]
    refine hcut.of_pass (Nat.le_refl _) (fun horizon _ => ?_) (fun horizon hle => ⟨?_, ?_⟩)
    · exact h.pass hactive hrests hle horizon
    · exact history_of_wake hquiet hwake hbefore hle
    · exact transcript_of_wake hquiet hwake hbefore hle
  · exact hcut

/-- A handler that goes on until the deadline is stopped there, and all that it did before is kept. -/
theorem Unlimited.exists_cutOff (h : session.Unlimited) (hheeds : handler.Heeds) (hactive : session.isActive = true)
    (hle : session.now ≤ tick) (hgoes : ∀ entry ∈ session.history tick, entry.2.ends = false) :
    ∃ deeds events trailers, CutOff tick session (session.within tick) deeds events trailers := by
  induction session using upTo_induction handler tick with
  | step session next hstep ih =>
    obtain ⟨hnow, -⟩ := kept_of_step hstep
    by_cases hbefore : session.now < tick ∨ ¬session.Checks
    · rw [history_of_step hstep, List.forall_mem_append] at hgoes
      have hnext : next.isActive = true := by
        rw [isActive_of_step h.present hactive hstep]
        exact fun deed hdeed => hgoes.1 _ (List.mem_map_of_mem hdeed)
      obtain ⟨deeds, events, trailers, hcut⟩ := ih (h.step hstep) hnext (hnow ▸ hle) hgoes.2
      exact ⟨_, events, trailers, hcut.of_step hstep (h.step_within hstep hbefore) hle⟩
    -- the handler asks at the deadline, and learns of it
    · obtain ⟨hdue, hchecks⟩ := not_or.1 hbefore
      obtain rfl : session.now = tick := by omega
      exact h.cutOff_of_struck (h.struck_of_check hheeds (Classical.not_not.1 hchecks))
  | pop session rest event hstep hpop ih =>
    by_cases hbefore : session.now < tick
    · rw [history_of_pop hstep hpop] at hgoes
      have hrest : rest.isActive = true := by
        rw [(eq_of_pop hpop).2]
        exact hactive
      obtain ⟨deeds, events, trailers, hcut⟩ := ih (h.pop hpop) hrest (now_of_pop hpop ▸ hle) hgoes
      exact ⟨deeds, _, trailers, hcut.of_pop hstep (step_within_early hactive hstep hbefore) hpop hle⟩
    · obtain rfl : session.now = tick := by omega
      exact h.cutOff_of_struck (h.struck_of_none hactive hstep)
  | wake session wake hquiet hwake hlater htime ih =>
    rw [history_of_wake hquiet hwake hlater htime] at hgoes
    obtain ⟨deeds, events, trailers, hcut⟩ := ih (h.withNow wake) hactive htime hgoes
    have hquiet' : (session.within tick).Quiet := quiet_within hactive hquiet (by omega)
    have hwake' := h.wake_within hwake htime
    refine ⟨deeds, events, trailers, hcut.of_pass htime (fun horizon hle => ⟨?_, ?_⟩) (fun horizon hle => ⟨?_, ?_⟩)⟩
    · exact history_of_wake hquiet hwake hlater hle
    · exact transcript_of_wake hquiet hwake hlater hle
    · exact history_of_wake hquiet' hwake' hlater hle
    · exact transcript_of_wake hquiet' hwake' hlater hle
  | rests session hrests => exact h.cutOff_of_rests hactive hrests hle

/-- What the peer of a call that is cut off took is what its handler let out by then, and the end carries what it
inserted besides. -/
theorem CutOff.account {free bounded : Session handler} (h : CutOff tick free bounded deeds events trailers)
    (haccounted : Accounted bounded [] []) (hgoes : ∀ entry ∈ free.history tick, entry.2.ends = false) :
    events.map (·.2) = Deed.letOut (deeds.map (·.2)) ∧
      [.ended (.error Context.expired) trailers] = Deed.ending (deeds.map (·.2)) (.error Context.expired) := by
  have hpending : Deed.returned? (deeds.map (·.2)) = none := by
    obtain ⟨late, hlate, -⟩ := h.freeHistory tick (Nat.le_refl _)
    rw [hlate, List.forall_mem_append] at hgoes
    rw [Deed.returned?, List.findSome?_eq_none_iff, List.forall_mem_map]
    intro entry hentry
    have hends := hgoes.1 entry hentry
    generalize entry.2 = deed at hends
    cases deed <;> simp_all [Deed.ends, Deed.outcome?]
  have haccount := haccounted.account_history tick
  rw [h.transcript tick (Nat.le_refl _), h.history tick (Nat.le_refl _)] at haccount
  simp only [List.map_append, List.map_cons, List.map_nil, List.nil_append,
    Deed.account_append_returned hpending, Deed.account_of_pending hpending] at haccount
  refine List.append_inj' haccount ?_
  rw [Deed.ending]
  split <;> rfl

end CutOff

end RpcConformance.Session
