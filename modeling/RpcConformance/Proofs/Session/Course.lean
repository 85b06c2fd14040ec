import RpcConformance.Session.Transcript
/-!
The course of a call on the server: what its handler did, what its peer took, and where it stands.
Steps, the peer and the clock may take turns in any order; a transcript is one such course that went
on until nothing more could happen (`transcript_course`).
-/
namespace RpcConformance

/-- What a handler did to the response of its call. -/
inductive Deed
  | headers (metadata : Metadata)
  | trailers (metadata : Metadata)
  /-- Let the headers go out, as a message does that is the first. -/
  | flush
  | message (bytes : Bytes)
  | returned (outcome : Outcome)
  | panicked

namespace Deed

/-- Whether headers that are inserted from now on come too late. -/
def opens : Deed → Bool
  | flush | message _ => true
  | headers _ | trailers _ | returned _ | panicked => false

def headerEntries : Deed → List (String × Bytes)
  | headers metadata => metadata.entries
  | _ => []

def trailerEntries : Deed → List (String × Bytes)
  | trailers metadata => metadata.entries
  | _ => []

def message? : Deed → Option Bytes
  | message bytes => some bytes
  | _ => none

def outcome? : Deed → Option Outcome
  | returned outcome => some outcome
  | _ => none

def opened (deeds : List Deed) : Bool := deeds.any opens

def earlyHeaders (deeds : List Deed) : Metadata :=
  ⟨(deeds.takeWhile fun deed => !deed.opens).flatMap headerEntries⟩

def allTrailers (deeds : List Deed) : Metadata := ⟨deeds.flatMap trailerEntries⟩

def messages (deeds : List Deed) : List Bytes := deeds.filterMap message?

def returned? (deeds : List Deed) : Option Outcome := deeds.findSome? outcome?

end Deed

namespace Session

variable {Req Res : Type} {handler : Handler Req Res} [Message Req] [Message Res]

/-- What an action does to the response, if it is possible. -/
def deedsOf (session : Session handler) : Action handler.State Req Res → List Deed
  | .finish outcome => [.returned outcome]
  | .panic => [.panicked]
  | .headers metadata _ => [.headers metadata]
  | .trailers metadata _ => [.trailers metadata]
  | .flush _ => [.flush]
  | .send message _ =>
    if session.sink.headersSent then
      match session.sink.codec.encode message with
      | .ok bytes => [.message bytes]
      | .error _ => []
    else [.flush]
  | _ => []

/-- What the next step does to the response; a handler whose deadline strikes returns at once. -/
def deeds (session : Session handler) : List Deed :=
  match session.stage with
  | .running state =>
    if (session.act (handler.act state)).isSome then session.deedsOf (handler.act state)
    else [.returned (.error Context.expired)]
  | .asleep wakes _ => if wakes ≤ session.now then [] else [.returned (.error Context.expired)]
  | .closing _ | .over => []

/-- The courses of a call: the deeds of its handler and the events its peer took on the way to a
session. The peer may stop to listen at any time. -/
inductive Course (start : Session handler) : Session handler → List Deed → List (Event Bytes) → Prop
  | start : Course start start [] []
  | step {session next : Session handler} {deeds : List Deed} {taken : List (Event Bytes)}
      (h : Course start session deeds taken) (hstep : session.step = some next) :
      Course start next (deeds ++ session.deeds) taken
  | take {session rest : Session handler} {deeds : List Deed} {taken : List (Event Bytes)}
      {event : Event Bytes} (h : Course start session deeds taken)
      (hpop : session.pop = some (event, rest)) : Course start rest deeds (taken ++ [event])
  | wait {session : Session handler} {deeds : List Deed} {taken : List (Event Bytes)}
      (h : Course start session deeds taken) {time : Nat} (htime : session.now ≤ time) :
      Course start { session with now := time } deeds taken
  | request {session : Session handler} {deeds : List Deed} {taken : List (Event Bytes)}
      (h : Course start session deeds taken) (inbound : Inbound) :
      Course start { session with inbound } deeds taken
  | leave {session : Session handler} {deeds : List Deed} {taken : List (Event Bytes)}
      (h : Course start session deeds taken) : Course start session.hangUp deeds taken

theorem Course.trans {first second third : Session handler} {deeds deeds' : List Deed}
    {taken taken' : List (Event Bytes)} (h : Course first second deeds taken)
    (h' : Course second third deeds' taken') : Course first third (deeds ++ deeds') (taken ++ taken') := by
  induction h' with
  | start => simpa using h
  | step _ hstep ih => simpa [List.append_assoc] using ih.step hstep
  | take _ hpop ih => simpa [List.append_assoc] using ih.take hpop
  | wait _ htime ih => exact ih.wait htime
  | request _ inbound ih => exact ih.request inbound
  | leave _ ih => exact ih.leave

/-- Nothing can happen now, and nothing is there to be taken. -/
structure Quiet (session : Session handler) : Prop where
  step : session.step = none
  pop : session.pop = none

/-- A transcript is a course whose peer takes all there is, up to a session at which nothing more can
happen before the horizon. -/
theorem transcript_course (horizon : Nat) (session : Session handler) :
    ∃ last deeds, Course session last deeds ((session.transcript horizon).1.map (·.2)) ∧ last.Quiet ∧
      ((session.transcript horizon).2 = true ↔ last.isOver = true) := by
  fun_induction transcript horizon session with
  | case1 session next hstep ih =>
    obtain ⟨last, deeds, hcourse, hquiet, hover⟩ := ih
    exact ⟨last, _, (Course.start.step hstep).trans hcourse, hquiet, hover⟩
  | case2 session hstep event rest hpop events complete hrest ih =>
    obtain ⟨last, deeds, hcourse, hquiet, hover⟩ := ih
    rw [hrest] at hcourse hover
    exact ⟨last, _, (Course.start.take hpop).trans hcourse, hquiet, hover⟩
  | case3 session hstep hpop hover => exact ⟨session, [], .start, ⟨hstep, hpop⟩, by simp [hover]⟩
  | case4 session hstep hpop hover wake hwake htime ih =>
    obtain ⟨last, deeds, hcourse, hquiet, hlast⟩ := ih
    exact ⟨last, _, (Course.start.wait (Nat.le_of_lt htime.1)).trans hcourse, hquiet, hlast⟩
  | case5 session hstep hpop hover => exact ⟨session, [], .start, ⟨hstep, hpop⟩, by simp [hover]⟩
  | case6 session hstep hpop hover => exact ⟨session, [], .start, ⟨hstep, hpop⟩, by simp [hover]⟩

end Session
end RpcConformance
