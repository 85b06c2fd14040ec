import RpcConformance.Session.Clock
/-!
Everything a peer gets who takes each event as soon as it is there: the events with their times, and
whether the call came to its end before a given time.
-/
namespace RpcConformance.Session

variable {Req Res : Type} {handler : Handler Req Res} [Message Req] [Message Res]

/-- The events of a call up to `horizon`, and whether nothing comes after them. -/
def transcript (horizon : Nat) (session : Session handler) : List (Nat × Event Bytes) × Bool :=
  match _hstep : session.step with
  | some next => next.transcript horizon
  | none =>
    match _hpop : session.pop with
    | some (event, rest) =>
      let (events, complete) := rest.transcript horizon
      ((session.now, event) :: events, complete)
    | none =>
      if session.isOver then ([], true)
      else
        match session.wake? with
        | some wake =>
          if session.now < wake ∧ wake ≤ horizon then { session with now := wake }.transcript horizon
          else ([], false)
        | none => ([], false)
termination_by
  (Prod.lex ⟨SizeBelow, sizeBelow_wf⟩ Nat.lt_wfRel).wf.wrap (session.size, horizon - session.now)
decreasing_by
  · exact Prod.Lex.left _ _ (size_of_below (step_shrinks _hstep))
  · exact Prod.Lex.left _ _ (size_of_pop _hpop)
  · refine Prod.Lex.right _ (show horizon - wake < horizon - session.now from ?_)
    omega

/-- The events of a call up to `horizon`, if they are all there are. -/
def completeEvents? (horizon : Nat) (session : Session handler) : Option (List (Event Bytes)) :=
  match session.transcript horizon with
  | (events, true) => some (events.map (·.2))
  | (_, false) => none

end RpcConformance.Session
