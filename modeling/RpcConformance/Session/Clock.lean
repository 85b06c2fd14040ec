import RpcConformance.Session.Settle
/-!
The clock of a session: when nothing more can happen at one instant, it jumps to the next time at
which something can (`wake?`). Waiting for an event goes on until one is there or the time is up; a
session that has given an event away has less left to do (`receive_shrinks`).
-/
namespace RpcConformance

/-- What someone who waits for the next event gets. -/
inductive Received (α : Type)
  | event (event : α)
  /-- There will be no event any more. -/
  | closed
  /-- There was none before the time was up. -/
  | blocked
deriving Repr

inductive Sent
  | accepted
  /-- Nobody will ever take it. -/
  | refused
  /-- There was no room before the time was up. -/
  | blocked
deriving DecidableEq, Repr

def earlier? : Option Nat → Option Nat → Option Nat
  | some a, some b => some (min a b)
  | some a, none => some a
  | none, b => b

namespace Session

variable {Req Res : Type} {handler : Handler Req Res}

def pop (session : Session handler) : Option (Event Bytes × Session handler) :=
  match session.sink.queue with
  | event :: queue => some (event, { session with sink := { session.sink with queue } })
  | [] => none

def isOver (session : Session handler) : Bool :=
  match session.stage with
  | .over => true
  | _ => false

/-- When something can happen to a session at rest. -/
def wake? (session : Session handler) : Option Nat :=
  match session.stage with
  | .running state =>
    match handler.act state with
    | .receive _ => earlier? session.inbound.wake? session.bound
    | _ => session.bound
  | .asleep wakes _ => earlier? (some wakes) session.bound
  | .closing _ | .over => none

/-- The peer goes: the handler is stopped and what it made is lost. -/
def hangUp (session : Session handler) : Session handler :=
  { session.abandon with sink := { session.sink.close with queue := [] } }

/-- Sends a request if there is room for it, or nobody to take it. -/
def offer (session : Session handler) (item : Except Status Bytes) :
    Option (Sent × Session handler) :=
  match session.inbound.push item with
  | .accepted inbound => some (.accepted, { session with inbound })
  | .refused => some (.refused, session)
  | .full => none

/-- How much is left to do: requests to read, steps to take, events to give away. -/
def size (session : Session handler) : Nat × Nat × Nat :=
  (session.inbound.weight, session.stageWeight, session.sink.queue.length)

/-- Whether one size is below another: the first number that differs is smaller. -/
def SizeBelow : Nat × Nat × Nat → Nat × Nat × Nat → Prop :=
  Prod.Lex (· < ·) (Prod.Lex (· < ·) (· < ·))

theorem sizeBelow_wf : WellFounded SizeBelow :=
  (Prod.lex ⟨_, Nat.lt_wfRel.wf⟩ (Prod.lex ⟨_, Nat.lt_wfRel.wf⟩ ⟨_, Nat.lt_wfRel.wf⟩)).wf

theorem SizeBelow.trans {a b c : Nat × Nat × Nat} (hab : SizeBelow a b) (hbc : SizeBelow b c) :
    SizeBelow a c := by
  simp only [SizeBelow, Prod.lex_def] at *
  omega

theorem size_of_below {next session : Session handler} (h : Below next session) :
    SizeBelow next.size session.size := by
  simp only [Below, InvImage] at h
  rcases Prod.lex_def.1 h with h | ⟨h, h'⟩
  · exact Prod.Lex.left _ _ h
  · simp only at h h'
    simp only [size, h]
    exact Prod.Lex.right _ (Prod.Lex.left _ _ h')

theorem size_of_pop {session rest : Session handler} {event : Event Bytes}
    (h : session.pop = some (event, rest)) : SizeBelow rest.size session.size := by
  unfold pop at h
  split at h
  · rename_i queue hqueue
    cases h
    exact Prod.Lex.right _ (Prod.Lex.right _ (by simp [hqueue]))
  · cases h

variable [Message Req] [Message Res]

theorem size_settle (session : Session handler) :
    session.settle.size = session.size ∨ SizeBelow session.settle.size session.size := by
  fun_induction settle session with
  | case1 session next h ih =>
    have hnext := size_of_below (step_shrinks h)
    rcases ih with heq | hlt
    · exact .inr (heq ▸ hnext)
    · exact .inr (hlt.trans hnext)
  | case2 => exact .inl rfl

/-- Lets everything happen until there is what `ready` looks for, or until `time`. -/
def runUntil {β : Type} (ready : Session handler → Option (β × Session handler))
    (session : Session handler) (time : Nat) : Option β × Session handler :=
  let rested := session.settle
  match ready rested with
  | some (found, rest) => (some found, rest)
  | none =>
    match rested.wake? with
    | some wake =>
      if session.now < wake ∧ wake ≤ time then { rested with now := wake }.runUntil ready time
      else (none, { rested with now := max session.now time })
    | none => (none, { rested with now := max session.now time })
termination_by time - session.now
decreasing_by omega

theorem size_runUntil {β : Type} {ready : Session handler → Option (β × Session handler)} {found : β}
    (hready : ∀ session rest, ready session = some (found, rest) → SizeBelow rest.size session.size)
    {session rest : Session handler} {time : Nat}
    (h : session.runUntil ready time = (some found, rest)) : SizeBelow rest.size session.size := by
  fun_induction runUntil ready session time with
  | case1 session rested found' rest' hfound =>
    cases h
    rcases size_settle session with heq | hlt
    · exact heq ▸ hready _ _ hfound
    · exact (hready _ _ hfound).trans hlt
  | case2 session rested _ wake _ _ ih =>
    rcases size_settle session with heq | hlt
    · exact heq ▸ ih h
    · exact (ih h).trans hlt
  | case3 => cases h
  | case4 => cases h

def nextEvent (session : Session handler) : Option (Option (Event Bytes) × Session handler) :=
  match session.pop with
  | some (event, rest) => some (some event, rest)
  | none => if session.isOver then some (none, session) else none

/-- Waits for the next event until `time` at most. -/
def receive (session : Session handler) (time : Nat) :
    Received (Event Bytes) × Session handler :=
  match session.runUntil nextEvent time with
  | (some (some event), session) => (.event event, session)
  | (some none, session) => (.closed, session)
  | (none, session) => (.blocked, session)

theorem receive_shrinks {session rest : Session handler} {time : Nat} {event : Event Bytes}
    (h : session.receive time = (.event event, rest)) : SizeBelow rest.size session.size := by
  unfold receive at h
  split at h
  · rename_i hrun
    cases h
    refine size_runUntil (fun before after hready => ?_) hrun
    unfold nextEvent at hready
    split at hready
    · rename_i hpop
      cases hready
      exact size_of_pop hpop
    · split at hready <;> cases hready
  · cases h
  · cases h

def send (session : Session handler) (item : Except Status Bytes) (time : Nat) :
    Sent × Session handler :=
  match session.offer item with
  | some (sent, session) => (sent, session)
  | none =>
    match session.runUntil (offer · item) time with
    | (some sent, session) => (sent, session)
    | (none, session) => (.blocked, session)

def advance (session : Session handler) (time : Nat) : Session handler :=
  (session.runUntil (β := Unit) (fun _ => none) time).2

end Session
end RpcConformance
