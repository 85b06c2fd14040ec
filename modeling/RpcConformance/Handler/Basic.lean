import RpcConformance.Call.Context
import RpcConformance.Duration
/-!
Handlers: what a server does with a call, as a machine that takes one action at a time. A handler
cannot act for ever on one request: its state shrinks with every action but the reading of a request.
-/
namespace RpcConformance

/-- What a handler does next, and how it goes on. -/
inductive Action (σ Req Res : Type)
  | finish (outcome : Outcome)
  | panic
  | hang
  | sleep (span : Duration) (next : σ)
  | headers (metadata : Metadata) (next : σ)
  | trailers (metadata : Metadata) (next : σ)
  | flush (next : Outcome → σ)
  | send (message : Res) (next : Outcome → σ)
  | receive (next : Except Status (Option Req) → σ)
  | check (next : Outcome → σ)
  | release (next : σ)

/-- Whether an action leads only to states below `bound`, unless it reads something. -/
def Action.Shrinks {σ Req Res : Type} (size : σ → Nat) (bound : Nat) : Action σ Req Res → Prop
  | finish _ | panic | hang => True
  | sleep _ next | headers _ next | trailers _ next | release next => size next < bound
  | flush next | send _ next | check next => ∀ outcome, size (next outcome) < bound
  | receive next => size (next (.ok none)) < bound

/-- A handler of requests `Req` that answers with `Res`. -/
structure Handler (Req Res : Type) where
  State : Type
  start : Context → State
  act : State → Action State Req Res
  size : State → Nat
  shrinks : ∀ state, (act state).Shrinks size (size state)

namespace Handler

def refuse {Req Res : Type} (status : Status) : Handler Req Res where
  State := Unit
  start _ := ()
  act _ := .finish (.error status)
  size _ := 0
  shrinks _ := trivial

end Handler
end RpcConformance
