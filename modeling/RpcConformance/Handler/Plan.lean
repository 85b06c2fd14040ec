import RpcConformance.Call.Event
import RpcConformance.Handler.Basic
/-!
Handlers written down as plans: phases that read requests, and between them steps that do not. The
first failure of any kind ends the call with its status.
-/
namespace RpcConformance

/-- A step of a handler that reads nothing. -/
inductive Step (Res : Type)
  | sleep (span : Duration)
  | panic
  | hang
  | fail (status : Status)
  | check
  | headers (metadata : Metadata)
  | trailers (metadata : Metadata)
  | flush
  | send (message : Res)
  | release

inductive Phase (Req Res : Type)
  /-- Takes one step. -/
  | step (step : Step Res)
  /-- Reads one request and ignores it. -/
  | receive
  /-- Reads all requests and ignores them. -/
  | drain
  /-- Reads the only request, which has to be there, and answers it. -/
  | request (answer : Req → List (Step Res))
  /-- Answers each request as it comes. -/
  | serve (answer : Req → List (Step Res))
  /-- Reads all requests, some of which are there already, and then answers them together. -/
  | gather (taken : List Req) (answer : List Req → List (Step Res))

abbrev Plan (Req Res : Type) := List (Phase Req Res)

namespace Plan

/-- How far a plan has come: what is left of it, or how it ended. -/
inductive Progress (Req Res : Type)
  | going (steps : List (Step Res)) (plan : Plan Req Res)
  | done (outcome : Outcome)

variable {Req Res : Type}

def Progress.unless (next : Progress Req Res) : Outcome → Progress Req Res
  | .ok () => next
  | .error status => .done (.error status)

def phaseSize : Phase Req Res → Nat
  | .gather taken answer => (answer taken).length + 1
  | _ => 1

def Progress.size : Progress Req Res → Nat
  | going steps plan => steps.length + (plan.map phaseSize).foldr (· + ·) 0 + 1
  | done _ => 0

def stepAction (next : Progress Req Res) : Step Res → Action (Progress Req Res) Req Res
  | .sleep span => .sleep span next
  | .panic => .panic
  | .hang => .hang
  | .fail status => .finish (.error status)
  | .check => .check next.unless
  | .headers metadata => .headers metadata next
  | .trailers metadata => .trailers metadata next
  | .flush => .flush next.unless
  | .send message => .send message next.unless
  | .release => .release next

def missingRequest : Status := .invalidArgument "missing request message"

/-- Goes on as `some` says after a request, as `none` says after the end of the requests. -/
@[macro_inline]  -- so that an answer to all requests is not made before their end
def reading (some : Req → Progress Req Res) (none : Progress Req Res) :
    Except Status (Option Req) → Progress Req Res
  | .ok (.some request) => some request
  | .ok .none => none
  | .error status => .done (.error status)

/-- The action of a phase. -/
def phaseAction (plan : Plan Req Res) : Phase Req Res → Action (Progress Req Res) Req Res
  | .step step => stepAction (.going [] plan) step
  | .receive => .receive (reading (fun _ => .going [] plan) (.going [] plan))
  | .drain => .receive (reading (fun _ => .going [] (.drain :: plan)) (.going [] plan))
  | .request answer =>
    .receive (reading (fun request => .going (.release :: answer request) plan)
      (.done (.error missingRequest)))
  | .serve answer =>
    .receive (reading (fun request => .going (answer request) (.serve answer :: plan))
      (.going [] plan))
  | .gather taken answer =>
    .receive (reading (fun request => .going [] (.gather (taken ++ [request]) answer :: plan))
      (.going (answer taken) plan))

def act : Progress Req Res → Action (Progress Req Res) Req Res
  | .done outcome => .finish outcome
  | .going (step :: steps) plan => stepAction (.going steps plan) step
  | .going [] (phase :: plan) => phaseAction plan phase
  | .going [] [] => .finish (.ok ())

theorem size_unless (next : Progress Req Res) (outcome : Outcome) :
    (next.unless outcome).size ≤ next.size := by
  cases outcome <;> simp [Progress.unless, Progress.size]

theorem stepAction_shrinks (next : Progress Req Res) (step : Step Res) {bound : Nat}
    (h : next.size < bound) : (stepAction next step).Shrinks Progress.size bound := by
  cases step <;> simp only [stepAction, Action.Shrinks, h]
  all_goals exact fun outcome => Nat.lt_of_le_of_lt (size_unless next outcome) h

theorem act_shrinks (progress : Progress Req Res) :
    (act progress).Shrinks Progress.size progress.size := by
  match progress with
  | .done _ => exact trivial
  | .going [] [] => exact trivial
  | .going (step :: steps) plan =>
    exact stepAction_shrinks _ step (by simp only [Progress.size, List.length_cons]; omega)
  | .going [] (phase :: plan) =>
    cases phase with
    | step step =>
      exact stepAction_shrinks _ step
        (by simp only [Progress.size, phaseSize, List.map_cons, List.foldr_cons]; omega)
    | request => exact Nat.succ_pos _
    | _ =>
      simp only [act, phaseAction, Action.Shrinks, reading, Progress.size, phaseSize, List.map_cons,
        List.foldr_cons, List.length_nil]
      omega

def handler (plan : Context → Plan Req Res) : Handler Req Res where
  State := Progress Req Res
  start context := .going [] (plan context)
  act := act
  size := Progress.size
  shrinks := act_shrinks

def respond (response : Response Res) : List (Step Res) :=
  [.headers response.headers, .trailers response.trailers, .send response.message]

def deliver : Except Status (Response Res) → List (Step Res)
  | .ok response => respond response
  | .error status => [.fail status]

/-- Answers the only request by a function of it. -/
def answering (answer : Context → Req → Except Status (Response Res)) (context : Context) :
    Plan Req Res :=
  [.request fun request => deliver (answer context request)]

end Plan
end RpcConformance
