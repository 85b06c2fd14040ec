import RpcConformance.Handler.Plan
import RpcConformance.Proofs.Call.Inbound
import RpcConformance.Proofs.Session.Course
/-!
What a handler does when nothing hinders it: no deadline strikes, nobody gives the call up, and there is always room
for what it sends. It then depends on what it reads and not on when it reads it (`script`). For a handler that follows a
plan there is one equation for each step and each thing that is read.
-/
namespace RpcConformance.Handler

variable {Req Res : Type} [Message Req] [Message Res] (handler : Handler Req Res) (codec : Codec)

/-- What a handler does from a state on, when it reads `heard`: `sent` tells whether the headers are out, and `gone`
whether it has come to the end of the requests or listens to them no more. It stops where it waits for more than was
heard. -/
def script (sent gone : Bool) (state : handler.State) (heard : List Reading) : List Deed :=
  match _h : handler.act state with
  | .finish outcome => [.returned outcome]
  | .panic => [.panicked]
  | .hang => []
  | .sleep _ next => script sent gone next heard
  | .headers metadata next => .headers metadata :: script sent gone next heard
  | .trailers metadata next => .trailers metadata :: script sent gone next heard
  | .flush next => .flush :: script true gone (next (.ok ())) heard
  | .send message next =>
    (if sent then [] else [.flush]) ++
      match codec.encode message with
      | .ok bytes => .message bytes :: script true gone (next (.ok ())) heard
      | .error status => script true gone (next (.error status)) heard
  | .receive next =>
    if gone then script sent true (next (.ok none)) heard
    else
      match heard with
      | [] => []
      | .item item :: heard => script sent false (next (Session.decoded codec item)) heard
      | .ended :: heard => script sent true (next (.ok none)) heard
  | .check next => script sent gone (next (.ok ())) heard
  | .release next => script sent true next heard
termination_by (heard.length, handler.size state)
decreasing_by
  all_goals
    have hshrinks := handler.shrinks state
    rw [_h] at hshrinks
    simp only [Action.Shrinks] at hshrinks
    first
      | exact Prod.Lex.right _ hshrinks
      | exact Prod.Lex.right _ (hshrinks _)
      | exact Prod.Lex.left _ _ (Nat.lt_succ_self _)

/-- What a handler does by an action and from there on. -/
def scriptOf (sent gone : Bool) (heard : List Reading) : Action handler.State Req Res → List Deed
  | .finish outcome => [.returned outcome]
  | .panic => [.panicked]
  | .hang => []
  | .sleep _ next => handler.script codec sent gone next heard
  | .headers metadata next => .headers metadata :: handler.script codec sent gone next heard
  | .trailers metadata next => .trailers metadata :: handler.script codec sent gone next heard
  | .flush next => .flush :: handler.script codec true gone (next (.ok ())) heard
  | .send message next =>
    (if sent then [] else [.flush]) ++
      match codec.encode message with
      | .ok bytes => .message bytes :: handler.script codec true gone (next (.ok ())) heard
      | .error status => handler.script codec true gone (next (.error status)) heard
  | .receive next =>
    if gone then handler.script codec sent true (next (.ok none)) heard
    else
      match heard with
      | [] => []
      | .item item :: heard => handler.script codec sent false (next (Session.decoded codec item)) heard
      | .ended :: heard => handler.script codec sent true (next (.ok none)) heard
  | .check next => handler.script codec sent gone (next (.ok ())) heard
  | .release next => handler.script codec sent true next heard

theorem script_eq (sent gone : Bool) (state : handler.State) (heard : List Reading) :
    handler.script codec sent gone state heard = handler.scriptOf codec sent gone heard (handler.act state) := by
  rw [script]
  split <;> simp only [scriptOf, *]

/-- A handler that listens no more does the same whatever there would be to read. -/
theorem script_gone (sent : Bool) (state : handler.State) (heard other : List Reading) :
    handler.script codec sent true state heard = handler.script codec sent true state other := by
  induction hsize : handler.size state using Nat.strongRecOn generalizing sent state with
  | ind size ih =>
    subst hsize
    have hshrinks := handler.shrinks state
    rw [script_eq, script_eq]
    generalize handler.act state = action at hshrinks
    cases action with
    | finish | panic | hang => rfl
    | sleep span next => exact ih _ hshrinks _ next rfl
    | headers metadata next | trailers metadata next => exact congrArg (List.cons _) (ih _ hshrinks _ next rfl)
    | flush next => exact congrArg (List.cons _) (ih _ (hshrinks _) _ _ rfl)
    | send message next =>
      rw [scriptOf, scriptOf]
      cases codec.encode message with
      | ok bytes => simp only [ih _ (hshrinks (.ok ())) true _ rfl]
      | error status => simp only [ih _ (hshrinks (.error status)) true _ rfl]
    | receive next => exact ih _ hshrinks _ _ rfl
    | check next => exact ih _ (hshrinks _) _ _ rfl
    | release next => exact ih _ hshrinks _ next rfl

end RpcConformance.Handler

namespace RpcConformance.Plan

variable {Req Res : Type} [Message Req] [Message Res]

/-- What a handler that follows a plan does from where it is in it. -/
def script (plan : Context → Plan Req Res) (codec : Codec) (sent gone : Bool) (progress : Progress Req Res)
    (heard : List Reading) : List Deed :=
  (handler plan).script codec sent gone progress heard

variable {plan : Context → Plan Req Res} {codec : Codec} {sent gone : Bool} {progress : Progress Req Res}
  {steps : List (Step Res)} {rest : Plan Req Res} {heard : List Reading}

theorem script_eq :
    script plan codec sent gone progress heard = (handler plan).scriptOf codec sent gone heard (act progress) :=
  (handler plan).script_eq codec sent gone progress heard

theorem script_done (outcome : Outcome) : script plan codec sent gone (.done outcome) heard = [.returned outcome] :=
  script_eq

theorem script_finish : script plan codec sent gone (.going [] []) heard = [.returned (.ok ())] :=
  script_eq

theorem script_step (step : Step Res) :
    script plan codec sent gone (.going [] (.step step :: rest)) heard =
      script plan codec sent gone (.going [step] rest) heard := by
  rw [script_eq, script_eq]
  rfl

theorem script_sleep (span : Duration) :
    script plan codec sent gone (.going (.sleep span :: steps) rest) heard =
      script plan codec sent gone (.going steps rest) heard :=
  script_eq

theorem script_check :
    script plan codec sent gone (.going (.check :: steps) rest) heard =
      script plan codec sent gone (.going steps rest) heard :=
  script_eq

theorem script_fail (status : Status) :
    script plan codec sent gone (.going (.fail status :: steps) rest) heard = [.returned (.error status)] :=
  script_eq

theorem script_headers (metadata : Metadata) :
    script plan codec sent gone (.going (.headers metadata :: steps) rest) heard =
      .headers metadata :: script plan codec sent gone (.going steps rest) heard :=
  script_eq

theorem script_trailers (metadata : Metadata) :
    script plan codec sent gone (.going (.trailers metadata :: steps) rest) heard =
      .trailers metadata :: script plan codec sent gone (.going steps rest) heard :=
  script_eq

theorem script_send {message : Res} {bytes : Bytes} (h : codec.encode message = .ok bytes) :
    script plan codec sent gone (.going (.send message :: steps) rest) heard =
      (if sent then [] else [.flush]) ++
        .message bytes :: script plan codec true gone (.going steps rest) heard := by
  have hsend : script plan codec sent gone (.going (.send message :: steps) rest) heard =
      (if sent then [] else [.flush]) ++
        match codec.encode message with
        | .ok bytes => .message bytes :: script plan codec true gone (.going steps rest) heard
        | .error status => script plan codec true gone (.done (.error status)) heard :=
    script_eq
  rw [hsend, h]

section Reading

variable {ending : Progress Req Res} {next : Req → Progress Req Res}
  (h : act progress = .receive (reading next ending))

include h

theorem script_item (item : Except Status Bytes) :
    script plan codec sent false progress (.item item :: heard) =
      script plan codec sent false (reading next ending (Session.decoded codec item)) heard := by
  rw [script_eq, h]
  rfl

theorem script_of_read {item : Except Status Bytes} {request : Req} (hitem : item.bind codec.decode = .ok request) :
    script plan codec sent false progress (.item item :: heard) =
      script plan codec sent false (next request) heard := by
  have hdecoded : Session.decoded codec item = .ok (some request) := by
    cases item with
    | error status => cases hitem
    | ok bytes => exact congrArg (Except.map some) hitem
  rw [script_item h, hdecoded]
  rfl

theorem script_of_unreadable {item : Except Status Bytes} {status : Status}
    (hitem : item.bind (codec.decode : Bytes → Except Status Req) = .error status) :
    script plan codec sent false progress (.item item :: heard) = [.returned (.error status)] := by
  have hdecoded : Session.decoded codec item = (.error status : Except Status (Option Req)) := by
    cases item with
    | error found =>
      cases hitem
      rfl
    | ok bytes => exact congrArg (Except.map some) hitem
  rw [script_item h, hdecoded]
  exact script_done _

theorem script_of_end :
    script plan codec sent false progress (.ended :: heard) = script plan codec sent true ending heard := by
  rw [script_eq, h]
  rfl

theorem script_of_nothing : script plan codec sent false progress [] = [] := by
  rw [script_eq, h]
  rfl

end Reading

end RpcConformance.Plan
