import RpcConformance.Client.Transport
import RpcConformance.Scenario.Report
import RpcConformance.Scenario.Shown
/-!
What scenarios are made of: steps on a clock that make calls, and checks. The first check that does
not hold ends a trial, and so does a wait that lasts beyond the time the trial is given.
-/
namespace RpcConformance.Scenario

open Client

/-- How long a trial may last, and when that time is over. -/
structure Guard where
  span : Duration
  limit : Nat

abbrev Trial := ReaderT Guard (ExceptT Failure (StateM Nat))

namespace Trial

variable {α : Type}

def giveUp : Trial α := do throw (.timedOut (← read).span)

/-- What the panic over a deadline that the clock cannot tell says. -/
def overflow : Failure := .panic "overflow when adding duration to instant"

/-- The status or the value of an operation; a trial that waited in vain is over. -/
def settle : Except Halt α → Trial (Except Status α)
  | .ok a => pure (.ok a)
  | .error (.failed status) => pure (.error status)
  | .error .blocked => giveUp
  | .error .panicked => throw overflow

/-- Performs an operation on a call that may last as long as the trial. -/
def perform {L Req Res : Type} [Link L Req Res] (operation : Nat → Except Halt α × Call L) :
    Trial (Except Status α × Call L) := do
  let (result, call) := operation (← read).limit
  set call.now
  return (← settle result, call)

def expecting (what : String) : Except Status α → Trial α
  | .ok a => pure a
  | .error status => throw (.rpc what status)

def mismatch {β : Type} [Shown α] [Shown β] (what : String) (expected : α) (observed : β) : Trial Unit :=
  throw (.mismatch what (shown expected) (shown observed))

def checkEq [DecidableEq α] [Shown α] (what : String) (expected observed : α) : Trial Unit :=
  if expected = observed then pure () else mismatch what expected observed

/-- Checks that a result is a failure with a code, and with a message if one is given. -/
def checkStatus [Shown α] (what : String) (result : Except Status α) (code : Code)
    (message : Option String) : Trial Unit :=
  match result with
  | .ok value => mismatch what code value
  | .error status =>
    if status.code = code then
      match message with
      | some message => checkEq what message status.message
      | none => pure ()
    else mismatch what code status

section calls

variable {T : Type u} [Transport T]

def call (transport : T) (method : Method) (request : method.Request) (options : CallOptions := {}) :
    Trial (Except Status (Response method.Response)) := do
  let (result, now) := Transport.callMethod transport method request options (← get) (← read).limit
  set now
  settle result

def openCall (transport : T) (method : Method) (options : CallOptions := {}) :
    Trial (Transport.Call transport method.path method.Request method.Response) := do
  if Context.isTold options.timeout (← get) then
    return Transport.openMethod transport method options (← get)
  else throw overflow

variable {L Req Res : Type} [Link L Req Res]

def send (what : String) (call : Call L) (request : Req) : Trial (Call L) := do
  let (sent, call) ← perform (call.send request)
  expecting what sent
  return call

def receive (what : String) (call : Call L) : Trial (Option Res × Call L) := do
  let (received, call) ← perform call.receive
  return (← expecting what received, call)

def drain (what : String) (call : Call L) : Trial (List Res × Call L) := do
  let (received, call) ← perform call.drain
  return (← expecting what received, call)

/-- Checks that nothing is received for a while, neither a message nor an end. -/
def quiet [Shown α] (what : String) (view : Option Res → α) (ticks : Nat) (call : Call L) :
    Trial (Call L) := do
  let guard ← read
  let (result, call) := call.receive (min (call.now + ticks) guard.limit)
  set call.now
  match result with
  | .error .blocked => if guard.limit ≤ call.now then giveUp else pure ()
  | .error .panicked => throw overflow
  | .error (.failed status) => mismatch what "nothing" (Except.error status : Except Status α)
  | .ok received => mismatch what "nothing" (Except.ok (view received) : Except Status α)
  return call

end calls

end Trial
end RpcConformance.Scenario
