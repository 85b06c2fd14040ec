import RpcConformance.Duration
import RpcConformance.Metadata.Basic
import RpcConformance.Status.Basic
/-!
What a handler knows about its call besides the requests. Times count the milliseconds of one clock.
-/
namespace RpcConformance

/-- The metadata of a request, the time the call has to end at, and whether the peer gave it up. -/
structure Context where
  metadata : Metadata
  deadline : Option Nat := none
  canceled : Bool := false
deriving Repr

namespace Context

/-- The status of a call that ran out of time. -/
def expired : Status := .deadlineExceeded "call deadline exceeded"

/-- Where the clock ends, in nanoseconds: it counts seconds in 63 bits. -/
def clockEnd : Nat := Nat.pow 2 63 * 1000000000

/-- Whether the clock can tell when a call that starts now has to end. To ask for a time beyond its end
panics. -/
def isTold (timeout : Option Duration) (now : Nat) : Bool :=
  match timeout with
  | some span => now * 1000000 + span.nanos < clockEnd
  | none => true

/-- When a call that starts now has to end, if the clock can tell. -/
def deadlineAfter (timeout : Option Duration) (now : Nat) : Option Nat :=
  timeout.map fun span => now + span.ticks

/-- How long to wait at most where the clock cannot tell the end of a wait: thirty years. -/
def farAhead : Duration := .ofSeconds (30 * 365 * 86400)

/-- When a wait that starts now has to end; unlike a deadline it can be asked for with any timeout. -/
def patience (timeout : Option Duration) (now : Nat) : Option Nat :=
  if isTold timeout now then deadlineAfter timeout now else deadlineAfter (some farAhead) now

def isExpired (deadline : Option Nat) (now : Nat) : Bool :=
  match deadline with
  | some time => time ≤ now
  | none => false

def check (context : Context) (now : Nat) : Outcome :=
  if context.canceled then .error (.canceled "call canceled by peer")
  else if isExpired context.deadline now then .error expired
  else .ok ()

end Context
end RpcConformance
