import RpcConformance.Status.Basic
/-!
The request side of a call as its handler reads it: encoded messages and failed reads in order,
perhaps with pauses between them, then the end. A cancellation overtakes whatever is queued and is
read once; a clean end is read only when nothing is queued and nothing more can come.
-/
namespace RpcConformance

inductive Arrival
  | item (item : Except Status Bytes)
  | pause (ticks : Nat)
  | due (time : Nat)
deriving Repr

/-- How many steps the reader may need for one thing: a pause begins and ends. -/
def Arrival.steps : Arrival → Nat
  | .pause _ => 2
  | _ => 1

/-- The requests that are queued, and what else the reader will learn. -/
structure Inbound where
  arrivals : List Arrival
  /-- Nothing will be queued any more. -/
  closed : Bool
  /-- The sender gave the call up and the reader has not been told. -/
  canceled : Bool := false
  /-- The reader has gone, or has come to the end. -/
  dropped : Bool := false
deriving Repr

namespace Inbound

/-- How many messages may be queued. -/
def capacity : Nat := 16

def openEnd : Inbound := { arrivals := [], closed := false }

/-- What is left when nothing more will be read. -/
def gone : Inbound := { arrivals := [], closed := true, dropped := true }

def ofItems (items : List (Except Status Bytes)) : Inbound :=
  { arrivals := items.map .item, closed := true }

def cancellation : Status := .canceled "call canceled by the client"

/-- What happens when the reader asks for the next item. -/
inductive Poll
  | item (item : Except Status Bytes) (rest : Inbound)
  | ended (rest : Inbound)
  | begun (rest : Inbound)
  | waiting

/-- Asks for the next item; a pause begins when the reader first comes to it. -/
def poll (inbound : Inbound) (now : Nat) : Poll :=
  if inbound.canceled then
    .item (.error cancellation) gone
  else
    match inbound.arrivals with
    | [] => if inbound.closed then .ended gone else .waiting
    | .item item :: rest => .item item { inbound with arrivals := rest }
    | .pause ticks :: rest => .begun { inbound with arrivals := .due (now + ticks) :: rest }
    | .due time :: rest =>
      if time ≤ now then .begun { inbound with arrivals := rest } else .waiting

/-- When a reader that waits has to ask again. -/
def wake? (inbound : Inbound) : Option Nat :=
  match inbound.arrivals with
  | .due time :: _ => some time
  | _ => none

/-- How many steps the reader may need for what is queued. -/
def weight (inbound : Inbound) : Nat :=
  (inbound.arrivals.map Arrival.steps).foldr (· + ·) 0 + if inbound.canceled then 1 else 0

theorem weight_of_item {inbound rest : Inbound} {now : Nat} {item : Except Status Bytes}
    (h : inbound.poll now = .item item rest) : rest.weight < inbound.weight := by
  unfold poll at h
  repeat' split at h
  all_goals cases h
  · simp [weight, gone, *]
  · simp_all [weight, Arrival.steps]

@[simp] theorem weight_gone : gone.weight = 0 := rfl

theorem eq_gone_of_ended {inbound rest : Inbound} {now : Nat} (h : inbound.poll now = .ended rest) :
    rest = gone := by
  unfold poll at h
  repeat' split at h
  all_goals cases h
  rfl

theorem weight_of_begun {inbound rest : Inbound} {now : Nat}
    (h : inbound.poll now = .begun rest) : rest.weight < inbound.weight := by
  unfold poll at h
  repeat' split at h
  all_goals cases h
  all_goals simp_all [weight, Arrival.steps]

inductive Push
  | accepted (inbound : Inbound)
  | full
  | refused

def push (inbound : Inbound) (item : Except Status Bytes) : Push :=
  if inbound.dropped then .refused
  else if inbound.arrivals.length < capacity then
    .accepted { inbound with arrivals := inbound.arrivals ++ [.item item] }
  else .full

def close (inbound : Inbound) : Inbound := { inbound with closed := true }

def cancel (inbound : Inbound) : Inbound := { inbound with closed := true, canceled := !inbound.dropped }

end Inbound
end RpcConformance
