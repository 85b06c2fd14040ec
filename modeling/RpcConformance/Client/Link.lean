import RpcConformance.Session.Clock
/-!
What carries a call for its client: requests go one way and the events of the response come back,
on a clock of milliseconds. A link that has given an event away has less left to give, so that
waiting for a message behind any number of headers ends.
-/
namespace RpcConformance.Client

/-- A carrier of one call with requests `Req` and responses `Res`. -/
class Link (L : Type) (Req Res : outParam Type) where
  now : L → Nat
  /-- Sends a request, and waits for room until a time at most. -/
  send : L → Req → Nat → Sent × L
  /-- There will be no more requests. -/
  closeSend : L → L
  /-- The client gives the call up. -/
  reset : L → L
  /-- Waits for the next event until a time at most. -/
  receive : L → Nat → Received (Event Res) × L
  /-- Lets time pass up to a time. -/
  advance : L → Nat → L
  /-- How much there is left to give. -/
  size : L → Nat × Nat × Nat
  receive_shrinks : ∀ {link rest : L} {time : Nat} {event : Event Res},
    receive link time = (.event event, rest) → Session.SizeBelow (size rest) (size link)

end RpcConformance.Client
