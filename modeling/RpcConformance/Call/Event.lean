import RpcConformance.Metadata.Basic
import RpcConformance.Status.Basic
/-!
What a call produces on its response side, in order: headers at most once, messages, and the end.
-/
namespace RpcConformance

inductive Event (α : Type)
  | headers (metadata : Metadata)
  | message (message : α)
  | ended (outcome : Outcome) (trailers : Metadata)
deriving Repr

/-- A message and the metadata that came with it. -/
structure Response (α : Type) where
  message : α
  headers : Metadata
  trailers : Metadata
deriving DecidableEq, Repr

namespace Response

def of {α : Type} (message : α) : Response α := ⟨message, .empty, .empty⟩

end Response
end RpcConformance
