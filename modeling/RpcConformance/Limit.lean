import RpcConformance.Status.Basic
import RpcConformance.Text.Decimal
/-!
The largest message a receiver accepts.
-/
namespace RpcConformance

/-- A receive limit in bytes; `none` accepts any size. -/
structure Limit where
  maxBytes : Option Nat
deriving DecidableEq, Repr

namespace Limit

def unlimited : Limit := ⟨none⟩

def standard : Limit := ⟨some (4 * 1024 * 1024)⟩

def maxWord : Nat := 0xffffffffffffffff

/-- The bound as a machine word; no limit is the largest word. -/
def wordBound (limit : Limit) : Nat := limit.maxBytes.getD maxWord

def allows (limit : Limit) (size : Nat) : Bool :=
  match limit.maxBytes with
  | some max => size ≤ max
  | none => true

@[simp] theorem allows_unlimited (size : Nat) : unlimited.allows size = true := rfl

def exceeded (limit : Limit) : Status :=
  .resourceExhausted ("message exceeds maximum allowed size of " ++ Text.Decimal.render limit.wordBound
    ++ " bytes")

end Limit
end RpcConformance
