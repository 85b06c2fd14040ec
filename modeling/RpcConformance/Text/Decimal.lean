import RpcConformance.Bytes
/-!
Decimal integers as the headers, messages and settings spell them: an optional sign, then digits,
with a bound on the value. Every way to fail has its own cause.
-/
namespace RpcConformance.Text.Decimal

inductive Error
  | empty
  | invalidDigit
  | tooLarge
  | tooSmall
deriving DecidableEq, Repr

def Error.message : Error → String
  | .empty => "cannot parse integer from empty string"
  | .invalidDigit => "invalid digit found in string"
  | .tooLarge => "number too large to fit in target type"
  | .tooSmall => "number too small to fit in target type"

/-- Reads digits onto `n`, never beyond `bound`; at each character a bad digit is reported before
the overflow it would have caused. -/
def magnitude (bound : Nat) (overflow : Error) : Nat → Bytes → Except Error Nat
  | n, [] => .ok n
  | n, b :: rest =>
    if Bytes.isDigit b then
      let next := n * 10 + (b - 0x30).toNat
      if next ≤ bound then magnitude bound overflow next rest else .error overflow
    else .error .invalidDigit

/-- Reads a natural number up to `max`; one leading plus is allowed. -/
def natUpTo (max : Nat) (bs : Bytes) : Except Error Nat :=
  match bs with
  | [] => .error .empty
  | [0x2b] => .error .invalidDigit
  | 0x2b :: digits => magnitude max .tooLarge 0 digits
  | digits => magnitude max .tooLarge 0 digits

def int32 (bs : Bytes) : Except Error Int32 :=
  match bs with
  | [0x2d] => .error .invalidDigit
  | 0x2d :: digits => do
    let n ← magnitude 0x80000000 .tooSmall 0 digits
    return Int32.ofInt (-n)
  | bs => do
    let n ← natUpTo 0x7fffffff bs
    return Int32.ofNat n

def render (n : Nat) : String := String.ofList (Nat.toDigits 10 n)

def renderInt (n : Int) : String :=
  if n < 0 then String.ofList ('-' :: Nat.toDigits 10 n.natAbs) else render n.natAbs

end RpcConformance.Text.Decimal
