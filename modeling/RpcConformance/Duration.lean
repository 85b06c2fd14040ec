import RpcConformance.Text.Decimal
/-!
Spans of time in nanoseconds, and their short written form: the largest unit with a whole part, then
the fraction without trailing zeros.
-/
namespace RpcConformance

structure Duration where
  nanos : Nat
deriving DecidableEq, Repr, Inhabited

namespace Duration

def ofMicros (n : Nat) : Duration := ⟨n * 1000⟩
def ofMillis (n : Nat) : Duration := ⟨n * 1000000⟩
def ofSeconds (n : Nat) : Duration := ⟨n * 1000000000⟩

/-- How many whole milliseconds cover the span. -/
def ticks (d : Duration) : Nat := (d.nanos + 999999) / 1000000

def padded (width n : Nat) : List Char :=
  let digits := Nat.toDigits 10 n
  List.replicate (width - digits.length) '0' ++ digits

/-- A number with `places` decimal places, given in units of the last place, without trailing zeros. -/
def decimal (n places : Nat) : String :=
  let fraction := ((padded places (n % Nat.pow 10 places)).reverse.dropWhile (· == '0')).reverse
  Text.Decimal.render (n / Nat.pow 10 places) ++
    if fraction.isEmpty || places == 0 then "" else String.ofList ('.' :: fraction)

def render (d : Duration) : String :=
  if 1000000000 ≤ d.nanos then decimal d.nanos 9 ++ "s"
  else if 1000000 ≤ d.nanos then decimal d.nanos 6 ++ "ms"
  else if 1000 ≤ d.nanos then decimal d.nanos 3 ++ "µs"
  else decimal d.nanos 0 ++ "ns"

end Duration
end RpcConformance
