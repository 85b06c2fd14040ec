import RpcConformance.Duration
import RpcConformance.Protocol
import RpcConformance.Header.Map
import RpcConformance.Status.Basic
/-!
Call timeouts in request headers. Connect counts milliseconds in up to ten digits; gRPC counts in up
to eight digits the finest unit that can hold the timeout, rounded up.
-/
namespace RpcConformance.Timeout

def header : Protocol → String
  | .connect => "connect-timeout-ms"
  | .grpc | .grpcWeb => "grpc-timeout"

/-- A value that does not follow the grammar of its header. -/
def invalid (header value : String) : Status :=
  .invalidArgument ("invalid " ++ header ++ ": " ++ Text.Quoted.encode value)

/-- The number that between one and `maxDigits` ASCII digits spell. -/
def digits? (maxDigits : Nat) (cs : List Char) : Option Nat :=
  if cs.isEmpty || cs.length > maxDigits || !cs.all Char.isDigit then none
  else some (cs.foldl (fun n c => n * 10 + (c.toNat - 48)) 0)

/-- Reads a Connect timeout; zero means none. -/
def parseConnect (value : String) : Except Status (Option Duration) :=
  match digits? 10 value.toList with
  | some 0 => .ok none
  | some ms => .ok (some (.ofMillis ms))
  | none => .error (invalid (header .connect) value)

/-- Writes a Connect timeout: whole milliseconds, at least one unless the timeout is zero. -/
def formatConnect (timeout : Duration) : String :=
  let ms := timeout.nanos / 1000000
  Text.Decimal.render (min (if ms = 0 ∧ timeout.nanos ≠ 0 then 1 else ms) 9999999999)

def unitNanos? : Char → Option Nat
  | 'H' => some 3600000000000
  | 'M' => some 60000000000
  | 'S' => some 1000000000
  | 'm' => some 1000000
  | 'u' => some 1000
  | 'n' => some 1
  | _ => none

/-- Reads a gRPC timeout: digits, then a unit. -/
def parseGrpc (value : String) : Except Status Duration :=
  match value.toList.reverse with
  | [] => .error (invalid (header .grpc) value)
  | unit :: digits =>
    match digits? 8 digits.reverse, unitNanos? unit with
    | some amount, some nanos => .ok ⟨amount * nanos⟩
    | _, _ => .error (invalid (header .grpc) value)

def maxAmount : Nat := 99999999

/-- How many units of `scale` nanoseconds cover a timeout. -/
def amountIn (scale nanos : Nat) : Nat := (nanos + scale - 1) / scale

/-- The units of gRPC timeouts, finest first. -/
def units : List Char := ['n', 'u', 'm', 'S', 'M', 'H']

/-- Writes a gRPC timeout in the finest unit that holds it in eight digits. -/
def formatGrpc (timeout : Duration) : String :=
  let candidates := units.filterMap fun unit => do
    let amount := amountIn (← unitNanos? unit) timeout.nanos
    if amount ≤ maxAmount then some (amount, unit) else none
  let (amount, unit) := candidates.head?.getD (maxAmount, 'H')
  Text.Decimal.render amount ++ String.singleton unit

def ofHeaders (headers : HeaderMap) (protocol : Protocol) : Except Status (Option Duration) :=
  match headers.get? (header protocol) with
  | none => .ok none
  | some value =>
    match HeaderMap.asciiText? value with
    | none => .error (.invalidArgument ("invalid " ++ header protocol ++ " header"))
    | some text =>
      match protocol with
      | .connect => parseConnect text
      | .grpc | .grpcWeb => (parseGrpc text).map some

def field (protocol : Protocol) (timeout : Duration) : String × String :=
  match protocol with
  | .connect => (header protocol, formatConnect timeout)
  | .grpc | .grpcWeb => (header protocol, formatGrpc timeout)

end RpcConformance.Timeout
