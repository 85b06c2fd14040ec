import RpcConformance.Text.Lossy
/-!
Percent-encoding of status messages: a byte outside printable ASCII, and the percent sign itself, is
written as a percent sign and two hexadecimal digits. Reading keeps whatever is no escape.
-/
namespace RpcConformance.Text.Percent

def hexDigit (n : UInt8) : UInt8 := if n < 10 then 0x30 + n else 0x37 + n

/-- Whether a byte stands for itself. -/
def isPlain (b : UInt8) : Bool := 0x20 ≤ b && b ≤ 0x7e && b != 0x25

def encodeByte (b : UInt8) : Bytes :=
  if isPlain b then [b] else [0x25, hexDigit (b / 16), hexDigit (b % 16)]

def encode (message : String) : Bytes := (Bytes.ofString message).flatMap encodeByte

/-- The byte two characters after a percent sign stand for: two hexadecimal digits, or a plus sign
and one. -/
def escaped? (x y : UInt8) : Option UInt8 := do
  let low ← Bytes.hexDigit? y
  if x == 0x2b then return low
  let high ← Bytes.hexDigit? x
  return high * 16 + low

/-- The bytes a written form stands for, from left to right, onto those already read (last first). -/
def decodeOnto : Bytes → Bytes → Bytes
  | read, 0x25 :: x :: y :: rest =>
    match escaped? x y with
    | some b => decodeOnto (b :: read) rest
    | none => decodeOnto (0x25 :: read) (x :: y :: rest)
  | read, b :: rest => decodeOnto (b :: read) rest
  | read, [] => read.reverse
termination_by _ bs => bs.length

def decodeBytes (bs : Bytes) : Bytes := decodeOnto [] bs

def decode (bs : Bytes) : String := lossy (decodeBytes bs)

end RpcConformance.Text.Percent
