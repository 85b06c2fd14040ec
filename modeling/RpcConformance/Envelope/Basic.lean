import RpcConformance.Status.Basic
import RpcConformance.Text.Decimal
/-!
Envelopes: one byte of flags, the length of the payload in four bytes, then the payload.
-/
namespace RpcConformance

/-- A frame of a message stream. -/
structure Envelope where
  flags : UInt8
  payload : Bytes
deriving DecidableEq, Repr, Inhabited

namespace Envelope

def messageFlags : UInt8 := 0x00

def compressedBit : UInt8 := 0x01

def endStreamFlags : UInt8 := 0x02

def trailerFlags : UInt8 := 0x80

def headerSize : Nat := 5

/-- A number as four bytes, the highest first; what does not fit is cut off. -/
def wordBytes (n : Nat) : Bytes :=
  [(n / 16777216).toUInt8, (n / 65536).toUInt8, (n / 256).toUInt8, n.toUInt8]

def wrap (flags : UInt8) (payload : Bytes) : Bytes := flags :: wordBytes payload.length ++ payload

def toBytes (envelope : Envelope) : Bytes := wrap envelope.flags envelope.payload

/-- The flags and the declared length at the head of some bytes, once all five are there. -/
def readHeader? : Bytes → Option (UInt8 × Nat)
  | flags :: a :: b :: c :: d :: _ => some (flags, Bytes.bigEndian [a, b, c, d])
  | _ => none

def isEndStream (envelope : Envelope) : Bool := envelope.flags &&& endStreamFlags != 0

def isTrailers (envelope : Envelope) : Bool := envelope.flags &&& trailerFlags != 0

def isCompressed (flags : UInt8) : Bool := flags &&& compressedBit != 0

def flagDigits (flags : UInt8) : String :=
  "0x" ++ String.ofList ([flags / 16, flags % 16].map fun digit => Nat.digitChar digit.toNat)

inductive Error
  | truncated (bytes : Nat)
  | compressed
  | tooLarge (size limit : Nat)
  | read (reason : String)
deriving DecidableEq, Repr

def Error.message : Error → String
  | truncated bytes =>
    "stream ended with " ++ Text.Decimal.render bytes ++ " bytes of incomplete frame data"
  | compressed => "received a compressed frame but no compression was negotiated"
  | tooLarge size limit =>
    "message size " ++ Text.Decimal.render size ++ " bytes exceeds maximum allowed size of "
      ++ Text.Decimal.render limit ++ " bytes"
  | read reason => "reading frames failed: " ++ reason

def Error.code : Error → Code
  | truncated _ => .dataLoss
  | compressed => .internal
  | tooLarge _ _ => .resourceExhausted
  | read _ => .unavailable

def Error.status (error : Error) : Status := ⟨error.code, error.message⟩

end Envelope
end RpcConformance
