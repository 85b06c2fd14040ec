import RpcConformance.Bytes
/-!
Base64 over the standard and the URL-safe alphabet. Encoding pads or not; decoding takes up to the
full padding and refuses unused bits that are set, so each byte string has one unpadded form.
-/
namespace RpcConformance.Text.Base64

/-- Which two characters close the alphabet. -/
inductive Alphabet
  | standard
  | urlSafe
deriving DecidableEq, Repr

def symbol (n : UInt8) : UInt8 :=
  if n < 26 then 0x41 + n
  else if n < 52 then 0x61 + (n - 26)
  else if n < 62 then 0x30 + (n - 52)
  else if n == 62 then 0x2b else 0x2f

def value? (alphabet : Alphabet) (b : UInt8) : Option UInt8 :=
  if 0x41 ≤ b && b ≤ 0x5a then some (b - 0x41)
  else if 0x61 ≤ b && b ≤ 0x7a then some (b - 0x61 + 26)
  else if 0x30 ≤ b && b ≤ 0x39 then some (b - 0x30 + 52)
  else match alphabet with
    | .standard => if b == 0x2b then some 62 else if b == 0x2f then some 63 else none
    | .urlSafe => if b == 0x2d then some 62 else if b == 0x5f then some 63 else none

def pad : UInt8 := 0x3d

def quad (a b c : UInt8) : Bytes :=
  [symbol (a / 4), symbol (a % 4 * 16 + b / 16), symbol (b % 16 * 4 + c / 64), symbol (c % 64)]

/-- Writes a byte string onto what is written already (last first). -/
def encodeOnto (padded : Bool) : Bytes → Bytes → Bytes
  | out, a :: b :: c :: rest => encodeOnto padded ((quad a b c).reverse ++ out) rest
  | out, [a, b] =>
    out.reverse ++ [symbol (a / 4), symbol (a % 4 * 16 + b / 16), symbol (b % 16 * 4)]
      ++ (if padded then [pad] else [])
  | out, [a] =>
    out.reverse ++ [symbol (a / 4), symbol (a % 4 * 16)] ++ (if padded then [pad, pad] else [])
  | out, [] => out.reverse

def encode (padded : Bool) (bs : Bytes) : Bytes := encodeOnto padded [] bs

/-- Reads the symbols after the last full group: nothing, or two or three symbols whose unused bits
are zero, then padding up to the length of a group. -/
def decodeTail (alphabet : Alphabet) : Bytes → Option Bytes
  | [] => some []
  | [x, y] | [x, y, 0x3d] | [x, y, 0x3d, 0x3d] => do
    let a ← value? alphabet x
    let b ← value? alphabet y
    if b % 16 == 0 then return [a * 4 + b / 16] else none
  | [x, y, z] | [x, y, z, 0x3d] => do
    let a ← value? alphabet x
    let b ← value? alphabet y
    let c ← value? alphabet z
    if c % 4 == 0 then return [a * 4 + b / 16, b % 16 * 16 + c / 4] else none
  | _ => none

def decodeOnto (alphabet : Alphabet) : Bytes → Bytes → Option Bytes
  | out, w :: x :: y :: z :: rest =>
    match value? alphabet w, value? alphabet x, value? alphabet y, value? alphabet z with
    | some a, some b, some c, some d =>
      decodeOnto alphabet ((c % 4 * 64 + d) :: (b % 16 * 16 + c / 4) :: (a * 4 + b / 16) :: out) rest
    | _, _, _, _ => if rest.isEmpty then (decodeTail alphabet [w, x, y, z]).map (out.reverse ++ ·) else none
  | out, rest => (decodeTail alphabet rest).map (out.reverse ++ ·)

def decode? (alphabet : Alphabet) (bs : Bytes) : Option Bytes := decodeOnto alphabet [] bs

end RpcConformance.Text.Base64
