import RpcConformance.Bytes
/-!
Base-128 numbers: seven bits a byte, the lowest first, all bytes but the last with the high bit set.
A reader takes at most ten bytes and 64 bits.
-/
namespace RpcConformance.Wire

/-- The shortest base-128 form of a number. -/
def writeVarint (n : Nat) : Bytes :=
  if n < 128 then [n.toUInt8] else (n % 128 + 128).toUInt8 :: writeVarint (n / 128)
termination_by n
decreasing_by omega

/-- Reads the low bits of a number from up to `places` bytes; the last of them may hold one bit only. -/
def readVarintIn : Nat → Bytes → Option (Nat × Bytes)
  | 0, _ => none
  | _, [] => none
  | places + 1, b :: rest =>
    if places = 0 ∧ b > 1 then none
    else if b < 128 then some (b.toNat, rest)
    else match readVarintIn places rest with
      | some (high, rest) => some (b.toNat - 128 + 128 * high, rest)
      | none => none

/-- Reads a number of up to 64 bits. -/
def readVarint (bs : Bytes) : Option (Nat × Bytes) := readVarintIn 10 bs

end RpcConformance.Wire
