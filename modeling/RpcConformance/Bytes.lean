/-!
Byte strings as lists of bytes, and the texts among them: a text is written in UTF-8, and reading
it back is exact (`text?_ofString`).
-/
namespace RpcConformance

/-- What travels on a connection. -/
abbrev Bytes := List UInt8

namespace Bytes

def ofString (s : String) : Bytes := s.toUTF8.data.toList

/-- The text a byte string spells, if it is well-formed UTF-8. -/
def text? (bs : Bytes) : Option String := String.fromUTF8? ⟨bs.toArray⟩

@[simp] theorem text?_ofString (s : String) : text? (ofString s) = some s := by
  have h : (⟨(ofString s).toArray⟩ : ByteArray) = s.toUTF8 := by
    simp [ofString]
  simp only [text?, h, String.fromUTF8?, String.toUTF8_eq_toByteArray, dif_pos s.isValidUTF8]
  rfl

theorem eq_ofString_of_text? {bs : Bytes} {s : String} (h : text? bs = some s) : bs = ofString s := by
  unfold text? String.fromUTF8? at h
  split at h
  · cases h; simp [ofString, String.fromUTF8, String.toUTF8]
  · cases h

def bigEndian (bs : Bytes) : Nat := bs.foldl (fun n b => n * 256 + b.toNat) 0

def isDigit (b : UInt8) : Bool := 0x30 ≤ b && b ≤ 0x39

def hexDigit? (b : UInt8) : Option UInt8 :=
  if isDigit b then some (b - 0x30)
  else if 0x61 ≤ b && b ≤ 0x66 then some (b - 0x57)
  else if 0x41 ≤ b && b ≤ 0x46 then some (b - 0x37)
  else none

def lower (b : UInt8) : UInt8 := if 0x41 ≤ b && b ≤ 0x5a then b + 0x20 else b

end Bytes
end RpcConformance
