import RpcConformance.Json.Basic
/-!
Texts in JSON: whatever is written between quotes is read back as it was (`string?_text`).
-/
namespace RpcConformance.Json

theorem codeUnit?_hexDigits {b : UInt8} (hb : b < 0x20) (rest : Bytes) :
    codeUnit? (0x75 :: 0x30 :: 0x30 :: hexDigit (b / 16) :: hexDigit (b % 16) :: rest) = some b.toNat := by
  have h : ∀ n : Fin 32, hex4? 0x30 0x30 (hexDigit (UInt8.ofNat n / 16)) (hexDigit (UInt8.ofNat n % 16)) =
      some (n : Nat) := by decide
  have := h ⟨b.toNat, UInt8.lt_iff_toNat_lt.1 hb⟩
  simpa [codeUnit?] using this

theorem utf8_toNat {b : UInt8} (hb : b < 0x20) : utf8 b.toNat = [b] := by
  have h : ∀ n : Fin 32, utf8 n = [UInt8.ofNat n] := by decide
  have := h ⟨b.toNat, UInt8.lt_iff_toNat_lt.1 hb⟩
  simpa using this

theorem escape?_simple {e b : UInt8} (he : e ≠ 0x75) (h : simpleEscape? e = some b) (rest : Bytes) :
    escape? (e :: rest) = some ([b], 1) := by
  have hunit : codeUnit? (e :: rest) = none := by
    unfold codeUnit?
    split
    · rename_i heq
      simp_all
    · rfl
  simp [escape?, hunit, h]

theorem escape?_hexDigits {b : UInt8} (hb : b < 0x20) (rest : Bytes) :
    escape? (0x75 :: 0x30 :: 0x30 :: hexDigit (b / 16) :: hexDigit (b % 16) :: rest) = some ([b], 5) := by
  have hlt : b.toNat < 32 := UInt8.lt_iff_toNat_lt.1 hb
  have hhigh : isHighSurrogate b.toNat = false := by simp [isHighSurrogate]; omega
  have hlow : isLowSurrogate b.toNat = false := by simp [isLowSurrogate]; omega
  simp [escape?, codeUnit?_hexDigits hb, hhigh, hlow, utf8_toNat hb]

theorem unescapeOnto_escapeByte (out : Bytes) (b : UInt8) (rest : Bytes) :
    unescapeOnto out (escapeByte b ++ rest) = unescapeOnto (b :: out) rest := by
  have simple {e : UInt8} (he : e ≠ 0x75) (h : simpleEscape? e = some b) :
      unescapeOnto out ([0x5c, e] ++ rest) = unescapeOnto (b :: out) rest := by
    simp [unescapeOnto, escape?_simple he h]
  unfold escapeByte
  repeat' split
  any_goals simp_all only [beq_iff_eq]
  any_goals exact simple (by decide) (by decide)
  · rename_i hb
    simp [unescapeOnto, escape?_hexDigits hb]
  · simp [unescapeOnto, *]

theorem unescapeOnto_escape (out bs : Bytes) :
    unescapeOnto out (bs.flatMap escapeByte) = some (out.reverse ++ bs) := by
  induction bs generalizing out with
  | nil => simp [unescapeOnto]
  | cons b bs ih => simp [unescapeOnto_escapeByte, ih]

@[simp] theorem unescape?_escape (s : String) : unescape? (escape s) = some s := by
  simp [unescape?, escape, unescapeOnto_escape]

@[simp] theorem string?_text (s : String) : (text s).string? = some s := by
  simp [text, string?]

end RpcConformance.Json
