import Mathlib.Tactic.SplitIfs
import RpcConformance.Proofs.Text.RoundTrip
/-!
The order of texts is the order of their bytes (`ofString_lt_ofString_iff`): UTF-8 was made to keep it.
-/
namespace RpcConformance.Bytes

section Marks

variable (x : UInt8)

/-- A byte that continues a character: a mark and the six bits that are left beside it. -/
theorem toNat_continuing : (x &&& 63 ||| 128).toNat = 128 + x.toNat % 64 := forall_byte x (by decide +kernel)

theorem toNat_firstOfTwo : (x &&& 31 ||| 192).toNat = 192 + x.toNat % 32 := forall_byte x (by decide +kernel)

theorem toNat_firstOfThree : (x &&& 15 ||| 224).toNat = 224 + x.toNat % 16 := forall_byte x (by decide +kernel)

theorem toNat_firstOfFour : (x &&& 7 ||| 240).toNat = 240 + x.toNat % 8 := forall_byte x (by decide +kernel)

end Marks

def utf8 (n : Nat) : List Nat :=
  if n ≤ 127 then [n]
  else if n ≤ 2047 then [192 + n / 64, 128 + n % 64]
  else if n ≤ 65535 then [224 + n / 4096, 128 + n / 64 % 64, 128 + n % 64]
  else [240 + n / 262144, 128 + n / 4096 % 64, 128 + n / 64 % 64, 128 + n % 64]

theorem toNat_utf8EncodeChar (char : Char) : (String.utf8EncodeChar char).map UInt8.toNat = utf8 char.toNat := by
  have hvalid : char.val.toNat < 0x110000 := by
    have hvalid := char.valid
    simp only [UInt32.isValidChar, Nat.isValidChar] at hvalid
    omega
  -- A byte of a character: its number without the last bits, of which the low eight bits are kept.
  have hkept (k : UInt32) : (char.val >>> k).toUInt8.toNat = char.val.toNat / 2 ^ (k.toNat % 32) % 256 := by
    rw [UInt32.toNat_toUInt8, UInt32.toNat_shiftRight, Nat.shiftRight_eq_div_pow]
  have hlow : char.val.toUInt8.toNat = char.val.toNat % 256 := UInt32.toNat_toUInt8 _
  rw [utf8, Char.toNat]
  rcases char.utf8Size_eq with hsize | hsize | hsize | hsize
  · rw [String.utf8EncodeChar_eq_singleton hsize]
    have hsmall : char.val.toNat ≤ 127 := Char.utf8Size_eq_one_iff.1 hsize
    rw [if_pos hsmall, List.map_singleton, hlow]
    congr 1
    omega
  · rw [String.utf8EncodeChar_eq_cons_cons hsize]
    have hsmall : 127 < char.val.toNat ∧ char.val.toNat ≤ 2047 := Char.utf8Size_eq_two_iff.1 hsize
    rw [if_neg (by omega), if_pos (by omega)]
    simp only [List.map_cons, List.map_nil, toNat_continuing, toNat_firstOfTwo, hlow, hkept, UInt32.reduceToNat,
      Nat.reduceMod, Nat.reducePow, List.cons.injEq, and_true]
    omega
  · rw [String.utf8EncodeChar_eq_cons_cons_cons hsize]
    have hsmall : 2047 < char.val.toNat ∧ char.val.toNat ≤ 65535 := Char.utf8Size_eq_three_iff.1 hsize
    rw [if_neg (by omega), if_neg (by omega), if_pos (by omega)]
    simp only [List.map_cons, List.map_nil, toNat_continuing, toNat_firstOfThree, hlow, hkept, UInt32.reduceToNat,
      Nat.reduceMod, Nat.reducePow, List.cons.injEq, and_true]
    omega
  · rw [String.utf8EncodeChar_eq_cons_cons_cons_cons hsize]
    have hlarge : 65535 < char.val.toNat := Char.utf8Size_eq_four_iff.1 hsize
    rw [if_neg (by omega), if_neg (by omega), if_neg (by omega)]
    simp only [List.map_cons, List.map_nil, toNat_continuing, toNat_firstOfFour, hlow, hkept, UInt32.reduceToNat,
      Nat.reduceMod, Nat.reducePow, List.cons.injEq, and_true]
    omega

theorem utf8_append_lt {n m : Nat} (h : n < m) (rest rest' : List Nat) : utf8 n ++ rest < utf8 m ++ rest' := by
  rw [utf8, utf8]
  split_ifs <;> simp only [List.cons_append, List.nil_append, List.cons_lt_cons_iff] <;> omega

theorem map_toNat_lt_iff {bs cs : Bytes} : bs.map UInt8.toNat < cs.map UInt8.toNat ↔ bs < cs := by
  induction bs generalizing cs with
  | nil => cases cs <;> simp
  | cons b bs ih =>
    cases cs with
    | nil => simp
    | cons c cs =>
      simp only [List.map_cons, List.cons_lt_cons_iff, ih, UInt8.lt_iff_toNat_lt, UInt8.toNat_inj]

theorem flatMap_utf8EncodeChar_lt {chars chars' : List Char} (h : List.Lex (· < ·) chars chars') :
    chars.flatMap String.utf8EncodeChar < chars'.flatMap String.utf8EncodeChar := by
  induction h with
  | nil =>
    rename_i char chars
    obtain ⟨b, bs, hb⟩ := List.exists_cons_of_ne_nil (String.utf8EncodeChar_ne_nil (c := char))
    simp [hb]
  | rel hlt =>
    rename_i char chars char' chars'
    have hnumber : char.toNat < char'.toNat := hlt
    rw [List.flatMap_cons, List.flatMap_cons, ← map_toNat_lt_iff, List.map_append, List.map_append,
      toNat_utf8EncodeChar, toNat_utf8EncodeChar]
    exact utf8_append_lt hnumber _ _
  | cons _ ih => exact List.append_left_lt ih

theorem ofString_lt_ofString {s t : String} (h : s < t) : ofString s < ofString t := by
  rw [← String.ofList_toList (s := s), ← String.ofList_toList (s := t), ofString_ofList, ofString_ofList]
  exact flatMap_utf8EncodeChar_lt h

theorem ofString_lt_ofString_iff {s t : String} : ofString s < ofString t ↔ s < t := by
  refine ⟨fun h => ?_, ofString_lt_ofString⟩
  by_cases hlt : s < t
  · exact hlt
  · by_cases hgt : t < s
    · exact absurd (ofString_lt_ofString hgt) (List.lt_asymm h)
    · have heq : s = t := String.le_antisymm (String.not_lt.1 hgt) (String.not_lt.1 hlt)
      exact absurd (heq ▸ h) (List.lt_irrefl _)

theorem ofString_le_ofString_iff {s t : String} : ofString s ≤ ofString t ↔ s ≤ t := by
  rw [← List.not_lt, ofString_lt_ofString_iff, String.not_lt]

end RpcConformance.Bytes
