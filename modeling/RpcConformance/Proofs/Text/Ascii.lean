import Mathlib.Data.List.Count
import RpcConformance.Proofs.Text.Order
/-!
ASCII among bytes and among the characters that they are read as. A byte of ASCII is a character of its own wherever it
stands: in a text (`Bytes.count_ofString`), and where the bytes around it are no text and are replaced
(`Text.count_lossy`).
-/
namespace RpcConformance

theorem isDigit_iff_toNat {c : Char} : c.isDigit = true ↔ 48 ≤ c.toNat ∧ c.toNat ≤ 57 := by
  simp [Char.isDigit, UInt32.le_iff_toNat_le]

namespace Bytes

theorem toNat_ofNat (n : Nat) : (Char.ofNat n).toNat = n ∨ (Char.ofNat n).toNat = 0 := by
  by_cases hvalid : n.isValidChar
  · have hchar : Char.ofNat n = Char.ofNatAux n hvalid := dif_pos hvalid
    rw [hchar]
    exact .inl rfl
  · have hchar : (Char.ofNat n).toNat = 0 := congrArg Char.toNat (dif_neg hvalid)
    exact .inr hchar

theorem toNat_ofNat_ascii {n : Nat} (h : n < 0x80) : (Char.ofNat n).toNat = n := by
  have hsmall : ∀ n : Fin 0x80, (Char.ofNat n).toNat = n := by decide
  exact hsmall ⟨n, h⟩

theorem count_utf8EncodeChar {a : UInt8} (ha : a.toNat < 0x80) (char : Char) :
    (String.utf8EncodeChar char).count a = if char.toNat = a.toNat then 1 else 0 := by
  have hinjective : Function.Injective UInt8.toNat := fun _ _ => UInt8.toNat_inj.1
  rw [← List.count_map_of_injective _ _ hinjective, toNat_utf8EncodeChar, utf8]
  split_ifs <;> simp [List.count_cons] <;> omega

theorem count_ofString {a : UInt8} (ha : a.toNat < 0x80) (s : String) :
    (ofString s).count a = s.toList.count (Char.ofNat a.toNat) := by
  have hchar (char : Char) : char = Char.ofNat a.toNat ↔ char.toNat = a.toNat := by
    rw [← Char.toNat_inj, toNat_ofNat_ascii ha]
  rw [← String.ofList_toList (s := s), ofString_ofList, String.toList_ofList]
  induction s.toList with
  | nil => rfl
  | cons char chars ih =>
    rw [List.flatMap_cons, List.count_append, ih, count_utf8EncodeChar ha, List.count_cons]
    simp [hchar, Nat.add_comm]

/-- The bytes of a character are digits where the character is one: no byte of a longer character is a digit. -/
theorem all_isDigit_utf8EncodeChar (char : Char) : (String.utf8EncodeChar char).all isDigit = char.isDigit := by
  have hbytes : (String.utf8EncodeChar char).all isDigit = true ↔ ∀ n ∈ utf8 char.toNat, 48 ≤ n ∧ n ≤ 57 := by
    simp [← toNat_utf8EncodeChar, isDigit, UInt8.le_iff_toNat_le]
  rw [Bool.eq_iff_iff, hbytes, isDigit_iff_toNat, utf8]
  split_ifs <;> simp <;> omega

theorem all_isDigit_ofString (chars : List Char) :
    (ofString (String.ofList chars)).all isDigit = chars.all Char.isDigit := by
  rw [ofString_ofList, List.all_flatMap]
  simp only [all_isDigit_utf8EncodeChar]

def ofDigit (c : Char) : UInt8 := UInt8.ofNat c.toNat

theorem ofDigit_spec {c : Char} (h : c.isDigit = true) :
    String.utf8EncodeChar c = [ofDigit c] ∧ isDigit (ofDigit c) = true ∧ (ofDigit c - 0x30).toNat = c.toNat - 48 ∧
      ofDigit c ≠ 0x2b := by
  have hall : ∀ n : Fin 58, 48 ≤ (n : Nat) → String.utf8EncodeChar (Char.ofNat n) = [UInt8.ofNat n] ∧
      isDigit (UInt8.ofNat n) = true ∧ (UInt8.ofNat n - 0x30).toNat = n - 48 ∧ UInt8.ofNat n ≠ 0x2b := by decide
  obtain ⟨hlow, hhigh⟩ := isDigit_iff_toNat.1 h
  simpa only [Char.ofNat_toNat, ofDigit] using hall ⟨c.toNat, Nat.lt_succ_of_le hhigh⟩ hlow

theorem ofString_digits {digits : List Char} (h : ∀ c ∈ digits, c.isDigit = true) :
    ofString (String.ofList digits) = digits.map ofDigit := by
  rw [ofString_ofList]
  induction digits with
  | nil => rfl
  | cons c digits ih =>
    obtain ⟨hfirst, hrest⟩ := List.forall_mem_cons.1 h
    rw [List.flatMap_cons, (ofDigit_spec hfirst).1, ih hrest]
    rfl

end Bytes

namespace Text

theorem le_of_isContinuation {b : UInt8} (h : isContinuation b = true) : 0x80 ≤ b.toNat := by
  simp only [isContinuation, Bool.and_eq_true, decide_eq_true_eq, UInt8.le_iff_toNat_le] at h
  exact h.1

/-- What may follow a first byte continues it, and says enough where the first byte says nothing. -/
theorem of_mayFollow {b c : UInt8} (h : mayFollow b c = true) :
    0x80 ≤ c.toNat ∧ (b.toNat = 0xe0 ∨ b.toNat = 0xf0 → 16 ≤ continuationBits c) := by
  unfold mayFollow isContinuation at h
  simp only [beq_iff_eq, ← UInt8.toNat_inj, UInt8.reduceToNat] at h
  rw [continuationBits]
  split_ifs at h <;> simp [UInt8.le_iff_toNat_le] at h <;> omega

section Large

variable {b c : UInt8}

theorem large_ofTwo (hb : 0xc2 ≤ b.toNat ∧ b.toNat ≤ 0xdf) (n : Nat) : 0x80 ≤ b.toNat % 32 * 64 + n := by
  omega

theorem large_ofThree (hb : 0xe0 ≤ b.toNat ∧ b.toNat ≤ 0xef) (hc : mayFollow b c = true) (n : Nat) :
    0x80 ≤ (b.toNat % 16 * 64 + continuationBits c) * 64 + n := by
  have hbits := (of_mayFollow hc).2
  omega

theorem large_ofFour (hb : 0xf0 ≤ b.toNat ∧ b.toNat ≤ 0xf4) (hc : mayFollow b c = true) (n m : Nat) :
    0x80 ≤ ((b.toNat % 8 * 64 + continuationBits c) * 64 + n) * 64 + m := by
  have hbits := (of_mayFollow hc).2
  omega

end Large

section Ascii

variable {a : UInt8} (hpos : 0 < a.toNat) (ha : a.toNat < 0x80)

include hpos ha

/-- A first byte beyond ASCII is read with others beyond ASCII, as a character beyond ASCII. -/
theorem decodeHead_of_le {b : UInt8} (hb : 0x80 ≤ b.toNat) (rest : Bytes) :
    (decodeHead b rest).1.toNat ≠ a.toNat ∧ ∀ c ∈ rest.take (decodeHead b rest).2, 0x80 ≤ c.toNat := by
  have hreplacement : replacement.toNat ≠ a.toNat := by
    have hvalue : replacement.toNat = 0xfffd := rfl
    omega
  have hlarge {n : Nat} (hn : 0x80 ≤ n) : (Char.ofNat n).toNat ≠ a.toNat := by
    have hvalue := Bytes.toNat_ofNat n
    omega
  have hfollow {c : UInt8} (hc : mayFollow b c = true) : 0x80 ≤ c.toNat := (of_mayFollow hc).1
  unfold decodeHead
  simp only [UInt8.lt_iff_toNat_lt, UInt8.le_iff_toNat_le, Bool.and_eq_true, decide_eq_true_eq, UInt8.reduceToNat]
  repeat' split
  all_goals simp_all [le_of_isContinuation, large_ofTwo, large_ofThree, large_ofFour]

theorem count_repairedChars (bs : Bytes) : (repairedChars bs).count (Char.ofNat a.toNat) = bs.count a := by
  fun_induction repairedChars bs with
  | case1 => rfl
  | case2 b rest ih =>
    rw [List.count_cons, List.count_cons, ih]
    by_cases hb : b.toNat < 0x80
    · have hhead : decodeHead b rest = (Char.ofNat b.toNat, 0) := by
        simp [decodeHead, UInt8.lt_iff_toNat_lt, hb]
      simp [hhead, ← Char.toNat_inj, ← UInt8.toNat_inj, Bytes.toNat_ofNat_ascii, ha, hb]
    · obtain ⟨hne, htake⟩ := decodeHead_of_le hpos ha (Nat.not_lt.1 hb) rest
      have hnone : (rest.take (decodeHead b rest).2).count a = 0 := by
        refine List.count_eq_zero.2 fun hmem => ?_
        have hlarge := htake a hmem
        omega
      have hdrop : (rest.drop (decodeHead b rest).2).count a = rest.count a := by
        rw [← List.take_append_drop (decodeHead b rest).2 rest, List.count_append, hnone, Nat.zero_add,
          List.take_append_drop]
      have hother : b.toNat ≠ a.toNat := by omega
      simp [hdrop, ← Char.toNat_inj, ← UInt8.toNat_inj, Bytes.toNat_ofNat_ascii, ha, hne, hother]

/-- Each byte of ASCII is read as its character, and no other byte is. -/
theorem count_lossy (bs : Bytes) : (lossy bs).toList.count (Char.ofNat a.toNat) = bs.count a := by
  rw [lossy]
  cases htext : Bytes.text? bs with
  | some s => rw [Option.getD_some, ← Bytes.count_ofString ha, Bytes.eq_ofString_of_text? htext]
  | none => rw [Option.getD_none, String.toList_ofList, count_repairedChars hpos ha]

end Ascii

end Text
end RpcConformance
