import Mathlib.Data.List.DropRight
import RpcConformance.Proofs.Metadata.Header
import RpcConformance.Proofs.Text.Base64
import RpcConformance.Proofs.Text.Trim
/-!
The texts of a binary value. One of them is written (`binaryText`); it is read with any part of the padding that is due
and between blanks, and there is no other (`decodeBinary?_eq_some_iff`). So every text that is read leads back to the
one that is written (`binaryText_canonical`).
-/
namespace RpcConformance.Metadata

def binaryText (value : Bytes) : String := String.ofList ((encodeBinary value).map fun b => Char.ofNat b.toNat)

def padding (n : Nat) : String := String.ofList (List.replicate n '=')

def unpadded (text : String) : String := String.ofList (text.toList.rdropWhile (· == '='))

theorem ofString_binaryText (value : Bytes) : Bytes.ofString (binaryText value) = encodeBinary value :=
  Bytes.ofString_ascii fun _ hb => UInt8.lt_trans (Text.Base64.visible_of_mem_encode hb).2 (by decide)

theorem ofString_padding (n : Nat) : Bytes.ofString (padding n) = List.replicate n Text.Base64.pad := by
  have hbyte : String.utf8EncodeChar '=' = [Text.Base64.pad] := by decide
  rw [padding, Bytes.ofString_ofList, List.flatMap_replicate, hbyte]
  simp

theorem length_binaryText (value : Bytes) : (binaryText value).length = (encodeBinary value).length := by
  rw [binaryText, String.length_ofList, List.length_map]

theorem isCharacter_of_mem_binaryText {value : Bytes} {c : Char} (h : c ∈ (binaryText value).toList) :
    Text.Base64.isCharacter c = true := by
  rw [binaryText, String.toList_ofList] at h
  obtain ⟨b, hb, rfl⟩ := List.mem_map.1 h
  obtain ⟨n, hn, rfl⟩ := Text.Base64.symbol_of_mem_encode value b hb
  exact Text.Base64.isCharacter_symbol hn

/-- A text is read as a value just when it is the text of the value, some of the padding and blanks aside. -/
theorem decodeBinary?_eq_some_iff {text : String} {value : Bytes} :
    decodeBinary? text = some value ↔
      ∃ n ≤ Text.Base64.missing (binaryText value).length, Text.trim text = binaryText value ++ padding n := by
  rw [decodeBinary?, Text.Base64.decode?_eq_some_iff, length_binaryText, encodeBinary]
  simp only [← Bytes.ofString_inj, Bytes.ofString_append, ofString_binaryText, ofString_padding, encodeBinary]

theorem isSpace_of_mem_padded {value : Bytes} {n : Nat} {c : Char}
    (h : c ∈ (binaryText value ++ padding n).toList) : Text.isSpace c = false := by
  rw [String.toList_append, List.mem_append] at h
  rcases h with htext | hpad
  · exact (Text.Base64.of_isCharacter (isCharacter_of_mem_binaryText htext)).2
  · rw [padding, String.toList_ofList] at hpad
    rw [(List.mem_replicate.1 hpad).2]
    decide

/-- Without its padding the text of a value is the one that is written. -/
theorem unpadded_padded (value : Bytes) (n : Nat) : unpadded (binaryText value ++ padding n) = binaryText value := by
  have hplain : (binaryText value).toList.rdropWhile (· == '=') = (binaryText value).toList := by
    refine List.rdropWhile_eq_self_iff.2 fun hne => ?_
    have hmem := isCharacter_of_mem_binaryText (List.getLast_mem hne)
    simpa using (Text.Base64.of_isCharacter hmem).1
  rw [unpadded, String.toList_append, padding, String.toList_ofList]
  induction n with
  | zero => rw [List.replicate_zero, List.append_nil, hplain, String.ofList_toList]
  | succ n ih => rw [List.replicate_succ', ← List.append_assoc, List.rdropWhile_concat_pos _ _ _ rfl, ih]

/-- The text of a value is read between blanks, with any part of the padding that is due. -/
theorem decodeBinary?_between {value : Bytes} {n : Nat} (hn : n ≤ Text.Base64.missing (binaryText value).length)
    {lead trail : String} (hlead : ∀ c ∈ lead.toList, Text.isSpace c = true)
    (htrail : ∀ c ∈ trail.toList, Text.isSpace c = true) :
    decodeBinary? (lead ++ (binaryText value ++ padding n) ++ trail) = some value :=
  decodeBinary?_eq_some_iff.2 ⟨n, hn, Text.trim_between hlead (fun _ => isSpace_of_mem_padded) htrail⟩

theorem decodeBinary?_binaryText (value : Bytes) : decodeBinary? (binaryText value) = some value := by
  have hplain : "" ++ (binaryText value ++ padding 0) ++ "" = binaryText value := by simp [padding]
  rw [← hplain]
  exact decodeBinary?_between (Nat.zero_le _) (by simp) (by simp)

/-- Each binary value has one text: what is written, in the standard alphabet and without padding, is read back, also
with the padding that is due or a part of it, and with blanks around it; and whatever text is read as the value is the
one that is written once the blanks around it and the padding at its end, which is no more than what is due, are gone. -/
theorem binaryText_canonical (value : Bytes) :
    Bytes.ofString (binaryText value) = encodeBinary value ∧
    decodeBinary? (binaryText value) = some value ∧
    (∀ c ∈ (binaryText value).toList, Text.Base64.isCharacter c = true) ∧
    (∀ n ≤ Text.Base64.missing (binaryText value).length, ∀ lead trail : String,
      (∀ c ∈ lead.toList, Text.isSpace c = true) → (∀ c ∈ trail.toList, Text.isSpace c = true) →
      decodeBinary? (lead ++ (binaryText value ++ padding n) ++ trail) = some value) ∧
    ∀ text, decodeBinary? text = some value → unpadded (Text.trim text) = binaryText value ∧
      ∃ n ≤ Text.Base64.missing (binaryText value).length, Text.trim text = binaryText value ++ padding n := by
  refine ⟨ofString_binaryText value, decodeBinary?_binaryText value, fun _ => isCharacter_of_mem_binaryText, ?_, ?_⟩
  · intro n hn lead trail hlead htrail
    exact decodeBinary?_between hn hlead htrail
  · intro text htext
    obtain ⟨n, hn, htrim⟩ := decodeBinary?_eq_some_iff.1 htext
    exact ⟨by rw [htrim, unpadded_padded], n, hn, htrim⟩

theorem binaryText_canonical_oneByte :
    binaryText [0x01] = "AQ" ∧
    decodeBinary? "\u3000AQ==\n" = some [0x01] ∧
    unpadded (Text.trim "\u3000AQ==\n") = "AQ" := by
  have htext : binaryText [0x01] = "AQ" := by decide +kernel
  have hpadded : "\u3000" ++ (binaryText [0x01] ++ padding 2) ++ "\n" = "\u3000AQ==\n" := by decide +kernel
  obtain ⟨-, -, -, hread, honly⟩ := binaryText_canonical [0x01]
  have hblank : decodeBinary? "\u3000AQ==\n" = some [0x01] := by
    rw [← hpadded]
    have hlead : "\u3000".toList.all Text.isSpace = true := by decide
    have htrail : "\n".toList.all Text.isSpace = true := by decide
    exact hread 2 (by rw [htext]; decide) "\u3000" "\n" (List.all_eq_true.1 hlead) (List.all_eq_true.1 htrail)
  exact ⟨htext, hblank, htext ▸ (honly _ hblank).1⟩

end RpcConformance.Metadata
