import RpcConformance.Proofs.Text.Ascii
/-!
Base64 is canonical: bytes are read as a byte string just when they are its unpadded form and behind it at most the
padding that fills the last group (`decode?_eq_some_iff`). What the reader accepts is thus what is written, but for
padding.
-/
namespace RpcConformance.Text.Base64

def missing (symbols : Nat) : Nat := (4 - symbols % 4) % 4

theorem missing_add_four (symbols : Nat) : missing (4 + symbols) = missing symbols := by
  rw [missing, Nat.add_mod_left, missing]

def isCharacter (c : Char) : Bool := c.isAlphanum || c == '+' || c == '/'

theorem isCharacter_symbol {n : UInt8} (h : n < 64) : isCharacter (Char.ofNat (symbol n).toNat) = true := by
  have hall : ∀ n : Fin 64, isCharacter (Char.ofNat (symbol (UInt8.ofNat n)).toNat) = true := by decide
  simpa using hall ⟨n.toNat, UInt8.lt_iff_toNat_lt.1 h⟩

theorem toNat_of_isAlpha {c : Char} (h : c.isAlpha = true) : 0x41 ≤ c.toNat ∧ c.toNat ≤ 0x7a := by
  rcases Bool.or_eq_true_iff.1 h with hupper | hlower
  · obtain ⟨hlow, hhigh⟩ : 0x41 ≤ c.toNat ∧ c.toNat ≤ 0x5a := of_decide_eq_true hupper
    omega
  · obtain ⟨hlow, hhigh⟩ := Bool.and_eq_true_iff.1 hlower
    have hlow : 0x61 ≤ c.toNat := of_decide_eq_true hlow
    have hhigh : c.toNat ≤ 0x7a := of_decide_eq_true hhigh
    omega

theorem of_isCharacter {c : Char} (h : isCharacter c = true) : c ≠ '=' ∧ isSpace c = false := by
  have hrange : 0x30 ≤ c.toNat ∧ c.toNat ≤ 0x7a ∨ c.toNat = 0x2b ∨ c.toNat = 0x2f := by
    simp only [isCharacter, Char.isAlphanum, Bool.or_eq_true, beq_iff_eq, or_assoc] at h
    rcases h with halpha | hdigit | rfl | rfl
    · have := toNat_of_isAlpha halpha
      omega
    · have := isDigit_iff_toNat.1 hdigit
      omega
    · exact .inr (.inl rfl)
    · exact .inr (.inr rfl)
  constructor
  · rintro rfl
    cases h
  · simp [isSpace]
    omega

theorem symbol_of_value? {b n : UInt8} (h : value? .standard b = some n) : n < 64 ∧ symbol n = b := by
  have hall : (value? .standard b).all (fun n => n < 64 ∧ symbol n = b) = true :=
    Bytes.forall_byte b (by decide +kernel)
  simpa [h] using hall

theorem sextets_of_bytes {a b c d : UInt8} (ha : a < 64) (hb : b < 64) (hc : c < 64) (hd : d < 64) :
    (a * 4 + b / 16) / 4 = a ∧ (a * 4 + b / 16) % 4 * 16 + (b % 16 * 16 + c / 4) / 16 = b ∧
      (b % 16 * 16 + c / 4) % 16 * 4 + (c % 4 * 64 + d) / 64 = c ∧ (c % 4 * 64 + d) % 64 = d := by
  rw [UInt8.lt_iff_toNat_lt] at ha hb hc hd
  refine ⟨?_, ?_, ?_, ?_⟩ <;> apply UInt8.toNat_inj.1 <;> simp at * <;> omega

section Tail

variable {x y z : UInt8} {value : Bytes}

theorem encode_of_decodeTail_two (h : decodeTail .standard [x, y] = some value) : encode false value = [x, y] := by
  simp only [decodeTail, Option.bind_eq_bind, Option.bind_eq_some_iff] at h
  obtain ⟨a, ha, b, hb, hvalue⟩ := h
  obtain ⟨hasmall, rfl⟩ := symbol_of_value? ha
  obtain ⟨hbsmall, rfl⟩ := symbol_of_value? hb
  split at hvalue
  · rename_i hunused
    cases hvalue
    obtain ⟨hfirst, hsecond, -, -⟩ := sextets_of_bytes hasmall hbsmall (c := 0) (d := 0) (by decide) (by decide)
    have hzero : b % 16 = 0 := eq_of_beq hunused
    simp only [hzero, UInt8.zero_mul, UInt8.zero_div, UInt8.add_zero] at hsecond
    simp [encode, encodeOnto, hfirst, hsecond]
  · cases hvalue

theorem encode_of_decodeTail_three (hz : z ≠ pad) (h : decodeTail .standard [x, y, z] = some value) :
    encode false value = [x, y, z] := by
  rw [decodeTail_of_ne_pad hz] at h
  simp only [Option.bind_eq_bind, Option.bind_eq_some_iff] at h
  obtain ⟨a, ha, b, hb, c, hc, hvalue⟩ := h
  obtain ⟨hasmall, rfl⟩ := symbol_of_value? ha
  obtain ⟨hbsmall, rfl⟩ := symbol_of_value? hb
  obtain ⟨hcsmall, rfl⟩ := symbol_of_value? hc
  split at hvalue
  · rename_i hunused
    cases hvalue
    obtain ⟨hfirst, hsecond, hthird, -⟩ := sextets_of_bytes hasmall hbsmall hcsmall (d := 0) (by decide)
    have hzero : c % 4 = 0 := eq_of_beq hunused
    simp only [hzero, UInt8.zero_mul, UInt8.zero_div, UInt8.add_zero] at hthird
    simp [encode, encodeOnto, hfirst, hsecond, hthird]
  · cases hvalue

theorem decodeTail_of_ne_pads {w : UInt8} (hw : w ≠ pad) : decodeTail .standard [x, y, z, w] = none := by
  unfold decodeTail
  split <;> simp_all [pad]

/-- What is left over is read as what it is written for, some of the padding aside. -/
theorem eq_encode_of_decodeTail {bs : Bytes} (h : decodeTail .standard bs = some value) :
    ∃ n ≤ missing (encode false value).length, bs = encode false value ++ List.replicate n pad := by
  match bs with
  | [] =>
    cases h
    exact ⟨0, Nat.zero_le _, rfl⟩
  | [_] => cases h
  | [x, y] =>
    have hself := encode_of_decodeTail_two h
    exact ⟨0, Nat.zero_le _, by simp [hself]⟩
  | [x, y, z] =>
    by_cases hz : z = pad
    · subst hz
      have hself := encode_of_decodeTail_two (x := x) (y := y) h
      exact ⟨1, by simp [hself, missing], by simp [hself]⟩
    · have hself := encode_of_decodeTail_three hz h
      exact ⟨0, Nat.zero_le _, by simp [hself]⟩
  | [x, y, z, w] =>
    by_cases hw : w = pad
    · subst hw
      by_cases hz : z = pad
      · subst hz
        have hself := encode_of_decodeTail_two (x := x) (y := y) h
        exact ⟨2, by simp [hself, missing], by simp [hself, List.replicate]⟩
      · rw [decodeTail_padded hz] at h
        have hself := encode_of_decodeTail_three hz h
        exact ⟨1, by simp [hself, missing], by simp [hself]⟩
    · rw [decodeTail_of_ne_pads hw] at h
      cases h
  | _ :: _ :: _ :: _ :: _ :: _ => simp [decodeTail] at h

end Tail

theorem quad_of_sextets {w x y z a b c d : UInt8} (ha : value? .standard w = some a) (hb : value? .standard x = some b)
    (hc : value? .standard y = some c) (hd : value? .standard z = some d) :
    quad (a * 4 + b / 16) (b % 16 * 16 + c / 4) (c % 4 * 64 + d) = [w, x, y, z] := by
  obtain ⟨hasmall, rfl⟩ := symbol_of_value? ha
  obtain ⟨hbsmall, rfl⟩ := symbol_of_value? hb
  obtain ⟨hcsmall, rfl⟩ := symbol_of_value? hc
  obtain ⟨hdsmall, rfl⟩ := symbol_of_value? hd
  obtain ⟨hfirst, hsecond, hthird, hfourth⟩ := sextets_of_bytes hasmall hbsmall hcsmall hdsmall
  rw [quad, hfirst, hsecond, hthird, hfourth]

/-- What is read onto bytes is what was written for, some of the padding aside. -/
theorem eq_encode_of_decodeOnto {out bs read : Bytes} (h : decodeOnto .standard out bs = some read) :
    ∃ value, read = out.reverse ++ value ∧
      ∃ n ≤ missing (encode false value).length, bs = encode false value ++ List.replicate n pad := by
  fun_induction decodeOnto Alphabet.standard out bs with
  | case1 out w x y z rest a b c d hd hc hb ha ih =>
    obtain ⟨value, rfl, n, hn, rfl⟩ := ih h
    refine ⟨(a * 4 + b / 16) :: (b % 16 * 16 + c / 4) :: (c % 4 * 64 + d) :: value, by simp, n, ?_, ?_⟩
    · rw [encode_quad, List.length_append]
      exact (missing_add_four _).symm ▸ hn
    · rw [encode_quad, quad_of_sextets ha hb hc hd]
      rfl
  | case2 out w x y z rest hrest hnone =>
    obtain ⟨value, htail, rfl⟩ := Option.map_eq_some_iff.1 h
    obtain rfl : rest = [] := List.isEmpty_iff.1 hrest
    exact ⟨value, rfl, eq_encode_of_decodeTail htail⟩
  | case3 => cases h
  | case4 out bs hshort =>
    obtain ⟨value, htail, rfl⟩ := Option.map_eq_some_iff.1 h
    exact ⟨value, rfl, eq_encode_of_decodeTail htail⟩

/-- What was written is read back, with any part of the padding that is due. -/
theorem decodeOnto_encode_pads (out : Bytes) : ∀ (value : Bytes) (n : Nat), n ≤ missing (encode false value).length →
    decodeOnto .standard out (encode false value ++ List.replicate n pad) = some (out.reverse ++ value)
  | value, 0, _ => by rw [List.replicate_zero, List.append_nil, decodeOnto_encode]
  | a :: b :: c :: rest, n + 1, h => by
    rw [encode_quad, List.length_append] at h
    have hrest := decodeOnto_encode_pads (c :: b :: a :: out) rest (n + 1) (missing_add_four _ ▸ h)
    rw [encode_quad, List.append_assoc, decodeOnto_quad, hrest]
    simp
  | [a, b], 1, _ => by
    have hfull : encode false [a, b] ++ List.replicate 1 pad = encode true [a, b] := rfl
    rw [hfull, decodeOnto_padded, decodeOnto_encode]
  -- One padding where two are due makes no full group, so it is met by the reader of the tail.
  | [a], 1, _ => by
    have htail : decodeOnto .standard out (encode false [a] ++ List.replicate 1 pad) =
        decodeOnto .standard out (encode false [a]) := rfl
    rw [htail, decodeOnto_encode]
  | [a], 2, _ => by
    have hfull : encode false [a] ++ List.replicate 2 pad = encode true [a] := rfl
    rw [hfull, decodeOnto_padded, decodeOnto_encode]
  | [_, _], n + 2, h | [_], n + 3, h | [], n + 1, h => by simp [encode, encodeOnto, missing] at h

/-- A byte string is read from its unpadded form, with any part of the padding that is due, and from nothing else. -/
theorem decode?_eq_some_iff {bs value : Bytes} :
    decode? .standard bs = some value ↔
      ∃ n ≤ missing (encode false value).length, bs = encode false value ++ List.replicate n pad := by
  constructor
  · intro h
    obtain ⟨value', hvalue, hbs⟩ := eq_encode_of_decodeOnto h
    obtain rfl : value = value' := hvalue
    exact hbs
  · rintro ⟨n, hn, rfl⟩
    exact decodeOnto_encode_pads [] value n hn

end RpcConformance.Text.Base64
