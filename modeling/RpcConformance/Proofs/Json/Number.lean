import RpcConformance.Proofs.Json.RoundTrip
import RpcConformance.Proofs.Text.RoundTrip
/-!
Integers in documents: one is read as it was written, up to where its digits end (`reads_int`).
-/
namespace RpcConformance.Json

open Text.Decimal

theorem int_natCast (n : Nat) : Json.int n = .number (digits n) := rfl

theorem int_negSucc (n : Nat) : Json.int (.negSucc n) = .number (0x2d :: digits (n + 1)) := by
  have hself : toString (Int.negSucc n) = "-" ++ (n + 1).repr := rfl
  rw [int, hself, Bytes.ofString_append]
  rfl

theorem not_isDigit_of_follows {rest : Bytes} (h : Follows rest) : ∀ b ∈ rest.head?, Bytes.isDigit b = false := by
  intro b hb
  rcases h b hb with rfl | rfl | rfl <;> rfl

theorem readDigits_append {ds rest : Bytes} (hds : ds ≠ []) (hdigits : ∀ b ∈ ds, Bytes.isDigit b = true)
    (hrest : Follows rest) : readDigits (ds ++ rest) = some (ds, rest) := by
  have hnone := not_isDigit_of_follows hrest
  have htake : rest.takeWhile Bytes.isDigit = [] := by
    cases rest with
    | nil => rfl
    | cons b rest => rw [List.takeWhile_cons_of_neg (by simp [hnone b rfl])]
  have hdrop : rest.dropWhile Bytes.isDigit = rest := by
    cases rest with
    | nil => rfl
    | cons b rest => rw [List.dropWhile_cons_of_neg (by simp [hnone b rfl])]
  rw [readDigits, List.takeWhile_append_of_pos hdigits, List.dropWhile_append_of_pos hdigits, htake, hdrop,
    List.append_nil]
  simp [hds]

theorem readMagnitude_digits (n : Nat) {rest : Bytes} (hrest : Follows rest) :
    readMagnitude (digits n ++ rest) = some (digits n, rest) := by
  obtain ⟨hall, -, b, tail, hcons, hhead⟩ := digits_spec n
  have hread := readDigits_append (by rw [hcons]; exact List.cons_ne_nil b tail) hall hrest
  have hplain : ((digits n).head? == some 0x30 && decide ((digits n).length > 1)) = false := by
    by_cases hzero : n = 0
    · subst hzero
      rfl
    · rw [hcons]
      simp [hhead hzero]
  have hfraction : readFraction rest = some ([], rest) := by
    unfold readFraction
    split
    · exact absurd (hrest 0x2e rfl) (by decide)
    · rfl
  have hexponent : readExponent rest = some ([], rest) := by
    cases rest with
    | nil => rfl
    | cons e rest =>
      have he : (e == 0x65 || e == 0x45) = false := by
        rcases hrest e rfl with rfl | rfl | rfl <;> rfl
      unfold readExponent
      simp [he]
  have hwhole : readWhole (digits n ++ rest) = some (digits n, rest) := by
    rw [readWhole, hread]
    simp only [Option.bind_eq_bind, Option.bind_some, hplain, Bool.false_eq_true, if_false]
  rw [readMagnitude, hwhole]
  simp [hfraction, hexponent]

theorem readValue_number {b : UInt8} (h : Bytes.isDigit b = true ∨ b = 0x2d) (fuel : Nat) (bs : Bytes) :
    readValue (fuel + 1) (b :: bs) = (readNumber (b :: bs)).map fun (spelling, rest) => (.number spelling, rest) := by
  have htoken : isBlank b = false ∧ b ≠ 0x22 ∧ b ≠ 0x5b ∧ b ≠ 0x7b ∧ b ≠ 0x6e ∧ b ≠ 0x74 ∧ b ≠ 0x66 := by
    rcases h with hdigit | rfl
    · revert hdigit
      exact Bytes.forall_byte b (by decide +kernel)
    · decide
  obtain ⟨hblank, h22, h5b, h7b, h6e, h74, h66⟩ := htoken
  rw [readValue, skipBlank_of_token hblank]
  simp [h22, h5b, h7b, h6e, h74, h66]

theorem reads_int (n : Int) : Reads (.int n) := by
  intro fuel rest hrest hfuel
  cases n with
  | ofNat n =>
    obtain ⟨hall, -, b, tail, hcons, -⟩ := digits_spec n
    have hdigit : Bytes.isDigit b = true := hall b (by rw [hcons]; exact List.mem_cons_self)
    have hplain : b ≠ 0x2d := by
      rintro rfl
      cases hdigit
    have hnumber : readNumber (digits n ++ rest) = some (digits n, rest) := by
      rw [← readMagnitude_digits n hrest, hcons, List.cons_append]
      unfold readNumber
      split
      · rename_i heq
        exact absurd (List.cons.inj heq).1 hplain
      · rfl
    rw [Int.ofNat_eq_natCast] at hfuel ⊢
    rw [int_natCast, render] at hfuel ⊢
    obtain ⟨fuel, rfl⟩ : ∃ n, fuel = n + 1 := ⟨fuel - 1, by rw [hcons, List.length_cons] at hfuel; omega⟩
    rw [hcons, List.cons_append, readValue_number (.inl hdigit), ← List.cons_append, ← hcons, hnumber]
    rfl
  | negSucc n =>
    rw [int_negSucc, render] at hfuel ⊢
    rw [List.length_cons] at hfuel
    obtain ⟨fuel, rfl⟩ : ∃ n, fuel = n + 1 := ⟨fuel - 1, by omega⟩
    rw [List.cons_append, readValue_number (.inr rfl), readNumber, readMagnitude_digits _ hrest]
    rfl

end RpcConformance.Json
