import Mathlib.Algebra.Ring.Nat
import RpcConformance.Wire.Field
/-!
Numbers, keys and fields are read back as they were written, whatever follows them (`Spells.append`), so
that a byte string of fields is read as just those (`fields?_of_spells`). What is written around the bytes of a field is
short (`length_delimitedField_le`).
-/
namespace RpcConformance.Wire

theorem writeVarint_of_lt {n : Nat} (h : n < 128) : writeVarint n = [n.toUInt8] := by
  rw [writeVarint, if_pos h]

theorem writeVarint_of_le {n : Nat} (h : 128 ≤ n) :
    writeVarint n = (n % 128 + 128).toUInt8 :: writeVarint (n / 128) := by
  rw [writeVarint, if_neg (by omega)]

theorem length_writeVarint_pos (n : Nat) : 0 < (writeVarint n).length := by
  rw [writeVarint]
  split <;> simp

theorem length_writeVarint_le {places n : Nat} (h : n < 128 ^ (places + 1)) :
    (writeVarint n).length ≤ places + 1 := by
  induction places generalizing n with
  | zero =>
    have hlast : writeVarint n = [n.toUInt8] := writeVarint_of_lt (by simpa using h)
    exact Nat.le_of_eq (congrArg List.length hlast)
  | succ places ih =>
    by_cases hsmall : n < 128
    · rw [writeVarint_of_lt hsmall, List.length_singleton]
      omega
    · have hhigh : n / 128 < 128 ^ (places + 1) := by
        rw [Nat.div_lt_iff_lt_mul (by decide), ← Nat.pow_succ]
        exact h
      rw [writeVarint_of_le (by omega), List.length_cons]
      have := ih hhigh
      omega

theorem readVarintIn_last {places n : Nat} (h : n < 128) (hone : places = 0 → n < 2) (rest : Bytes) :
    readVarintIn (places + 1) (n.toUInt8 :: rest) = some (n, rest) := by
  have hbyte : n.toUInt8.toNat = n := by
    rw [Nat.toUInt8_eq, UInt8.toNat_ofNat']
    omega
  have hsmall : n.toUInt8 < 128 := by
    rw [UInt8.lt_iff_toNat_lt, hbyte]
    exact h
  have hfits : ¬(places = 0 ∧ n.toUInt8 > 1) := by
    rintro ⟨hplaces, hlarge⟩
    rw [gt_iff_lt, UInt8.lt_iff_toNat_lt, hbyte] at hlarge
    have := hone hplaces
    simp only [UInt8.reduceToNat] at hlarge
    omega
  rw [readVarintIn, if_neg hfits, if_pos hsmall, hbyte]

/-- A byte with the high bit set stands for seven bits below those that follow. -/
theorem readVarintIn_more {places n high : Nat} {bs rest : Bytes} (hplaces : places ≠ 0)
    (h : readVarintIn places bs = some (high, rest)) :
    readVarintIn (places + 1) ((n % 128 + 128).toUInt8 :: bs) = some (n % 128 + 128 * high, rest) := by
  have hbyte : (n % 128 + 128).toUInt8.toNat = n % 128 + 128 := by
    rw [Nat.toUInt8_eq, UInt8.toNat_ofNat']
    omega
  have hlarge : ¬(n % 128 + 128).toUInt8 < 128 := by
    rw [UInt8.lt_iff_toNat_lt, hbyte]
    simp only [UInt8.reduceToNat]
    omega
  rw [readVarintIn, if_neg fun hlast => hplaces hlast.1, if_neg hlarge, h, hbyte]
  simp only [Nat.add_sub_cancel]

theorem readVarintIn_writeVarint {places n : Nat} (h : n < 2 * 128 ^ places) (rest : Bytes) :
    readVarintIn (places + 1) (writeVarint n ++ rest) = some (n, rest) := by
  induction places generalizing n with
  | zero =>
    rw [writeVarint_of_lt (by omega), List.singleton_append]
    exact readVarintIn_last (by omega) (fun _ => by omega) rest
  | succ places ih =>
    by_cases hsmall : n < 128
    · rw [writeVarint_of_lt hsmall, List.singleton_append]
      exact readVarintIn_last hsmall (fun h => absurd h (Nat.succ_ne_zero places)) rest
    · have hhigh : n / 128 < 2 * 128 ^ places := by
        rw [Nat.div_lt_iff_lt_mul (by decide)]
        rw [Nat.pow_succ] at h
        omega
      rw [writeVarint_of_le (by omega), List.cons_append, readVarintIn_more (by omega) (ih hhigh),
        Nat.mod_add_div]

/-- How many numbers can be told apart. -/
def wordBound : Nat := 0x10000000000000000

theorem readVarint_writeVarint {n : Nat} (h : n < wordBound) (rest : Bytes) :
    readVarint (writeVarint n ++ rest) = some (n, rest) :=
  readVarintIn_writeVarint h rest

theorem wordOf_lt (n : Int32) : wordOf n < wordBound := n.toInt64.toUInt64.toNat_lt

@[simp] theorem ofNat_wordOf (n : Int32) : Int32.ofNat (wordOf n) = n := by
  have hword : wordOf n = (n.toBitVec.signExtend 64).toNat := rfl
  apply Int32.toBitVec_inj.1
  rw [Int32.toBitVec_ofNat', hword]
  simp only [BitVec.ofNat_toNat]
  ext i hi
  rw [BitVec.getElem_setWidth, BitVec.getLsbD_signExtend]
  simp [hi]
  omega

def IsFieldNumber (number : Nat) : Prop := number ≠ 0 ∧ number < 0x20000000

instance (number : Nat) : Decidable (IsFieldNumber number) := inferInstanceAs (Decidable (_ ∧ _))

theorem readKey_writeKey {number : Nat} (h : IsFieldNumber number) (form : Form) (rest : Bytes) :
    readKey (writeKey number form ++ rest) = some ((number, form), rest) := by
  obtain ⟨hne, hlt⟩ := h
  have hform : form.number < 8 := by cases form <;> decide
  have hread : Form.ofNumber? form.number = some form := by cases form <;> rfl
  have hlow : (number * 8 + form.number) % 8 = form.number := by omega
  have hhigh : (number * 8 + form.number) / 8 = number := by omega
  have hkey : number * 8 + form.number < 0x100000000 := by omega
  rw [readKey, writeKey, readVarint_writeVarint (by simp only [wordBound]; omega)]
  simp only [Option.bind_eq_bind, Option.bind_some, hlow, hhigh, hread, hkey, ne_eq, hne, not_false_eq_true,
    and_self, if_true]
  rfl

theorem splitExactly_append (bs rest : Bytes) : splitExactly bs.length (bs ++ rest) = some (bs, rest) := by
  cases rest <;> simp [splitExactly]

theorem readDelimited_written {bs : Bytes} (h : bs.length < wordBound) (rest : Bytes) :
    readDelimited (writeVarint bs.length ++ bs ++ rest) = some (bs, rest) := by
  rw [readDelimited, List.append_assoc, readVarint_writeVarint h]
  exact splitExactly_append bs rest

theorem readFields_of_key {depth number : Nat} {form : Form} {value : Value} {bs body rest budget : Bytes}
    (hkey : readKey bs = some ((number, form), body)) (hvalue : readValue depth number form body = some (value, rest))
    (hbudget : 1 ≤ budget.length) (read : List Field) :
    readFields depth budget read bs = readFields depth (budget.drop 1) (⟨number, value⟩ :: read) rest := by
  obtain ⟨spent, budget, rfl⟩ := List.exists_cons_of_length_pos hbudget
  cases bs with
  | nil => cases hkey
  | cons b bs =>
    simp only [readFields, hkey, hvalue]
    rfl

/-- Bytes that are read as certain fields, whatever follows them. -/
structure Spells (bs : Bytes) (fields : List Field) : Prop where
  length : fields.length ≤ bs.length
  read : ∀ depth budget read rest, fields.length ≤ budget.length →
    readFields depth budget read (bs ++ rest) =
      readFields depth (budget.drop fields.length) (fields.reverse ++ read) rest

theorem spells_nil : Spells [] [] where
  length := Nat.le_refl 0
  read _ _ _ _ _ := rfl

theorem Spells.append {bs bs' : Bytes} {fields fields' : List Field} (h : Spells bs fields)
    (h' : Spells bs' fields') : Spells (bs ++ bs') (fields ++ fields') where
  length := by
    rw [List.length_append, List.length_append]
    exact Nat.add_le_add h.length h'.length
  read depth budget read rest hbudget := by
    rw [List.length_append] at hbudget
    have hrest : fields'.length ≤ (budget.drop fields.length).length := by
      rw [List.length_drop]
      omega
    rw [List.append_assoc, h.read depth budget read _ (by omega), h'.read depth _ _ rest hrest, List.drop_drop,
      List.length_append, List.reverse_append, List.append_assoc]

theorem spells_number {number n : Nat} (hnumber : IsFieldNumber number) (hn : n < wordBound) :
    Spells (writeKey number .varint ++ writeVarint n) [⟨number, .number n⟩] where
  length := by
    rw [List.length_append]
    exact Nat.le_add_left_of_le (length_writeVarint_pos n)
  read depth budget read rest hbudget := by
    have hvalue : readValue depth number .varint (writeVarint n ++ rest) = some (.number n, rest) := by
      rw [readValue, readVarint_writeVarint hn]
      rfl
    rw [List.append_assoc]
    exact readFields_of_key (readKey_writeKey hnumber .varint _) hvalue hbudget read

theorem spells_delimitedField {number : Nat} (hnumber : IsFieldNumber number) {bs : Bytes}
    (hbs : bs.length < wordBound) : Spells (delimitedField number bs) [⟨number, .bytes bs⟩] where
  length := by
    rw [delimitedField, List.length_append, List.length_append]
    exact Nat.le_add_right_of_le (Nat.le_add_right_of_le (length_writeVarint_pos _))
  read depth budget read rest hbudget := by
    have hvalue : readValue depth number .delimited (writeVarint bs.length ++ bs ++ rest) =
        some (.bytes bs, rest) := by
      rw [readValue, readDelimited_written hbs]
      rfl
    rw [delimitedField, List.append_assoc, List.append_assoc, ← List.append_assoc (writeVarint _)]
    exact readFields_of_key (readKey_writeKey hnumber .delimited _) hvalue hbudget read

theorem length_delimitedField {number : Nat} (hnumber : number < 16) (bs : Bytes) :
    (delimitedField number bs).length = 1 + (writeVarint bs.length).length + bs.length := by
  have hkey : (writeKey number .delimited).length = 1 := by
    rw [writeKey, Form.number, writeVarint_of_lt (by omega), List.length_singleton]
  rw [delimitedField, List.length_append, List.length_append, hkey]

theorem length_delimitedField_le {number : Nat} (hnumber : number < 16) {bs : Bytes}
    (h : bs.length < 0x100000000) : (delimitedField number bs).length ≤ bs.length + 6 := by
  have hlength : (writeVarint bs.length).length ≤ 5 := length_writeVarint_le (by omega)
  rw [length_delimitedField hnumber]
  omega

theorem length_int32Field_le {number : Nat} (hnumber : number < 16) (n : Int32) :
    (int32Field number n).length ≤ 11 := by
  rw [int32Field]
  split
  · exact Nat.zero_le _
  · have hkey : (writeKey number .varint).length = 1 := by
      rw [writeKey, Form.number, writeVarint_of_lt (by omega), List.length_singleton]
    have hword : (writeVarint (wordOf n)).length ≤ 9 + 1 :=
      length_writeVarint_le (Nat.lt_trans (wordOf_lt n) (by decide))
    rw [List.length_append, hkey]
    omega

theorem fields?_of_spells {bs : Bytes} {fields : List Field} (h : Spells bs fields) (depth : Nat) :
    fields? depth bs = some fields := by
  have hread := h.read depth bs [] [] h.length
  rw [List.append_nil] at hread
  rw [fields?, hread, List.append_nil, readFields, List.reverse_reverse]

end RpcConformance.Wire
