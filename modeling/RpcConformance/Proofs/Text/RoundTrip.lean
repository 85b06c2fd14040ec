import RpcConformance.Text.Base64
import RpcConformance.Text.Percent
import RpcConformance.Text.Space
/-!
Texts on the wire are read back as they were written: base64 (`Base64.decode?_encode`), the digits of a number
(`Decimal.digits_spec`) and the percent-encoding of status messages (`Percent.decode_encode`).
-/
namespace RpcConformance

namespace Bytes

@[elab_as_elim]
theorem forall_byte {motive : UInt8 → Prop} (b : UInt8) (h : ∀ n : Fin 256, motive (UInt8.ofNat n)) : motive b := by
  have hb := h ⟨b.toNat, b.toNat_lt⟩
  rwa [UInt8.ofNat_toNat] at hb

theorem ofString_ofList (chars : List Char) :
    ofString (String.ofList chars) = chars.flatMap String.utf8EncodeChar := by
  simp [ofString, List.utf8Encode]

theorem ofString_append (s t : String) : ofString (s ++ t) = ofString s ++ ofString t := by
  simp [ofString]

theorem ofString_inj {s t : String} : ofString s = ofString t ↔ s = t := by
  constructor
  · intro h
    have htext := text?_ofString s
    rw [h, text?_ofString] at htext
    exact (Option.some.inj htext).symm
  · exact congrArg ofString

theorem ofString_ascii {bs : Bytes} (h : ∀ b ∈ bs, b < 0x80) :
    ofString (String.ofList (bs.map fun b => Char.ofNat b.toNat)) = bs := by
  have hbyte : ∀ b : UInt8, b < 0x80 → String.utf8EncodeChar (Char.ofNat b.toNat) = [b] := by
    intro b hb
    have hsmall : ∀ n : Fin 128, String.utf8EncodeChar (Char.ofNat n) = [UInt8.ofNat n] := by decide
    simpa using hsmall ⟨b.toNat, UInt8.lt_iff_toNat_lt.1 hb⟩
  rw [ofString_ofList]
  induction bs with
  | nil => rfl
  | cons b bs ih =>
    rw [List.map_cons, List.flatMap_cons, hbyte b (h b List.mem_cons_self),
      ih fun c hc => h c (List.mem_cons_of_mem b hc)]
    rfl

theorem text?_ascii {bs : Bytes} (h : ∀ b ∈ bs, b < 0x80) :
    text? bs = some (String.ofList (bs.map fun b => Char.ofNat b.toNat)) := by
  have htext := text?_ofString (String.ofList (bs.map fun b => Char.ofNat b.toNat))
  rwa [ofString_ascii h] at htext

end Bytes

namespace Text

theorem trimWhere_of_none {α : Type} {p : α → Bool} {xs : List α} (h : ∀ x ∈ xs, p x = false) :
    trimWhere p xs = xs := by
  have hdrop : ∀ {ys : List α}, (∀ y ∈ ys, p y = false) → ys.dropWhile p = ys := by
    intro ys hys
    cases ys with
    | nil => rfl
    | cons y ys => rw [List.dropWhile_cons_of_neg (by simp [hys y List.mem_cons_self])]
  have hreverse : ∀ x ∈ xs.reverse, p x = false := fun x hx => h x (List.mem_reverse.1 hx)
  rw [trimWhere, hdrop h, hdrop hreverse, List.reverse_reverse]

theorem trim_ascii {bs : Bytes} (h : ∀ b ∈ bs, 0x20 < b ∧ b < 0x7f) :
    trim (String.ofList (bs.map fun b => Char.ofNat b.toNat)) =
      String.ofList (bs.map fun b => Char.ofNat b.toNat) := by
  have hvisible : ∀ c ∈ bs.map (fun b => Char.ofNat b.toNat), isSpace c = false := by
    intro c hc
    obtain ⟨b, hb, rfl⟩ := List.mem_map.1 hc
    have hsmall : ∀ n : Fin 127, 32 < (n : Nat) → isSpace (Char.ofNat n) = false := by decide
    exact hsmall ⟨b.toNat, UInt8.lt_iff_toNat_lt.1 (h b hb).2⟩ (UInt8.lt_iff_toNat_lt.1 (h b hb).1)
  rw [trim, String.toList_ofList, trimWhere_of_none hvisible]

namespace Base64

theorem value?_symbol {n : UInt8} (h : n < 64) : value? .standard (symbol n) = some n := by
  have hsmall : ∀ n : Fin 64, value? .standard (symbol (UInt8.ofNat n)) = some (UInt8.ofNat n) := by decide
  simpa using hsmall ⟨n.toNat, UInt8.lt_iff_toNat_lt.1 h⟩

theorem bytes_of_sextets (a b c : UInt8) :
    a / 4 * 4 + (a % 4 * 16 + b / 16) / 16 = a ∧
      (a % 4 * 16 + b / 16) % 16 * 16 + (b % 16 * 4 + c / 64) / 4 = b ∧
      (b % 16 * 4 + c / 64) % 4 * 64 + c % 64 = c := by
  have ha := a.toNat_lt
  have hb := b.toNat_lt
  have hc := c.toNat_lt
  refine ⟨?_, ?_, ?_⟩ <;> apply UInt8.toNat_inj.1 <;> simp <;> omega

theorem sextets_lt (a b c : UInt8) :
    a / 4 < 64 ∧ a % 4 * 16 + b / 16 < 64 ∧ b % 16 * 4 + c / 64 < 64 ∧ c % 64 < 64 := by
  have ha := a.toNat_lt
  have hb := b.toNat_lt
  have hc := c.toNat_lt
  refine ⟨?_, ?_, ?_, ?_⟩ <;> apply UInt8.lt_iff_toNat_lt.2 <;> simp <;> omega

theorem symbol_visible {n : UInt8} (h : n < 64) : 0x20 < symbol n ∧ symbol n < 0x7f ∧ symbol n ≠ pad := by
  have hsmall : ∀ n : Fin 64, 0x20 < symbol (UInt8.ofNat n) ∧ symbol (UInt8.ofNat n) < 0x7f ∧
      symbol (UInt8.ofNat n) ≠ pad := by decide
  simpa using hsmall ⟨n.toNat, UInt8.lt_iff_toNat_lt.1 h⟩

/-- What one byte over is written as: two symbols, the unused bits of the second zero. -/
theorem decodeTail_one (a : UInt8) :
    decodeTail .standard [symbol (a / 4), symbol (a % 4 * 16)] = some [a] := by
  obtain ⟨ha, hlow, _, _⟩ := sextets_lt a 0 0
  have hbyte := (bytes_of_sextets a 0 0).1
  have hunused : a % 4 * 16 % 16 = 0 := by
    apply UInt8.toNat_inj.1
    simp
  simp only [UInt8.zero_div, UInt8.add_zero] at hlow hbyte
  simp [decodeTail, value?_symbol ha, value?_symbol hlow, hunused, hbyte]

theorem decodeTail_of_ne_pad {alphabet : Alphabet} {x y z : UInt8} (h : z ≠ pad) :
    decodeTail alphabet [x, y, z] = (do
      let a ← value? alphabet x
      let b ← value? alphabet y
      let c ← value? alphabet z
      if c % 4 == 0 then return [a * 4 + b / 16, b % 16 * 16 + c / 4] else none) := by
  unfold decodeTail
  split <;> simp_all [pad]

theorem decodeTail_two (a b : UInt8) :
    decodeTail .standard [symbol (a / 4), symbol (a % 4 * 16 + b / 16), symbol (b % 16 * 4)] = some [a, b] := by
  obtain ⟨ha, hmiddle, hlow, _⟩ := sextets_lt a b 0
  obtain ⟨hfirst, hsecond, _⟩ := bytes_of_sextets a b 0
  have hunused : b % 16 * 4 % 4 = 0 := by
    apply UInt8.toNat_inj.1
    simp
  simp only [UInt8.zero_div, UInt8.add_zero] at hlow hsecond
  rw [decodeTail_of_ne_pad (symbol_visible hlow).2.2, value?_symbol ha, value?_symbol hmiddle, value?_symbol hlow]
  simp [hunused, hfirst, hsecond]

theorem decodeOnto_quad (a b c : UInt8) (out rest : Bytes) :
    decodeOnto .standard out (quad a b c ++ rest) = decodeOnto .standard (c :: b :: a :: out) rest := by
  obtain ⟨hw, hx, hy, hz⟩ := sextets_lt a b c
  obtain ⟨ha, hb, hc⟩ := bytes_of_sextets a b c
  simp only [quad, List.cons_append, List.nil_append, decodeOnto, value?_symbol hw, value?_symbol hx,
    value?_symbol hy, value?_symbol hz, ha, hb, hc]

theorem encodeOnto_eq (padded : Bool) (out : Bytes) : ∀ bs : Bytes,
    encodeOnto padded out bs = out.reverse ++ encodeOnto padded [] bs
  | a :: b :: c :: rest => by
    rw [encodeOnto, encodeOnto, encodeOnto_eq padded ((quad a b c).reverse ++ out) rest,
      encodeOnto_eq padded ((quad a b c).reverse ++ []) rest]
    simp
  | [a, b] => by simp [encodeOnto]
  | [a] => by simp [encodeOnto]
  | [] => by simp [encodeOnto]

theorem encode_quad (padded : Bool) (a b c : UInt8) (rest : Bytes) :
    encode padded (a :: b :: c :: rest) = quad a b c ++ encode padded rest := by
  rw [encode, encodeOnto, encodeOnto_eq, encode]
  simp

theorem encode_padded : ∀ bs : Bytes, ∃ n, encode true bs = encode false bs ++ List.replicate n pad
  | a :: b :: c :: rest => by
    obtain ⟨n, hn⟩ := encode_padded rest
    exact ⟨n, by rw [encode_quad, encode_quad, hn, List.append_assoc]⟩
  | [a, b] => ⟨1, rfl⟩
  | [a] => ⟨2, rfl⟩
  | [] => ⟨0, rfl⟩

theorem decodeTail_padded {x y z : UInt8} (h : z ≠ pad) :
    decodeTail .standard [x, y, z, pad] = decodeTail .standard [x, y, z] := by
  rw [decodeTail_of_ne_pad h]
  unfold decodeTail
  split <;> simp_all [pad]

theorem decodeOnto_padded (out : Bytes) : ∀ bs : Bytes,
    decodeOnto .standard out (encode true bs) = decodeOnto .standard out (encode false bs)
  | a :: b :: c :: rest => by
    rw [encode_quad, encode_quad, decodeOnto_quad, decodeOnto_quad, decodeOnto_padded _ rest]
  | [a, b] => by
    have hpad : value? .standard pad = none := rfl
    obtain ⟨_, _, hlow, _⟩ := sextets_lt a b 0
    simp only [UInt8.zero_div, UInt8.add_zero] at hlow
    simp [encode, encodeOnto, decodeOnto, hpad, decodeTail_padded (symbol_visible hlow).2.2]
  | [a] => by
    have hpad : value? .standard pad = none := rfl
    simp [encode, encodeOnto, decodeOnto, hpad]
    rfl
  | [] => rfl

theorem decodeOnto_encode (out : Bytes) : ∀ bs : Bytes,
    decodeOnto .standard out (encode false bs) = some (out.reverse ++ bs)
  | a :: b :: c :: rest => by
    rw [encode_quad, decodeOnto_quad, decodeOnto_encode (c :: b :: a :: out) rest]
    simp
  | [a, b] => by simp [encode, encodeOnto, decodeOnto, decodeTail_two]
  | [a] => by simp [encode, encodeOnto, decodeOnto, decodeTail_one]
  | [] => by simp [encode, encodeOnto, decodeOnto, decodeTail]

@[simp] theorem decode?_encode (padded : Bool) (bs : Bytes) : decode? .standard (encode padded bs) = some bs := by
  have hplain : decode? .standard (encode false bs) = some bs := decodeOnto_encode [] bs
  cases padded with
  | false => exact hplain
  | true => rw [decode?, decodeOnto_padded, ← decode?, hplain]

theorem length_encode_padded : ∀ bs : Bytes, (encode true bs).length = 4 * ((bs.length + 2) / 3)
  | a :: b :: c :: rest => by
    rw [encode_quad, List.length_append, length_encode_padded rest]
    simp only [quad, List.length_cons, List.length_nil]
    omega
  | [_, _] | [_] => by simp [encode, encodeOnto]
  | [] => rfl

theorem length_encode_plain : ∀ bs : Bytes, (encode false bs).length = (4 * bs.length + 2) / 3
  | a :: b :: c :: rest => by
    rw [encode_quad, List.length_append, length_encode_plain rest]
    simp only [quad, List.length_cons, List.length_nil]
    omega
  | [_, _] | [_] => by simp [encode, encodeOnto]
  | [] => rfl

theorem symbol_of_mem_encode : ∀ (bs : Bytes), ∀ b ∈ encode false bs, ∃ n < 64, b = symbol n
  | a :: b :: c :: rest => by
    obtain ⟨hw, hx, hy, hz⟩ := sextets_lt a b c
    rw [encode_quad, quad]
    simp only [List.cons_append, List.nil_append, List.forall_mem_cons]
    exact ⟨⟨_, hw, rfl⟩, ⟨_, hx, rfl⟩, ⟨_, hy, rfl⟩, ⟨_, hz, rfl⟩, symbol_of_mem_encode rest⟩
  | [a, b] => by
    obtain ⟨hw, hx, hy, _⟩ := sextets_lt a b 0
    simp only [UInt8.zero_div, UInt8.add_zero] at hy
    have hself : encode false [a, b] =
        [symbol (a / 4), symbol (a % 4 * 16 + b / 16), symbol (b % 16 * 4)] := rfl
    rw [hself]
    simp only [List.forall_mem_cons]
    exact ⟨⟨_, hw, rfl⟩, ⟨_, hx, rfl⟩, ⟨_, hy, rfl⟩, List.forall_mem_nil _⟩
  | [a] => by
    obtain ⟨hw, hx, _, _⟩ := sextets_lt a 0 0
    simp only [UInt8.zero_div, UInt8.add_zero] at hx
    have hself : encode false [a] = [symbol (a / 4), symbol (a % 4 * 16)] := rfl
    rw [hself]
    simp only [List.forall_mem_cons]
    exact ⟨⟨_, hw, rfl⟩, ⟨_, hx, rfl⟩, List.forall_mem_nil _⟩
  | [] => List.forall_mem_nil _

theorem symbol_or_pad_of_mem_encode {padded : Bool} {bs : Bytes} {b : UInt8} (h : b ∈ encode padded bs) :
    b = pad ∨ ∃ n < 64, b = symbol n := by
  cases padded with
  | false => exact .inr (symbol_of_mem_encode bs b h)
  | true =>
    obtain ⟨n, hn⟩ := encode_padded bs
    rw [hn] at h
    rcases List.mem_append.1 h with h | h
    · exact .inr (symbol_of_mem_encode bs b h)
    · exact .inl (List.mem_replicate.1 h).2

theorem visible_of_mem_encode {padded : Bool} {bs : Bytes} {b : UInt8} (h : b ∈ encode padded bs) :
    0x20 < b ∧ b < 0x7f := by
  rcases symbol_or_pad_of_mem_encode h with rfl | ⟨n, hn, rfl⟩
  · exact ⟨by decide, by decide⟩
  · exact ⟨(symbol_visible hn).1, (symbol_visible hn).2.1⟩

theorem unquoted_of_mem_encode {padded : Bool} {bs : Bytes} {b : UInt8} (h : b ∈ encode padded bs) :
    b ≠ 0x22 ∧ b ≠ 0x5c := by
  have hsmall : ∀ n : Fin 64, symbol (UInt8.ofNat n) ≠ 0x22 ∧ symbol (UInt8.ofNat n) ≠ 0x5c := by decide
  rcases symbol_or_pad_of_mem_encode h with rfl | ⟨n, hn, rfl⟩
  · exact ⟨by decide, by decide⟩
  · simpa using hsmall ⟨n.toNat, UInt8.lt_iff_toNat_lt.1 hn⟩

end Base64

namespace Decimal

def digits (n : Nat) : Bytes := Bytes.ofString n.repr

def value (bs : Bytes) : Nat := bs.foldl (fun n b => n * 10 + (b - 0x30).toNat) 0

theorem value_append (bs : Bytes) (b : UInt8) : value (bs ++ [b]) = value bs * 10 + (b - 0x30).toNat := by
  rw [value, List.foldl_append]
  rfl

theorem ofString_digitChar {n : Nat} (h : n < 10) :
    Bytes.ofString (String.singleton n.digitChar) = [0x30 + n.toUInt8] := by
  have hsmall : ∀ n : Fin 10, Bytes.ofString (String.singleton (n : Nat).digitChar) = [0x30 + (n : Nat).toUInt8] := by
    decide
  exact hsmall ⟨n, h⟩

theorem digits_of_lt {n : Nat} (h : n < 10) : digits n = [0x30 + n.toUInt8] := by
  rw [digits, Nat.repr_of_lt h, ofString_digitChar h]

theorem digits_of_le {n : Nat} (h : 10 ≤ n) : digits n = digits (n / 10) ++ [0x30 + (n % 10).toUInt8] := by
  rw [digits, Nat.repr_of_ge h, Bytes.ofString_append, ofString_digitChar (Nat.mod_lt n (by decide))]
  rfl

theorem digit_spec {n : Nat} (h : n < 10) :
    Bytes.isDigit (0x30 + n.toUInt8) = true ∧ (0x30 + n.toUInt8 - 0x30).toNat = n ∧
      (n ≠ 0 → 0x30 + n.toUInt8 ≠ 0x30) := by
  have hsmall : ∀ n : Fin 10, Bytes.isDigit (0x30 + (n : Nat).toUInt8) = true ∧
      (0x30 + (n : Nat).toUInt8 - 0x30).toNat = n ∧ ((n : Nat) ≠ 0 → 0x30 + (n : Nat).toUInt8 ≠ 0x30) := by decide
  exact hsmall ⟨n, h⟩

/-- The digits of a number: they are digits, stand for the number, and begin with a zero in the case of zero
only. -/
theorem digits_spec (n : Nat) :
    (∀ b ∈ digits n, Bytes.isDigit b = true) ∧ value (digits n) = n ∧
      ∃ b rest, digits n = b :: rest ∧ (n ≠ 0 → b ≠ 0x30) := by
  induction n using Nat.strongRecOn with
  | ind n ih =>
    by_cases hsmall : n < 10
    · obtain ⟨hdigit, hvalue, hzero⟩ := digit_spec hsmall
      rw [digits_of_lt hsmall]
      refine ⟨by simpa using hdigit, ?_, _, _, rfl, hzero⟩
      rw [← List.nil_append [_], value_append, hvalue]
      simp [value]
    · obtain ⟨hall, hvalue, b, rest, hcons, hhead⟩ := ih (n / 10) (by omega)
      obtain ⟨hdigit, hlast, _⟩ := digit_spec (Nat.mod_lt n (by decide : 0 < 10))
      rw [digits_of_le (by omega)]
      refine ⟨?_, ?_, b, rest ++ [0x30 + (n % 10).toUInt8], by rw [hcons]; rfl, fun _ => hhead (by omega)⟩
      · intro c hc
        rcases List.mem_append.1 hc with hc | hc
        · exact hall c hc
        · rw [List.mem_singleton.1 hc, hdigit]
      · rw [value_append, hvalue, hlast]
        omega

end Decimal

namespace Percent

theorem hexDigit?_hexDigit {n : UInt8} (h : n < 16) :
    Bytes.hexDigit? (hexDigit n) = some n ∧ hexDigit n ≠ 0x2b := by
  have hsmall : ∀ n : Fin 16, Bytes.hexDigit? (hexDigit (UInt8.ofNat n)) = some (UInt8.ofNat n) ∧
      hexDigit (UInt8.ofNat n) ≠ 0x2b := by decide
  simpa using hsmall ⟨n.toNat, UInt8.lt_iff_toNat_lt.1 h⟩

theorem escaped?_hexDigits (b : UInt8) : escaped? (hexDigit (b / 16)) (hexDigit (b % 16)) = some b := by
  have hb := b.toNat_lt
  have hhigh : b / 16 < 16 := by
    apply UInt8.lt_iff_toNat_lt.2
    simp
    omega
  have hlow : b % 16 < 16 := by
    apply UInt8.lt_iff_toNat_lt.2
    simp
    omega
  have hboth : b / 16 * 16 + b % 16 = b := by
    apply UInt8.toNat_inj.1
    simp
    omega
  obtain ⟨hread, hplus⟩ := hexDigit?_hexDigit hhigh
  simp [escaped?, hread, hplus, (hexDigit?_hexDigit hlow).1, hboth]

theorem decodeOnto_encodeByte (read : Bytes) (b : UInt8) (rest : Bytes) :
    decodeOnto read (encodeByte b ++ rest) = decodeOnto (b :: read) rest := by
  rw [encodeByte]
  split
  · rename_i hplain
    have hb : b ≠ 0x25 := by
      rintro rfl
      cases hplain
    rw [List.singleton_append, decodeOnto]
    intro x y rest' h
    exact absurd h hb
  · rw [List.cons_append, List.cons_append, List.singleton_append, decodeOnto, escaped?_hexDigits]

theorem decodeOnto_encodeBytes (read bs : Bytes) :
    decodeOnto read (bs.flatMap encodeByte) = read.reverse ++ bs := by
  induction bs generalizing read with
  | nil => simp [decodeOnto]
  | cons b bs ih => rw [List.flatMap_cons, decodeOnto_encodeByte, ih, List.reverse_cons, List.append_assoc,
      List.singleton_append]

@[simp] theorem decode_encode (message : String) : decode (encode message) = message := by
  rw [decode, decodeBytes, encode, decodeOnto_encodeBytes, List.reverse_nil, List.nil_append, lossy_ofString]

end Percent
end Text
end RpcConformance
