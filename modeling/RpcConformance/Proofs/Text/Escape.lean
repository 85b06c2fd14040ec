import Mathlib.Data.List.Infix
import RpcConformance.Proofs.Text.Ascii
/-!
What is an escape in a written message. A scan from left to right reads a percent sign and two hexadecimal digits as one
byte and keeps every other byte (`Scans Pair`). Reading takes a plus sign and one digit for an escape as well, and
differs from the scan just where these three stand somewhere (`decode_scans`, `signed_taken_for_escape`).
-/
namespace RpcConformance.Text.Percent

def Digit (b : UInt8) (value : Nat) : Prop :=
  (Bytes.ofString "0123456789abcdef")[value]? = some b ∨ (Bytes.ofString "0123456789ABCDEF")[value]? = some b

def Pair (x y : UInt8) (value : Nat) : Prop := ∃ high low, Digit x high ∧ Digit y low ∧ value = 16 * high + low

def Signed (x y : UInt8) (value : Nat) : Prop := x = 0x2b ∧ Digit y value

/-- A scan from left to right. A percent sign and two bytes that denote a number are replaced by the byte with that
number, and every other byte is kept. -/
inductive Scans (Denotes : UInt8 → UInt8 → Nat → Prop) : Bytes → Bytes → Prop
  | done : Scans Denotes [] []
  | replace {x y : UInt8} {value : Nat} {rest read : Bytes} (h : Denotes x y value) (hrest : Scans Denotes rest read) :
    Scans Denotes (0x25 :: x :: y :: rest) (UInt8.ofNat value :: read)
  | keep {b : UInt8} {rest read : Bytes}
    (h : ∀ x y value tail, b :: rest = 0x25 :: x :: y :: tail → ¬Denotes x y value) (hrest : Scans Denotes rest read) :
    Scans Denotes (b :: rest) (b :: read)

/-- What reading takes for the digits of an escape. -/
def Loose (x y : UInt8) (value : Nat) : Prop := Pair x y value ∨ Signed x y value

/-- Whether a percent sign stands before a plus sign and a digit. -/
def HasSigned (bs : Bytes) : Prop := ∃ y value, Digit y value ∧ [0x25, 0x2b, y] <:+: bs

/-! ### Digits -/

theorem digit_iff {b : UInt8} {value : Nat} : Digit b value ↔ (Bytes.hexDigit? b).map UInt8.toNat = some value := by
  have hlower : (Bytes.ofString "0123456789abcdef").length = 16 := by decide +kernel
  have hupper : (Bytes.ofString "0123456789ABCDEF").length = 16 := by decide +kernel
  have hdigit : ∀ value : Fin 16, Digit b value ↔ (Bytes.hexDigit? b).map UInt8.toNat = some (value : Nat) := by
    refine Bytes.forall_byte b ?_
    unfold Digit
    decide +kernel
  have hvalue : ∀ value ∈ (Bytes.hexDigit? b).map UInt8.toNat, value < 16 := Bytes.forall_byte b (by decide +kernel)
  constructor
  · intro h
    have hlt : value < 16 := by
      rcases h with h | h
      · exact hlower ▸ (List.getElem?_eq_some_iff.1 h).1
      · exact hupper ▸ (List.getElem?_eq_some_iff.1 h).1
    exact (hdigit ⟨value, hlt⟩).1 h
  · intro h
    exact (hdigit ⟨value, hvalue value h⟩).2 h

theorem Digit.ne_signs {b : UInt8} {value : Nat} (h : Digit b value) : b ≠ 0x25 ∧ b ≠ 0x2b := by
  rw [digit_iff] at h
  constructor <;> rintro rfl <;> cases h

theorem Digit.lt {b : UInt8} {value : Nat} (h : Digit b value) : value < 16 := by
  have hall : ∀ value ∈ (Bytes.hexDigit? b).map UInt8.toNat, value < 16 := Bytes.forall_byte b (by decide +kernel)
  exact hall value (digit_iff.1 h)

theorem Digit.unique {b : UInt8} {value other : Nat} (h : Digit b value) (hother : Digit b other) : value = other := by
  rw [digit_iff] at h hother
  exact Option.some.inj (h.symm.trans hother)

theorem Pair.unique {x y : UInt8} {value other : Nat} (h : Pair x y value) (hother : Pair x y other) :
    value = other := by
  obtain ⟨high, low, hhigh, hlow, rfl⟩ := h
  obtain ⟨high', low', hhigh', hlow', rfl⟩ := hother
  rw [hhigh.unique hhigh', hlow.unique hlow']

/-- What is read as an escape: two digits, or a plus sign and one. -/
theorem escaped?_eq_some_iff {x y b : UInt8} :
    escaped? x y = some b ↔ ∃ value, Loose x y value ∧ b = UInt8.ofNat value := by
  have hspelled (high low : UInt8) : UInt8.ofNat (16 * high.toNat + low.toNat) = high * 16 + low := by
    simp [UInt8.mul_comm]
  constructor
  · intro h
    obtain ⟨low, hlow, h⟩ := Option.bind_eq_some_iff.1 h
    have hy : Digit y low.toNat := digit_iff.2 (by simp [hlow])
    split at h
    · rename_i hplus
      exact ⟨_, .inr ⟨eq_of_beq hplus, hy⟩, by simpa using h.symm⟩
    · obtain ⟨high, hhigh, h⟩ := Option.bind_eq_some_iff.1 h
      have hx : Digit x high.toNat := digit_iff.2 (by simp [hhigh])
      exact ⟨_, .inl ⟨_, _, hx, hy, rfl⟩, by rw [hspelled]; exact (Option.some.inj h).symm⟩
  · rintro ⟨value, ⟨high, low, hx, hy, rfl⟩ | ⟨rfl, hy⟩, rfl⟩
    · have hplus := hx.ne_signs.2
      rw [digit_iff, Option.map_eq_some_iff] at hx hy
      obtain ⟨high, hhigh, rfl⟩ := hx
      obtain ⟨low, hlow, rfl⟩ := hy
      simp [escaped?, hlow, hhigh, hplus, hspelled]
    · rw [digit_iff, Option.map_eq_some_iff] at hy
      obtain ⟨low, hlow, rfl⟩ := hy
      simp [escaped?, hlow]

/-! ### Scans -/

variable {Denotes : UInt8 → UInt8 → Nat → Prop} {bs read : Bytes}

/-- Every byte string can be scanned. By induction on its length, as an escape takes three bytes at once. -/
theorem exists_scans (Denotes : UInt8 → UInt8 → Nat → Prop) (bs : Bytes) : ∃ read, Scans Denotes bs read := by
  induction hlength : bs.length using Nat.strongRecOn generalizing bs with
  | ind n ih =>
    subst hlength
    cases bs with
    | nil => exact ⟨[], .done⟩
    | cons b rest =>
      by_cases hescape : ∃ x y value tail, b :: rest = 0x25 :: x :: y :: tail ∧ Denotes x y value
      · obtain ⟨x, y, value, tail, hcons, hdenotes⟩ := hescape
        rw [hcons] at ih ⊢
        obtain ⟨read, hread⟩ := ih tail.length (by simp only [List.length_cons]; omega) tail rfl
        exact ⟨_, .replace hdenotes hread⟩
      · obtain ⟨read, hread⟩ := ih rest.length (by simp) rest rfl
        exact ⟨_, .keep (fun x y value tail hcons hdenotes => hescape ⟨x, y, value, tail, hcons, hdenotes⟩) hread⟩

theorem Scans.unique (h : Scans Denotes bs read) {other : Bytes} (hother : Scans Denotes bs other)
    (hunique : ∀ x y value value', Denotes x y value → Denotes x y value' → value = value') : read = other := by
  induction h generalizing other with
  | done =>
    cases hother
    rfl
  | replace h _ ih =>
    cases hother with
    | replace h' hrest' => rw [hunique _ _ _ _ h h', ih hrest']
    | keep h' _ => exact absurd h (h' _ _ _ _ rfl)
  | keep h _ ih =>
    cases hother with
    | replace h' _ => exact absurd h' (h _ _ _ _ rfl)
    | keep _ hrest' => rw [ih hrest']

theorem Scans.decodeOnto (h : Scans Loose bs read) (before : Bytes) :
    decodeOnto before bs = before.reverse ++ read := by
  induction h generalizing before with
  | done => simp [Percent.decodeOnto]
  | replace h _ ih =>
    rw [Percent.decodeOnto, escaped?_eq_some_iff.2 ⟨_, h, rfl⟩]
    simp [ih]
  | @keep b rest read h _ ih =>
    have hkeep : Percent.decodeOnto before (b :: rest) = Percent.decodeOnto (b :: before) rest := by
      by_cases hshape : ∃ x y tail, b :: rest = 0x25 :: x :: y :: tail
      · obtain ⟨x, y, tail, hcons⟩ := hshape
        obtain ⟨rfl, rfl⟩ := List.cons.inj hcons
        cases hnone : escaped? x y with
        | none => rw [Percent.decodeOnto, hnone]
        | some c =>
          obtain ⟨value, hdenotes, -⟩ := escaped?_eq_some_iff.1 hnone
          exact absurd hdenotes (h _ _ _ _ rfl)
      · rw [Percent.decodeOnto]
        rintro x y tail rfl rfl
        exact hshape ⟨x, y, tail, rfl⟩
    rw [hkeep, ih]
    simp

theorem decodeBytes_eq (h : Scans Loose bs read) :
    decodeBytes bs = read := h.decodeOnto []

/-! ### Signs -/

theorem hasSigned_cons {b : UInt8} {rest : Bytes} :
    HasSigned (b :: rest) ↔
      (∃ y value tail, Digit y value ∧ b = 0x25 ∧ rest = 0x2b :: y :: tail) ∨ HasSigned rest := by
  constructor
  · rintro ⟨y, value, hy, hinfix⟩
    rcases List.infix_cons_iff.1 hinfix with ⟨tail, hprefix⟩ | hrest
    · obtain ⟨rfl, rfl⟩ := List.cons.inj hprefix
      exact .inl ⟨y, value, tail, hy, rfl, rfl⟩
    · exact .inr ⟨y, value, hy, hrest⟩
  · rintro (⟨y, value, tail, hy, rfl, rfl⟩ | ⟨y, value, hy, hrest⟩)
    · exact ⟨y, value, hy, List.infix_cons_iff.2 (.inl ⟨tail, rfl⟩)⟩
    · exact ⟨y, value, hy, List.infix_cons_iff.2 (.inr hrest)⟩

theorem hasSigned_of_pair {x y : UInt8} {value : Nat} {rest : Bytes} (h : Pair x y value)
    (hsigned : HasSigned (0x25 :: x :: y :: rest)) : HasSigned rest := by
  obtain ⟨high, low, hx, hy, -⟩ := h
  have hx' := hx.ne_signs
  have hy' := hy.ne_signs
  simpa [hasSigned_cons, hx', hy'] using hsigned

theorem Scans.loose (h : Scans Pair bs read) (hnone : ¬HasSigned bs) : Scans Loose bs read := by
  induction h with
  | done => exact .done
  | replace h _ ih =>
    refine .replace (.inl h) (ih fun hrest => hnone ?_)
    exact hasSigned_cons.2 (.inr (hasSigned_cons.2 (.inr (hasSigned_cons.2 (.inr hrest)))))
  | keep h _ ih =>
    refine .keep ?_ (ih fun hrest => hnone (hasSigned_cons.2 (.inr hrest)))
    rintro x y value tail hcons (hpair | ⟨rfl, hy⟩)
    · exact h x y value tail hcons hpair
    · obtain ⟨rfl, rfl⟩ := List.cons.inj hcons
      exact hnone (hasSigned_cons.2 (.inl ⟨y, value, tail, hy, rfl, rfl⟩))

theorem Scans.exists_keep {b : UInt8} {rest : Bytes} (h : Scans Denotes (b :: rest) read)
    (hkeep : ∀ x y value tail, b :: rest = 0x25 :: x :: y :: tail → ¬Denotes x y value) :
    ∃ kept, read = b :: kept ∧ Scans Denotes rest kept := by
  cases h with
  | replace h' _ => exact absurd h' (hkeep _ _ _ _ rfl)
  | keep _ hrest => exact ⟨_, rfl, hrest⟩

theorem Scans.count_le (h : Scans Loose bs read) {exact : Bytes} (hexact : Scans Pair bs exact) :
    read.count 0x25 ≤ exact.count 0x25 ∧ (HasSigned bs → read.count 0x25 < exact.count 0x25) := by
  induction h generalizing exact with
  | done =>
    cases hexact
    simp [HasSigned]
  | @replace x y value rest read h _ ih =>
    rcases h with hpair | ⟨rfl, hy⟩
    · cases hexact with
      | keep h' _ => exact absurd hpair (h' _ _ _ _ rfl)
      | replace h' hrest =>
        obtain ⟨hle, hlt⟩ := ih hrest
        rw [h'.unique hpair, List.count_cons, List.count_cons]
        refine ⟨by omega, fun hsigned => ?_⟩
        have hrest' := hlt (hasSigned_of_pair hpair hsigned)
        omega
    · -- the scan keeps the percent sign, the plus sign and the digit
      have hplus : ∀ x' y' value' tail, 0x25 :: 0x2b :: y :: rest = 0x25 :: x' :: y' :: tail → ¬Pair x' y' value' := by
        rintro _ _ _ _ ⟨⟩ ⟨_, _, hdigit, -, -⟩
        exact hdigit.ne_signs.2 rfl
      obtain ⟨first, rfl, hsign⟩ := hexact.exists_keep hplus
      obtain ⟨second, rfl, hdigit⟩ := hsign.exists_keep (by simp)
      obtain ⟨third, rfl, hrest⟩ := hdigit.exists_keep (by simp [hy.ne_signs.1])
      have hbyte : UInt8.ofNat value ≠ 0x25 := by
        intro hvalue
        have hnumber := congrArg UInt8.toNat hvalue
        have hsmall := hy.lt
        simp only [UInt8.toNat_ofNat', UInt8.reduceToNat] at hnumber
        omega
      obtain ⟨hle, -⟩ := ih hrest
      have hlt : (UInt8.ofNat value :: read).count 0x25 < (0x25 :: 0x2b :: y :: third).count 0x25 := by
        simp [hbyte, hy.ne_signs.1]
        omega
      exact ⟨Nat.le_of_lt hlt, fun _ => hlt⟩
  | @keep b rest read h _ ih =>
    obtain ⟨kept, rfl, hrest⟩ := hexact.exists_keep fun x y value tail hcons hpair =>
      h x y value tail hcons (.inl hpair)
    obtain ⟨hle, hlt⟩ := ih hrest
    rw [List.count_cons, List.count_cons]
    refine ⟨by omega, fun hsigned => ?_⟩
    rcases hasSigned_cons.1 hsigned with ⟨y, value, tail, hy, rfl, rfl⟩ | hsigned'
    · exact absurd (.inr ⟨rfl, hy⟩) (h _ _ _ _ rfl)
    · have hrest' := hlt hsigned'
      omega

/-- Every byte string is scanned in one way, and what is read is the text of that unless a plus sign and one digit stand
behind a percent sign somewhere. These are taken for an escape, and nothing else is but two digits. -/
theorem decode_scans (bs : Bytes) :
    ∃ exact, Scans Pair bs exact ∧ (∀ other, Scans Pair bs other → other = exact) ∧
      (decode bs = lossy exact ↔ ¬HasSigned bs) ∧ ∃ read, Scans Loose bs read ∧ decode bs = lossy read := by
  obtain ⟨exact, hexact⟩ := exists_scans Pair bs
  obtain ⟨read, hread⟩ := exists_scans Loose bs
  have hdecode : decode bs = lossy read := by rw [decode, decodeBytes_eq hread]
  refine ⟨exact, hexact, fun other hother => hother.unique hexact fun _ _ _ _ => Pair.unique, ?_, read, hread, hdecode⟩
  rw [hdecode]
  constructor
  · intro hsame hsigned
    have hcount := congrArg (fun text => text.toList.count '%') hsame
    have hpercent (bs : Bytes) : (lossy bs).toList.count '%' = bs.count 0x25 :=
      @count_lossy 0x25 (by decide) (by decide) bs
    simp only [hpercent] at hcount
    have hlt := (hread.count_le hexact).2 hsigned
    omega
  · intro hnone
    rw [← decodeBytes_eq hread, decodeBytes_eq (hexact.loose hnone)]

def signedEscape : Bytes := [0x25, 0x2b, 0x46]

/-- No two digits stand behind the percent sign, and yet one byte is read. -/
theorem signed_taken_for_escape :
    Scans Pair signedEscape signedEscape ∧ decode signedEscape = "\x0f" ∧
      decode signedEscape ≠ lossy signedEscape := by
  have hdecode : decode signedEscape = "\x0f" := by decide +kernel
  have hlossy : lossy signedEscape = "%+F" := by decide +kernel
  refine ⟨.keep ?_ (.keep (by simp) (.keep (by simp) .done)), hdecode, ?_⟩
  · rintro _ _ _ _ ⟨⟩ ⟨_, _, hdigit, -, -⟩
    exact hdigit.ne_signs.2 rfl
  · rw [hdecode, hlossy]
    decide

end RpcConformance.Text.Percent
