import RpcConformance.Proofs.Text.Ascii
/-!
Blanks at the ends of a written form. Where each character is written either as blanks or without any,
trimming what was written trims the text (`trimWhere_flatMap`). A percent-encoded message thus loses the
spaces at its ends and nothing else (`trimWhere_encode`).
-/
namespace RpcConformance.Text

section Trim

variable {α β : Type} {p : β → Bool} {q : α → Bool} {f : α → List β}

theorem dropWhile_eq_self_iff {ys : List β} : ys.dropWhile p = ys ↔ ∀ y ∈ ys.head?, p y = false := by
  cases ys with
  | nil => simp
  | cons y ys =>
    have hshort : (ys.dropWhile p).length ≤ ys.length := (List.dropWhile_sublist p).length_le
    cases hy : p y with
    | false => simp [hy]
    | true =>
      have hne : ys.dropWhile p ≠ y :: ys := fun h => by
        rw [h, List.length_cons] at hshort
        omega
      simp [hy, hne]

/-- Trimming leaves just those lists as they are that have no element of the class at either end. -/
theorem trimWhere_eq_self_iff {ys : List β} :
    trimWhere p ys = ys ↔ (∀ y ∈ ys.head?, p y = false) ∧ ∀ y ∈ ys.getLast?, p y = false := by
  have hreverse : ys.reverse.dropWhile p = ys.reverse ↔ ∀ y ∈ ys.getLast?, p y = false := by
    rw [dropWhile_eq_self_iff, List.head?_reverse]
  rw [← hreverse, ← dropWhile_eq_self_iff, trimWhere, List.reverse_eq_iff]
  constructor
  · intro h
    have hlength := congrArg List.length h
    have hrest : ((ys.dropWhile p).reverse.dropWhile p).length ≤ (ys.dropWhile p).reverse.length :=
      (List.dropWhile_sublist p).length_le
    have hsame : ys.dropWhile p = ys := (List.dropWhile_suffix p).eq_of_length_le (by
      simp only [List.length_reverse] at hlength hrest
      omega)
    rw [hsame] at h
    exact ⟨hsame, h⟩
  · rintro ⟨hfront, hback⟩
    rw [hfront, hback]

theorem mem_of_mem_trimWhere {y : β} {ys : List β} (h : y ∈ trimWhere p ys) : y ∈ ys := by
  rw [trimWhere, List.mem_reverse] at h
  exact (List.dropWhile_sublist p).mem (List.mem_reverse.1 ((List.dropWhile_sublist p).mem h))

/-- Whether each element of a class is written in elements of another, and each that is not in it is
written, but without any of those. -/
structure Separates (q : α → Bool) (p : β → Bool) (f : α → List β) : Prop where
  inside : ∀ x, q x = true → ∀ y ∈ f x, p y = true
  outside : ∀ x, q x = false → f x ≠ [] ∧ ∀ y ∈ f x, p y = false

theorem Separates.reverse (h : Separates q p f) : Separates q p (List.reverse ∘ f) where
  inside x hx y hy := h.inside x hx y (List.mem_reverse.1 hy)
  outside x hx := by
    obtain ⟨hne, hall⟩ := h.outside x hx
    exact ⟨fun hnil => hne (List.reverse_eq_nil_iff.1 hnil), fun y hy => hall y (List.mem_reverse.1 hy)⟩

theorem dropWhile_flatMap (h : Separates q p f) (xs : List α) :
    (xs.flatMap f).dropWhile p = (xs.dropWhile q).flatMap f := by
  induction xs with
  | nil => rfl
  | cons x xs ih =>
    cases hx : q x with
    | true => rw [List.flatMap_cons, List.dropWhile_append_of_pos (h.inside x hx), ih, List.dropWhile_cons_of_pos hx]
    | false =>
      obtain ⟨hne, hall⟩ := h.outside x hx
      obtain ⟨y, ys, hy⟩ := List.exists_cons_of_ne_nil hne
      have hkeep : ¬p y = true := by simp [hall y (by simp [hy])]
      rw [List.dropWhile_cons_of_neg (by simp [hx]), List.flatMap_cons, hy, List.cons_append,
        List.dropWhile_cons_of_neg hkeep]

theorem trimWhere_flatMap (h : Separates q p f) (xs : List α) :
    trimWhere p (xs.flatMap f) = (trimWhere q xs).flatMap f := by
  have hback : List.reverse ∘ List.reverse ∘ f = f := funext fun x => List.reverse_reverse (f x)
  rw [trimWhere, dropWhile_flatMap h, List.reverse_flatMap, dropWhile_flatMap h.reverse, List.reverse_flatMap,
    hback, trimWhere]

end Trim

/-- What stands between elements of a class, and has none of them, is what trimming leaves. -/
theorem trimWhere_between {α : Type} {p : α → Bool} {lead xs trail : List α} (hlead : ∀ x ∈ lead, p x = true)
    (hxs : ∀ x ∈ xs, p x = false) (htrail : ∀ x ∈ trail, p x = true) : trimWhere p (lead ++ xs ++ trail) = xs := by
  rw [List.append_assoc, trimWhere, List.dropWhile_append_of_pos hlead]
  cases xs with
  | nil =>
    rw [List.nil_append, ← List.append_nil trail, List.dropWhile_append_of_pos htrail]
    rfl
  | cons x xs =>
    have hself : ((x :: xs).reverse).dropWhile p = (x :: xs).reverse :=
      dropWhile_eq_self_iff.2 fun y hy => hxs y (List.mem_reverse.1 (List.mem_of_mem_head? hy))
    have htrail' : ∀ y ∈ trail.reverse, p y = true := fun y hy => htrail y (List.mem_reverse.1 hy)
    rw [List.cons_append, List.dropWhile_cons_of_neg (by simp [hxs x List.mem_cons_self]), ← List.cons_append,
      List.reverse_append, List.dropWhile_append_of_pos htrail', hself, List.reverse_reverse]

theorem trim_between {lead text trail : String} (hlead : ∀ c ∈ lead.toList, isSpace c = true)
    (htext : ∀ c ∈ text.toList, isSpace c = false) (htrail : ∀ c ∈ trail.toList, isSpace c = true) :
    trim (lead ++ text ++ trail) = text := by
  rw [trim, String.toList_append, String.toList_append, trimWhere_between hlead htext htrail, String.ofList_toList]

theorem isAsciiSpace_of_lt {b : UInt8} : 0x20 < b → isAsciiSpace b = false :=
  Bytes.forall_byte b (by decide +kernel)

/-- A message without the spaces at its ends. -/
def unspaced (message : String) : String := String.ofList (trimWhere (· == ' ') message.toList)

theorem unspaced_eq_self_iff (message : String) :
    unspaced message = message ↔ message.toList.head? ≠ some ' ' ∧ message.toList.getLast? ≠ some ' ' := by
  have hend (char : Option Char) : (∀ c ∈ char, (c == ' ') = false) ↔ char ≠ some ' ' := by
    cases char <;> simp
  rw [unspaced, ← String.toList_inj, String.toList_ofList, trimWhere_eq_self_iff, hend, hend]

namespace Percent

theorem encodeByte_visible {b : UInt8} (h : b ≠ 0x20) :
    encodeByte b ≠ [] ∧ ∀ c ∈ encodeByte b, 0x20 < c ∧ c < 0x7f := by
  have hall : b ≠ 0x20 → encodeByte b ≠ [] ∧ (encodeByte b).all (fun c => 0x20 < c ∧ c < 0x7f) = true :=
    Bytes.forall_byte b (by decide +kernel)
  simpa only [List.all_eq_true, decide_eq_true_eq] using hall h

theorem space_le_of_mem_encode {message : String} {b : UInt8} (h : b ∈ encode message) : 0x20 ≤ b ∧ b < 0x7f := by
  obtain ⟨c, -, hc⟩ := List.mem_flatMap.1 h
  by_cases hspace : c = 0x20
  · subst hspace
    rw [List.mem_singleton.1 hc]
    decide
  · obtain ⟨hlow, hhigh⟩ := (encodeByte_visible hspace).2 b hc
    exact ⟨UInt8.le_of_lt hlow, hhigh⟩

theorem encodeByte_space : encodeByte 0x20 = [0x20] := by decide

theorem ne_space_of_mem_utf8 {char : Char} (hchar : char ≠ ' ') {b : UInt8} (h : b ∈ String.utf8EncodeChar char) :
    b ≠ 0x20 := by
  rintro rfl
  have hcount := @Bytes.count_utf8EncodeChar 0x20 (by decide) char
  have hother : char.toNat ≠ (0x20 : UInt8).toNat := fun hvalue => hchar (Char.toNat_inj.1 hvalue)
  rw [if_neg hother] at hcount
  exact List.count_eq_zero.1 hcount h

/-- The space is the only character that is written as a blank, and other characters are written without any. -/
theorem separates_encode :
    Separates (· == ' ') isAsciiSpace fun char => (String.utf8EncodeChar char).flatMap encodeByte where
  inside char hchar b hb := by
    rw [eq_of_beq hchar] at hb
    have hspace : b = 0x20 := by simpa [encodeByte_space, String.utf8EncodeChar] using hb
    rw [hspace]
    rfl
  outside char hchar := by
    have hother : char ≠ ' ' := by simpa using hchar
    constructor
    · obtain ⟨b, rest, hb⟩ := List.exists_cons_of_ne_nil (String.utf8EncodeChar_ne_nil (c := char))
      have hne := (encodeByte_visible (ne_space_of_mem_utf8 hother (hb ▸ List.mem_cons_self))).1
      rw [hb, List.flatMap_cons]
      exact fun hnil => hne (List.append_eq_nil_iff.1 hnil).1
    · intro c hc
      obtain ⟨b, hb, hmem⟩ := List.mem_flatMap.1 hc
      obtain ⟨hlow, -⟩ := (encodeByte_visible (ne_space_of_mem_utf8 hother hb)).2 c hmem
      exact isAsciiSpace_of_lt hlow

theorem trimWhere_encode (message : String) :
    trimWhere isAsciiSpace (encode message) = encode (unspaced message) := by
  have hchars (chars : List Char) : encode (String.ofList chars) =
      chars.flatMap fun char => (String.utf8EncodeChar char).flatMap encodeByte := by
    rw [encode, Bytes.ofString_ofList, List.flatMap_assoc]
  rw [unspaced, hchars, ← trimWhere_flatMap separates_encode, ← hchars, String.ofList_toList]

end Percent

end RpcConformance.Text
