import Mathlib.Algebra.Ring.Nat
import RpcConformance.Proofs.Timeout
/-!
How timeouts are rounded for a header. gRPC takes the finest unit whose eight-digit amounts reach the timeout, and rounds
up to it (`Covers`). An amount is told apart from every other by that, so that what is read back grows with the timeout,
also where the unit changes, and is written as the same text again (`grpc_roundsUp`). Connect rounds down to
milliseconds, but for what is less than one (`connect_rounds`): a server may give up before its client does
(`connect_shortens`).
-/
namespace RpcConformance.Timeout

open Text.Decimal

/-! ### Units -/

def hourNanos : Nat := 3600000000000

def longest : Nat := maxAmount * hourNanos

theorem unitNanos?_pos {unit : Char} {nanos : Nat} (h : unitNanos? unit = some nanos) : 0 < nanos := by
  have hall : ∀ entry ∈ unitTable, 0 < entry.2 := by decide
  exact hall _ (mem_unitTable h)

theorem unitNanos?_le_hour {unit : Char} {nanos : Nat} (h : unitNanos? unit = some nanos) : nanos ≤ hourNanos := by
  have hall : ∀ entry ∈ unitTable, entry.2 ≤ hourNanos := by decide
  exact hall _ (mem_unitTable h)

theorem mem_units {unit : Char} {nanos : Nat} (h : unitNanos? unit = some nanos) : unit ∈ units := by
  have hall : ∀ entry ∈ unitTable, entry.1 ∈ units := by decide
  exact hall _ (mem_unitTable h)

theorem unitNanos?_injective {unit other : Char} {nanos : Nat} (h : unitNanos? unit = some nanos)
    (hother : unitNanos? other = some nanos) : unit = other := by
  have hall : ∀ entry ∈ unitTable, ∀ second ∈ unitTable, entry.2 = second.2 → entry.1 = second.1 := by decide
  exact hall _ (mem_unitTable h) _ (mem_unitTable hother) rfl

theorem units_ascend : units.Pairwise fun finer unit => (unitNanos? finer).getD 0 < (unitNanos? unit).getD 0 := by
  decide

theorem finer_mem {before after : List Char} {unit finer : Char} {nanos scale : Nat}
    (hunits : units = before ++ unit :: after) (hunit : unitNanos? unit = some nanos)
    (hfiner : unitNanos? finer = some scale) (hlt : scale < nanos) : finer ∈ before := by
  have hascend := units_ascend
  have hmem := mem_units hfiner
  rw [hunits, List.pairwise_append, List.pairwise_cons] at hascend
  rw [hunits, List.mem_append, List.mem_cons] at hmem
  rcases hmem with hbefore | rfl | hafter
  · exact hbefore
  · rw [hunit] at hfiner
    cases hfiner
    exact absurd hlt (Nat.lt_irrefl _)
  · have hcoarser := hascend.2.1.1 finer hafter
    simp only [hunit, hfiner, Option.getD_some] at hcoarser
    omega

/-! ### Amounts -/

theorem amountIn_le_iff {scale nanos amount : Nat} (h : 0 < scale) :
    amountIn scale nanos ≤ amount ↔ nanos ≤ amount * scale := by
  rw [amountIn, Nat.div_le_iff_le_mul_add_pred h, Nat.mul_comm]
  omega

theorem amountIn_mul_lt {scale : Nat} (h : 0 < scale) (nanos : Nat) :
    amountIn scale nanos * scale < nanos + scale := by
  have hle := Nat.div_mul_le_self (nanos + scale - 1) scale
  unfold amountIn
  omega

/-- An amount of a unit is what a timeout is rounded up to: in eight digits no amount of a finer unit reaches the timeout,
and one unit less would not either. -/
structure Covers (timeout amount : Nat) (unit : Char) (nanos : Nat) : Prop where
  worth : unitNanos? unit = some nanos
  fits : amount ≤ maxAmount
  reaches : timeout ≤ amount * nanos
  tight : amount * nanos < timeout + nanos
  finest : ∀ finer scale, unitNanos? finer = some scale → scale < nanos →
    ∀ fitting, fitting ≤ maxAmount → fitting * scale < timeout

namespace Covers

variable {timeout other amount amount' nanos nanos' : Nat} {unit unit' : Char}

theorem le_longest (h : Covers timeout amount unit nanos) : amount * nanos ≤ longest :=
  Nat.mul_le_mul h.fits (unitNanos?_le_hour h.worth)

/-- Amounts of a finer unit are less than what is rounded to a coarser one. -/
theorem lt_of_finer (h : Covers timeout amount unit nanos) (h' : Covers other amount' unit' nanos')
    (hlt : nanos < nanos') : amount * nanos < other :=
  h'.finest unit nanos h.worth hlt amount h.fits

theorem mono (h : Covers timeout amount unit nanos) (h' : Covers other amount' unit' nanos') (hle : timeout ≤ other) :
    amount * nanos ≤ amount' * nanos' := by
  rcases Nat.lt_trichotomy nanos nanos' with hlt | rfl | hlt
  · exact Nat.le_of_lt (Nat.lt_of_lt_of_le (h.lt_of_finer h' hlt) h'.reaches)
  · -- in one unit the amounts differ by less than one where the timeouts do not
    have hnext : amount * nanos < (amount' + 1) * nanos := by
      calc amount * nanos < timeout + nanos := h.tight
        _ ≤ amount' * nanos + nanos := Nat.add_le_add_right (Nat.le_trans hle h'.reaches) nanos
        _ = (amount' + 1) * nanos := (Nat.succ_mul amount' nanos).symm
    exact Nat.mul_le_mul_right nanos (Nat.le_of_lt_succ (Nat.lt_of_mul_lt_mul_right hnext))
  · have hshort := h'.lt_of_finer h hlt
    have hreaches := h'.reaches
    omega

theorem span_unique (h : Covers timeout amount unit nanos) (h' : Covers timeout amount' unit' nanos') :
    amount * nanos = amount' * nanos' :=
  Nat.le_antisymm (h.mono h' (Nat.le_refl _)) (h'.mono h (Nat.le_refl _))

theorem unique (h : Covers timeout amount unit nanos) (h' : Covers timeout amount' unit' nanos') :
    amount = amount' ∧ unit = unit' := by
  have hnanos : nanos = nanos' := by
    rcases Nat.lt_trichotomy nanos nanos' with hlt | heq | hlt
    · exact absurd (h.lt_of_finer h' hlt) (Nat.not_lt.2 h.reaches)
    · exact heq
    · exact absurd (h'.lt_of_finer h hlt) (Nat.not_lt.2 h'.reaches)
  subst hnanos
  exact ⟨Nat.eq_of_mul_eq_mul_right (unitNanos?_pos h.worth) (h.span_unique h'), unitNanos?_injective h.worth h'.worth⟩

theorem rounded (h : Covers timeout amount unit nanos) : Covers (amount * nanos) amount unit nanos where
  worth := h.worth
  fits := h.fits
  reaches := Nat.le_refl _
  tight := Nat.lt_add_of_pos_right (unitNanos?_pos h.worth)
  finest finer scale hfiner hlt fitting hfitting :=
    Nat.lt_of_lt_of_le (h.finest finer scale hfiner hlt fitting hfitting) h.reaches

end Covers

/-! ### The text of a gRPC timeout -/

theorem rounded?_eq_none {timeout : Duration} {unit : Char} {nanos : Nat} (hnanos : unitNanos? unit = some nanos)
    (h : rounded? timeout unit = none) : maxAmount * nanos < timeout.nanos := by
  simp only [rounded?, hnanos, Option.bind_eq_bind, Option.bind_some, ite_eq_right_iff, reduceCtorEq, imp_false] at h
  rwa [amountIn_le_iff (unitNanos?_pos hnanos), Nat.not_le] at h

theorem exists_covers {timeout : Duration} (h : timeout.nanos ≤ longest) :
    ∃ amount unit nanos, formatGrpc timeout = render amount ++ String.singleton unit ∧
      Covers timeout.nanos amount unit nanos := by
  cases hchoice : units.findSome? (rounded? timeout) with
  | none =>
    have hhours := List.findSome?_eq_none_iff.1 hchoice 'H' (by decide)
    have hlong : longest < timeout.nanos := rounded?_eq_none rfl hhours
    omega
  | some choice =>
    obtain ⟨before, unit, after, hunits, hrounded, hbefore⟩ := List.findSome?_eq_some_iff.1 hchoice
    obtain ⟨nanos, hnanos, hfits, rfl⟩ := rounded?_eq_some hrounded
    have hpos := unitNanos?_pos hnanos
    refine ⟨amountIn nanos timeout.nanos, unit, nanos, by rw [formatGrpc_eq_findSome?, hchoice, Option.getD_some],
      hnanos, hfits, (amountIn_le_iff hpos).1 (Nat.le_refl _), amountIn_mul_lt hpos _, ?_⟩
    intro finer scale hfiner hlt fitting hfitting
    have hnone := hbefore finer (finer_mem hunits hnanos hfiner hlt)
    exact Nat.lt_of_le_of_lt (Nat.mul_le_mul_right scale hfitting) (rounded?_eq_none hfiner hnone)

/-- A timeout that is too long is cut down to the longest that can be written. -/
theorem formatGrpc_of_long {timeout : Duration} (h : longest < timeout.nanos) :
    formatGrpc timeout = render maxAmount ++ String.singleton 'H' := by
  have hnone : units.findSome? (rounded? timeout) = none := by
    rw [List.findSome?_eq_none_iff]
    intro unit _
    cases hrounded : rounded? timeout unit with
    | none => rfl
    | some choice =>
      obtain ⟨nanos, hnanos, hfits, -⟩ := rounded?_eq_some hrounded
      rw [amountIn_le_iff (unitNanos?_pos hnanos)] at hfits
      have hreach : maxAmount * nanos ≤ longest := Nat.mul_le_mul_left maxAmount (unitNanos?_le_hour hnanos)
      omega
  rw [formatGrpc_eq_findSome?, hnone, Option.getD_none]

theorem covers_longest : Covers longest maxAmount 'H' hourNanos where
  worth := rfl
  fits := Nat.le_refl _
  reaches := Nat.le_refl _
  tight := by decide
  finest finer scale _ hlt fitting hfitting :=
    Nat.lt_of_le_of_lt (Nat.mul_le_mul_right scale hfitting) (Nat.mul_lt_mul_of_pos_left hlt (by decide))

theorem covers_nanos {timeout : Nat} (h : timeout ≤ maxAmount) : Covers timeout timeout 'n' 1 where
  worth := rfl
  fits := h
  reaches := Nat.le_of_eq (Nat.mul_one timeout).symm
  tight := by omega
  finest _ _ hfiner hlt := absurd hlt (Nat.not_lt.2 (unitNanos?_pos hfiner))

/-- Whatever a timeout is, what is written is rounded up from it, or from the longest that can be written. -/
theorem formatGrpc_covers (timeout : Duration) :
    ∃ amount unit nanos, formatGrpc timeout = render amount ++ String.singleton unit ∧
      Covers (min timeout.nanos longest) amount unit nanos := by
  by_cases h : timeout.nanos ≤ longest
  · rw [Nat.min_eq_left h]
    exact exists_covers h
  · rw [Nat.min_eq_right (Nat.le_of_not_le h)]
    exact ⟨_, _, _, formatGrpc_of_long (Nat.lt_of_not_le h), covers_longest⟩

theorem formatGrpc_of_covers {timeout : Duration} {amount nanos : Nat} {unit : Char}
    (h : Covers timeout.nanos amount unit nanos) :
    formatGrpc timeout = render amount ++ String.singleton unit := by
  obtain ⟨amount', unit', nanos', hform, hcovers⟩ := formatGrpc_covers timeout
  rw [Nat.min_eq_left (Nat.le_trans h.reaches h.le_longest)] at hcovers
  obtain ⟨rfl, rfl⟩ := h.unique hcovers
  exact hform

/-! ### Words -/

/-- The product of two words, unless it takes more than 64 bits. -/
def mulWord? (a b : Nat) : Option Nat := if a * b < 2 ^ 64 then some (a * b) else none

def wordOf? (digits : List Char) : Option Nat :=
  digits.foldlM (fun n c => (mulWord? n 10).map (· + (c.toNat - 48))) 0

/-- An amount of a unit in words: hours and minutes are multiplied out to seconds. There may be no such unit. -/
def spanOf? (amount : Nat) : Char → Option (Option Duration)
  | 'H' => (mulWord? amount 3600).map fun seconds => some (.ofSeconds seconds)
  | 'M' => (mulWord? amount 60).map fun seconds => some (.ofSeconds seconds)
  | 'S' => some (some (.ofSeconds amount))
  | 'm' => some (some (.ofMillis amount))
  | 'u' => some (some (.ofMicros amount))
  | 'n' => some (some ⟨amount⟩)
  | _ => some none

/-- Reads a gRPC timeout with multiplications in words, unless one of them overflows. -/
def parseGrpcWords? (value : String) : Option (Except Status Duration) :=
  match value.toList.reverse with
  | [] => some (.error (invalid (header .grpc) value))
  | unit :: digits =>
    if (digits? 8 digits.reverse).isNone then some (.error (invalid (header .grpc) value))
    else do
      let amount ← wordOf? digits.reverse
      let span ← spanOf? amount unit
      return match span with
        | some span => .ok span
        | none => .error (invalid (header .grpc) value)

theorem mulWord?_eq_some {a b : Nat} (h : a * b < 2 ^ 64) : mulWord? a b = some (a * b) := if_pos h

/-- Digits are read without overflow as long as ten to their number leaves room for what was read before. -/
theorem foldlM_digits {digits : List Char} (hdigits : ∀ c ∈ digits, c.isDigit = true) {n : Nat}
    (hroom : (n + 1) * 10 ^ digits.length ≤ 2 ^ 64) :
    digits.foldlM (fun n c => (mulWord? n 10).map (· + (c.toNat - 48))) n =
        some (digits.foldl (fun n c => n * 10 + (c.toNat - 48)) n) ∧
      digits.foldl (fun n c => n * 10 + (c.toNat - 48)) n < (n + 1) * 10 ^ digits.length := by
  induction digits generalizing n with
  | nil => simp
  | cons c digits ih =>
    obtain ⟨hfirst, hrest⟩ := List.forall_mem_cons.1 hdigits
    have hnine := (isDigit_iff_toNat.1 hfirst).2
    have hpow : 0 < 10 ^ digits.length := Nat.pow_pos (by decide)
    rw [List.length_cons, Nat.pow_succ'] at hroom ⊢
    -- the number that has been read by now, one more digit and all
    have hnext : (n * 10 + (c.toNat - 48) + 1) * 10 ^ digits.length ≤ (n + 1) * (10 * 10 ^ digits.length) := by
      rw [← Nat.mul_assoc]
      exact Nat.mul_le_mul_right _ (by omega)
    have hword : n * 10 < 2 ^ 64 := by
      calc n * 10 < (n + 1) * 10 := by omega
        _ ≤ (n + 1) * (10 * 10 ^ digits.length) := Nat.mul_le_mul_left _ (Nat.le_mul_of_pos_right 10 hpow)
        _ ≤ 2 ^ 64 := hroom
    obtain ⟨hread, hlt⟩ := ih hrest (Nat.le_trans hnext hroom)
    rw [List.foldlM_cons, mulWord?_eq_some hword]
    exact ⟨hread, Nat.lt_of_lt_of_le hlt hnext⟩

theorem digits?_eq_some {most n : Nat} {digits : List Char} (h : digits? most digits = some n) :
    digits.length ≤ most ∧ (∀ c ∈ digits, c.isDigit = true) ∧
      digits.foldl (fun n c => n * 10 + (c.toNat - 48)) 0 = n := by
  simp only [digits?, Option.ite_none_left_eq_some, Bool.or_eq_true, decide_eq_true_eq, Bool.not_eq_true',
    not_or, Bool.not_eq_false, List.all_eq_true, Option.some.injEq] at h
  exact ⟨Nat.not_lt.1 h.1.1.2, h.1.2, h.2⟩

theorem wordOf?_digits {amount : Nat} {digits : List Char} (h : digits? 8 digits = some amount) :
    wordOf? digits = some amount ∧ amount ≤ maxAmount := by
  obtain ⟨hlength, hdigits, rfl⟩ := digits?_eq_some h
  have hpow : 10 ^ digits.length ≤ 10 ^ 8 := Nat.pow_le_pow_right (by decide) hlength
  obtain ⟨hword, hlt⟩ := @foldlM_digits digits hdigits 0 (by omega)
  refine ⟨hword, ?_⟩
  rw [maxAmount]
  omega

theorem spanOf?_eq {amount : Nat} (h : amount ≤ maxAmount) (unit : Char) :
    spanOf? amount unit = some ((unitNanos? unit).map fun nanos => ⟨amount * nanos⟩) := by
  rw [maxAmount] at h
  have hhours : mulWord? amount 3600 = some (amount * 3600) := mulWord?_eq_some (by omega)
  have hminutes : mulWord? amount 60 = some (amount * 60) := mulWord?_eq_some (by omega)
  unfold spanOf? unitNanos?
  split <;> simp [hhours, hminutes, Duration.ofSeconds, Duration.ofMillis, Duration.ofMicros, Nat.mul_assoc]

theorem parseGrpcWords?_eq (value : String) : parseGrpcWords? value = some (parseGrpc value) := by
  unfold parseGrpcWords? parseGrpc
  cases value.toList.reverse with
  | nil => rfl
  | cons unit digits =>
    cases hdigits : digits? 8 digits.reverse with
    | none => simp [hdigits]
    | some amount =>
      obtain ⟨hword, hle⟩ := wordOf?_digits hdigits
      simp only [hdigits, hword, Option.isNone_some, Bool.false_eq_true, if_false, Option.bind_eq_bind,
        Option.bind_some, spanOf?_eq hle]
      cases unitNanos? unit <;> rfl

/-! ### What is read back -/

/-- What is read from a gRPC timeout is what the timeout was rounded up to. -/
theorem grpc_reading (timeout : Duration) :
    ∃ span : Duration, parseGrpc (formatGrpc timeout) = .ok span ∧
      ∃ amount unit nanos, formatGrpc timeout = render amount ++ String.singleton unit ∧
        Covers (min timeout.nanos longest) amount unit nanos ∧ span = ⟨amount * nanos⟩ := by
  obtain ⟨amount, unit, nanos, hform, hcovers⟩ := formatGrpc_covers timeout
  exact ⟨⟨amount * nanos⟩, hform ▸ parseGrpc_render hcovers.fits hcovers.worth,
    amount, unit, nanos, hform, hcovers, rfl⟩

/-- Every timeout is understood by a gRPC server. One that can be written is rounded up, by less than one of the finest
unit that holds it, so that eight digits of nanoseconds are kept as they are; one that is longer is cut down. What is read
grows with the timeout, and is written again as it was. Words are wide enough to read it. -/
theorem grpc_roundsUp :
    ∃ read : Duration → Duration,
      (∀ timeout, parseGrpc (formatGrpc timeout) = .ok (read timeout)) ∧
      (∀ timeout, timeout.nanos ≤ longest →
        ∃ amount unit nanos, formatGrpc timeout = render amount ++ String.singleton unit ∧
          read timeout = ⟨amount * nanos⟩ ∧ Covers timeout.nanos amount unit nanos) ∧
      (∀ timeout, timeout.nanos ≤ maxAmount → read timeout = timeout) ∧
      (∀ timeout, longest < timeout.nanos → read timeout = ⟨longest⟩) ∧
      (∀ timeout later, timeout.nanos ≤ later.nanos → (read timeout).nanos ≤ (read later).nanos) ∧
      (∀ timeout, formatGrpc (read timeout) = formatGrpc timeout) ∧
      ∀ value, parseGrpcWords? value = some (parseGrpc value) := by
  obtain ⟨read, hread⟩ := Classical.axiomOfChoice grpc_reading
  refine ⟨read, fun timeout => (hread timeout).1, ?written, ?kept, ?cut, ?grows, ?again, parseGrpcWords?_eq⟩
  case written =>
    intro timeout hle
    obtain ⟨-, amount, unit, nanos, hform, hcovers, hspan⟩ := hread timeout
    exact ⟨amount, unit, nanos, hform, hspan, Nat.min_eq_left hle ▸ hcovers⟩
  case kept =>
    intro timeout hle
    obtain ⟨-, amount, unit, nanos, -, hcovers, hspan⟩ := hread timeout
    have hshort : timeout.nanos ≤ longest := Nat.le_trans hle (by decide)
    rw [Nat.min_eq_left hshort] at hcovers
    rw [hspan, hcovers.span_unique (covers_nanos hle), Nat.mul_one]
  case cut =>
    intro timeout hlt
    obtain ⟨-, amount, unit, nanos, -, hcovers, hspan⟩ := hread timeout
    rw [Nat.min_eq_right (Nat.le_of_lt hlt)] at hcovers
    rw [hspan, hcovers.span_unique covers_longest, longest]
  case grows =>
    intro timeout later hle
    obtain ⟨-, amount, unit, nanos, -, hcovers, hspan⟩ := hread timeout
    obtain ⟨-, amount', unit', nanos', -, hcovers', hspan'⟩ := hread later
    rw [hspan, hspan']
    exact hcovers.mono hcovers' (by omega)
  case again =>
    intro timeout
    obtain ⟨-, amount, unit, nanos, hform, hcovers, hspan⟩ := hread timeout
    rw [hspan, hform]
    exact formatGrpc_of_covers hcovers.rounded

/-- A nanosecond more than eight digits of seconds hold. -/
theorem grpc_roundsUp_pastSeconds :
    99999999000000001 ≤ longest ∧
      ∃ span amount unit nanos, parseGrpc (formatGrpc ⟨99999999000000001⟩) = .ok span ∧ span = ⟨amount * nanos⟩ ∧
        Covers 99999999000000001 amount unit nanos := by
  obtain ⟨read, hparse, hwritten, -⟩ := grpc_roundsUp
  have hle : 99999999000000001 ≤ longest := by decide
  obtain ⟨amount, unit, nanos, -, hread, hcovers⟩ := hwritten ⟨99999999000000001⟩ hle
  exact ⟨hle, read ⟨99999999000000001⟩, amount, unit, nanos, hparse _, hread, hcovers⟩

/-! ### Connect -/

theorem connectMillis_of_pos {timeout : Duration} (hpos : 0 < timeout.nanos)
    (hle : timeout.nanos ≤ 9999999999 * 1000000) :
    connectMillis timeout = max 1 (timeout.nanos / 1000000) := by
  unfold connectMillis
  split <;> omega

/-- A Connect timeout that can be written is understood to within a millisecond. Less than a millisecond is rounded up,
anything else down, so that the timeout that is read is too short where milliseconds do not divide it. -/
theorem connect_rounds {timeout : Duration} (hpos : 0 < timeout.nanos)
    (hle : timeout.nanos ≤ 9999999999 * 1000000) :
    ∃ span : Duration, parseConnect (formatConnect timeout) = .ok (some span) ∧
      span.nanos < timeout.nanos + 1000000 ∧ timeout.nanos < span.nanos + 1000000 ∧
      (timeout.nanos ≤ span.nanos ↔ timeout.nanos < 1000000 ∨ 1000000 ∣ timeout.nanos) := by
  have hmillis := connectMillis_of_pos hpos hle
  have hnonzero : connectMillis timeout ≠ 0 := by omega
  refine ⟨.ofMillis (connectMillis timeout), by rw [parseConnect_formatConnect, if_neg hnonzero], ?_⟩
  simp only [Duration.ofMillis, hmillis]
  omega

theorem connect_rounds_sixty_seconds :
    ∃ span : Duration, parseConnect (formatConnect (.ofSeconds 60)) = .ok (some span) ∧
      span.nanos < 60000000000 + 1000000 ∧ 60000000000 < span.nanos + 1000000 ∧
      (60000000000 ≤ span.nanos ↔ 60000000000 < 1000000 ∨ 1000000 ∣ 60000000000) :=
  connect_rounds (by decide) (by decide)

/-- One and a half milliseconds are read back as one: the server gives up before its client. -/
theorem connect_shortens :
    ¬ ∃ span : Duration, parseConnect (formatConnect ⟨1500000⟩) = .ok (some span) ∧
      1500000 ≤ span.nanos ∧ span.nanos < 1500000 + 1000000 := by
  rintro ⟨span, hread, hreaches, -⟩
  have hone : parseConnect (formatConnect ⟨1500000⟩) = .ok (some (.ofMillis 1)) := by
    rw [parseConnect_formatConnect]
    rfl
  rw [hone] at hread
  cases hread
  exact absurd hreaches (by decide)

end RpcConformance.Timeout
