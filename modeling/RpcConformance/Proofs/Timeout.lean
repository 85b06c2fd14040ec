import Mathlib.Algebra.Ring.Nat
import RpcConformance.Proofs.Metadata.Values
import RpcConformance.Proofs.Text.Ascii
import RpcConformance.Timeout
/-!
Timeouts in request headers are written within the grammars that they are read by: Connect in milliseconds
(`parseConnect_formatConnect`), gRPC in some amount of a unit (`parseGrpc_formatGrpc`). So whatever the timeout, the
header that asks for it is understood (`ofHeaders_field`), and it asks for a timeout (`ofHeaders_insert_field`): only
over Connect is a zero timeout written as the number that stands for none.
-/
namespace RpcConformance

namespace HeaderMap

theorem asciiText?_ofString {s : String} (h : ∀ c ∈ s.toList, 0x20 ≤ c.toNat ∧ c.toNat ≤ 0x7e) :
    asciiText? (Bytes.ofString s) = some s := by
  have hbyte : ∀ n : Fin 0x7f, 0x20 ≤ (n : Nat) →
      (String.utf8EncodeChar (Char.ofNat n)).all (fun b => b == 0x09 || (0x20 ≤ b && b ≤ 0x7e)) = true := by
    decide +kernel
  have hall : (Bytes.ofString s).all (fun b => b == 0x09 || (0x20 ≤ b && b ≤ 0x7e)) = true := by
    rw [← String.ofList_toList (s := s), Bytes.ofString_ofList, List.all_flatMap, List.all_eq_true]
    intro c hc
    obtain ⟨hlow, hhigh⟩ := h c hc
    simpa only [Char.ofNat_toNat] using hbyte ⟨c.toNat, Nat.lt_succ_of_le hhigh⟩ hlow
  rw [asciiText?, if_pos hall, Bytes.text?_ofString]

end HeaderMap

namespace Timeout

open Text.Decimal

theorem foldl_digits (digits : List Char) (n : Nat) :
    digits.foldl (fun n c => n * 10 + (c.toNat - 48)) n = Nat.ofDigitChars 10 digits n := by
  simp only [Nat.ofDigitChars_eq_foldl, Nat.mul_comm]
  rfl

/-- A number of so many digits at most is read back from its digits. -/
theorem digits?_toDigits {most n : Nat} (hmost : 0 < most) (h : n < 10 ^ most) :
    digits? most (Nat.toDigits 10 n) = some n := by
  have hnonempty : (Nat.toDigits 10 n).isEmpty = false := by
    simp [List.isEmpty_eq_false_iff]
  have hlength : ¬ most < (Nat.toDigits 10 n).length :=
    Nat.not_lt.2 ((Nat.length_toDigits_le_iff (by decide) hmost).2 h)
  have hdigits : (Nat.toDigits 10 n).all Char.isDigit = true :=
    List.all_eq_true.2 fun _ hc => Nat.isDigit_of_mem_toDigits (by decide) (by decide) hc
  have hvalue : (Nat.toDigits 10 n).foldl (fun n c => n * 10 + (c.toNat - 48)) 0 = n := by
    rw [foldl_digits, Nat.ofDigitChars_ten_toDigits]
  simp [digits?, hnonempty, hlength, hdigits, hvalue]

theorem toList_render (n : Nat) : (render n).toList = Nat.toDigits 10 n := String.toList_ofList

theorem printable_of_mem_toDigits {n : Nat} {c : Char} (h : c ∈ Nat.toDigits 10 n) :
    0x20 ≤ c.toNat ∧ c.toNat ≤ 0x7e := by
  have hdigit := isDigit_iff_toNat.1 (Nat.isDigit_of_mem_toDigits (by decide) (by decide) h)
  omega

/-- How many milliseconds a Connect timeout is written as. -/
def connectMillis (timeout : Duration) : Nat :=
  min (if timeout.nanos / 1000000 = 0 ∧ timeout.nanos ≠ 0 then 1 else timeout.nanos / 1000000) 9999999999

theorem formatConnect_eq (timeout : Duration) : formatConnect timeout = render (connectMillis timeout) := rfl

theorem parseConnect_formatConnect (timeout : Duration) :
    parseConnect (formatConnect timeout) =
      .ok (if connectMillis timeout = 0 then none else some (.ofMillis (connectMillis timeout))) := by
  have hbound : connectMillis timeout < 10 ^ 10 := Nat.lt_of_le_of_lt (Nat.min_le_right _ _) (by decide)
  rw [parseConnect, formatConnect_eq, toList_render, digits?_toDigits (by decide) hbound]
  cases connectMillis timeout <;> rfl

theorem parseGrpc_render {amount nanos : Nat} {unit : Char} (hamount : amount ≤ maxAmount)
    (hunit : unitNanos? unit = some nanos) :
    parseGrpc (render amount ++ String.singleton unit) = .ok ⟨amount * nanos⟩ := by
  have hreverse : (render amount ++ String.singleton unit).toList.reverse =
      unit :: (Nat.toDigits 10 amount).reverse := by
    simp [toList_render]
  have hbound : amount < 10 ^ 8 := Nat.lt_of_le_of_lt hamount (by decide)
  rw [parseGrpc, hreverse]
  simp only [List.reverse_reverse, digits?_toDigits (by decide) hbound, hunit]

/-- The amount of a unit that a timeout is rounded up to, if eight digits can hold it. -/
def rounded? (timeout : Duration) (unit : Char) : Option (Nat × Char) := do
  let amount := amountIn (← unitNanos? unit) timeout.nanos
  if amount ≤ maxAmount then some (amount, unit) else none

theorem rounded?_eq_some {timeout : Duration} {unit : Char} {choice : Nat × Char}
    (h : rounded? timeout unit = some choice) :
    ∃ nanos, unitNanos? unit = some nanos ∧ amountIn nanos timeout.nanos ≤ maxAmount ∧
      choice = (amountIn nanos timeout.nanos, unit) := by
  obtain ⟨nanos, hnanos, hchoice⟩ := Option.bind_eq_some_iff.1 h
  simp only [Option.ite_none_right_eq_some, Option.some.injEq] at hchoice
  exact ⟨nanos, hnanos, hchoice.1, hchoice.2.symm⟩

theorem formatGrpc_eq_findSome? (timeout : Duration) :
    formatGrpc timeout = render ((units.findSome? (rounded? timeout)).getD (maxAmount, 'H')).1 ++
      String.singleton ((units.findSome? (rounded? timeout)).getD (maxAmount, 'H')).2 := by
  rw [← List.head?_filterMap]
  rfl

/-- A gRPC timeout is written as an amount of a unit that eight digits can hold. -/
theorem formatGrpc_eq (timeout : Duration) :
    ∃ amount unit nanos, formatGrpc timeout = render amount ++ String.singleton unit ∧ amount ≤ maxAmount ∧
      unitNanos? unit = some nanos := by
  rw [formatGrpc_eq_findSome?]
  cases hchoice : units.findSome? (rounded? timeout) with
  | none => exact ⟨maxAmount, 'H', _, rfl, Nat.le_refl _, rfl⟩
  | some choice =>
    obtain ⟨unit, -, hrounded⟩ := List.exists_of_findSome?_eq_some hchoice
    obtain ⟨nanos, hnanos, hfits, rfl⟩ := rounded?_eq_some hrounded
    exact ⟨_, unit, nanos, rfl, hfits, hnanos⟩

theorem parseGrpc_formatGrpc (timeout : Duration) : ∃ span, parseGrpc (formatGrpc timeout) = .ok span := by
  obtain ⟨amount, unit, nanos, hform, hamount, hunit⟩ := formatGrpc_eq timeout
  exact ⟨_, hform ▸ parseGrpc_render hamount hunit⟩

def unitTable : List (Char × Nat) :=
  [('n', 1), ('u', 1000), ('m', 1000000), ('S', 1000000000), ('M', 60000000000), ('H', 3600000000000)]

theorem mem_unitTable {unit : Char} {nanos : Nat} (h : unitNanos? unit = some nanos) : (unit, nanos) ∈ unitTable := by
  unfold unitNanos? at h
  split at h <;> simp_all [unitTable]

theorem printable_unit {unit : Char} {nanos : Nat} (h : unitNanos? unit = some nanos) :
    0x20 ≤ unit.toNat ∧ unit.toNat ≤ 0x7e := by
  have hall : ∀ entry ∈ unitTable, 0x20 ≤ entry.1.toNat ∧ entry.1.toNat ≤ 0x7e := by decide
  exact hall _ (mem_unitTable h)

theorem asciiText?_field (protocol : Protocol) (timeout : Duration) :
    HeaderMap.asciiText? (Bytes.ofString (field protocol timeout).2) = some (field protocol timeout).2 := by
  have hconnect : HeaderMap.asciiText? (Bytes.ofString (formatConnect timeout)) = some (formatConnect timeout) := by
    refine HeaderMap.asciiText?_ofString fun c hc => printable_of_mem_toDigits (n := connectMillis timeout) ?_
    rwa [formatConnect_eq, toList_render] at hc
  have hgrpc : HeaderMap.asciiText? (Bytes.ofString (formatGrpc timeout)) = some (formatGrpc timeout) := by
    obtain ⟨amount, unit, nanos, hform, -, hunit⟩ := formatGrpc_eq timeout
    rw [hform]
    refine HeaderMap.asciiText?_ofString fun c hc => ?_
    rw [String.toList_append, List.mem_append, toList_render, String.toList_singleton, List.mem_singleton] at hc
    rcases hc with hc | rfl
    · exact printable_of_mem_toDigits hc
    · exact printable_unit hunit
  cases protocol with
  | connect => exact hconnect
  | grpc | grpcWeb => exact hgrpc

theorem ofHeaders_congr {headers other : HeaderMap} {protocol : Protocol}
    (h : headers.get? (header protocol) = other.get? (header protocol)) :
    ofHeaders headers protocol = ofHeaders other protocol := by
  simp only [ofHeaders, h]

theorem ofHeaders_field {headers : HeaderMap} {protocol : Protocol} {timeout : Option Duration}
    (h : headers.getAll (header protocol) =
      (timeout.map fun span => Bytes.ofString (field protocol span).2).toList) :
    ∃ read, ofHeaders headers protocol = .ok read := by
  rw [ofHeaders, HeaderMap.get?, h]
  cases timeout with
  | none => exact ⟨none, rfl⟩
  | some span =>
    simp only [Option.map_some, Option.toList_some, List.head?_cons, asciiText?_field]
    cases protocol with
    | connect => exact ⟨_, parseConnect_formatConnect span⟩
    | grpc | grpcWeb =>
      obtain ⟨read, hread⟩ := parseGrpc_formatGrpc span
      exact ⟨some read, congrArg (Except.map some) hread⟩

/-- Milliseconds are rounded so that only a zero timeout comes to zero of them. -/
theorem connectMillis_eq_zero_iff (timeout : Duration) : connectMillis timeout = 0 ↔ timeout = ⟨0⟩ := by
  have hzero : connectMillis timeout = 0 ↔ timeout.nanos = 0 := by
    unfold connectMillis
    split <;> omega
  rw [hzero, Duration.mk.injEq]

/-- A timeout set among the headers of a request is read from them, and it is lost only where it is zero and the
protocol is Connect: there the number zero stands for no timeout. -/
theorem ofHeaders_insert_field (headers : HeaderMap) (protocol : Protocol) (timeout : Duration) :
    ∃ read, ofHeaders (headers.insert (field protocol timeout).1 (Bytes.ofString (field protocol timeout).2)) protocol =
        .ok read ∧
      (read = none ↔ protocol = .connect ∧ timeout = ⟨0⟩) := by
  have hname : header protocol = (field protocol timeout).1 := by cases protocol <;> rfl
  have hget : (headers.insert (field protocol timeout).1 (Bytes.ofString (field protocol timeout).2)).get?
      (header protocol) = some (Bytes.ofString (field protocol timeout).2) := by
    rw [HeaderMap.get?, hname, HeaderMap.getAll_insert_self, List.head?_cons]
  simp only [ofHeaders, hget, asciiText?_field]
  cases protocol with
  | connect =>
    refine ⟨_, parseConnect_formatConnect timeout, ?_⟩
    by_cases hzero : connectMillis timeout = 0 <;> simp [hzero, ← connectMillis_eq_zero_iff]
  | grpc | grpcWeb =>
    obtain ⟨span, hspan⟩ := parseGrpc_formatGrpc timeout
    exact ⟨some span, congrArg (Except.map some) hspan, by simp⟩

/-- A call bounded by a zero timeout is unbounded for a server that reads its Connect request. -/
theorem zero_unbounded_over_connect :
    ofHeaders (HeaderMap.empty.insert (field .connect ⟨0⟩).1 (Bytes.ofString (field .connect ⟨0⟩).2)) .connect =
      .ok none := by
  rfl

end Timeout
end RpcConformance
