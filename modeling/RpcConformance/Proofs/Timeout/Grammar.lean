import Mathlib.Data.List.Induction
import RpcConformance.Call.Context
import RpcConformance.Proofs.Text.Ascii
import RpcConformance.Proofs.Timeout.Rounding
/-!
The grammar of timeouts in request headers. A timeout is read in steps over the bytes of its text: the bytes of the last
character are cut off, the number of those before it is bounded, and only ASCII digits go on to the reading of numbers,
which knows signs and limits of its own. No step can fail (`grpcSteps?_eq`, `connectSteps_eq`), and what is read is what
the digits and the unit spell (`parse_iff_spells`).
-/
namespace RpcConformance.Timeout

/-! ### Numerals -/

/-- A number as its digits spell it, at least one and at most so many. -/
structure Spells (most : Nat) (digits : List Char) (n : Nat) : Prop where
  nonempty : digits ≠ []
  short : digits.length ≤ most
  digit : ∀ c ∈ digits, '0' ≤ c ∧ c ≤ '9'
  value : n = Nat.ofDigitChars 10 digits 0

theorem digits?_eq_some_iff {most n : Nat} {digits : List Char} :
    digits? most digits = some n ↔ Spells most digits n := by
  have hdigit (c : Char) : c.isDigit = true ↔ '0' ≤ c ∧ c ≤ '9' := by
    simp [Char.isDigit, Char.le_def]
  rw [digits?, foldl_digits]
  simp only [Option.ite_none_left_eq_some, Bool.or_eq_true, decide_eq_true_eq, Bool.not_eq_true', not_or,
    Bool.not_eq_false, List.all_eq_true, Option.some.injEq, List.isEmpty_iff, Nat.not_lt, hdigit]
  constructor
  · rintro ⟨⟨⟨hne, hlength⟩, hall⟩, hvalue⟩
    exact ⟨hne, hlength, hall, hvalue.symm⟩
  · intro h
    exact ⟨⟨⟨h.nonempty, h.short⟩, h.digit⟩, h.value.symm⟩

/-! ### Steps -/

open Text.Decimal

/-- The number in a text of at most so many bytes, all of them digits, as a word. -/
def number? (most : Nat) (text : Bytes) : Option Nat :=
  if text.isEmpty || text.length > most || !text.all Bytes.isDigit then none
  else (natUpTo (2 ^ 64 - 1) text).toOption

def upTo? (place : Nat) (text : String) : Option String :=
  if place ≤ (Bytes.ofString text).length then Bytes.text? ((Bytes.ofString text).take place) else none

/-- The difference of two words, unless it is negative. -/
def subWord? (a b : Nat) : Option Nat := if b ≤ a then some (a - b) else none

/-- Reads a gRPC timeout step by step, unless a step fails: the last character, the place where its bytes start, the
text before it, the number in that, and the span. -/
def grpcSteps? (value : String) : Option (Except Status Duration) :=
  match value.toList.getLast? with
  | none => some (.error (invalid (header .grpc) value))
  | some unit => do
    let place ← subWord? (Bytes.ofString value).length unit.utf8Size
    let digits ← upTo? place value
    match number? 8 (Bytes.ofString digits) with
    | none => some (.error (invalid (header .grpc) value))
    | some amount =>
      match ← spanOf? amount unit with
      | none => some (.error (invalid (header .grpc) value))
      | some span => some (.ok span)

def connectSteps (value : String) : Except Status (Option Duration) :=
  match number? 10 (Bytes.ofString value) with
  | none => .error (invalid (header .connect) value)
  | some millis => .ok (if millis ≠ 0 then some (.ofMillis millis) else none)

theorem le_foldl_digits (digits : List Char) (n : Nat) :
    n ≤ digits.foldl (fun n c => n * 10 + (c.toNat - 48)) n := by
  induction digits generalizing n with
  | nil => exact Nat.le_refl n
  | cons c digits ih =>
    have hnext := ih (n * 10 + (c.toNat - 48))
    rw [List.foldl_cons]
    omega

theorem magnitude_digits {digits : List Char} (hdigits : ∀ c ∈ digits, c.isDigit = true) {bound n : Nat}
    (hbound : digits.foldl (fun n c => n * 10 + (c.toNat - 48)) n ≤ bound) :
    magnitude bound .tooLarge n (digits.map Bytes.ofDigit) =
      .ok (digits.foldl (fun n c => n * 10 + (c.toNat - 48)) n) := by
  induction digits generalizing n with
  | nil => rfl
  | cons c digits ih =>
    obtain ⟨hfirst, hrest⟩ := List.forall_mem_cons.1 hdigits
    obtain ⟨-, hbyte, hvalue, -⟩ := Bytes.ofDigit_spec hfirst
    have hnext := Nat.le_trans (le_foldl_digits digits (n * 10 + (c.toNat - 48))) hbound
    rw [List.map_cons, magnitude, if_pos hbyte, hvalue]
    simp only [if_pos hnext]
    exact ih hrest hbound

/-- Neither a sign nor a limit is met where there are only digits, and not too many. -/
theorem natUpTo_digits {digits : List Char} (hne : digits ≠ []) (hlength : 10 ^ digits.length ≤ 2 ^ 64)
    (hdigits : ∀ c ∈ digits, c.isDigit = true) :
    natUpTo (2 ^ 64 - 1) (digits.map Bytes.ofDigit) = .ok (digits.foldl (fun n c => n * 10 + (c.toNat - 48)) 0) := by
  have hlt := (@foldlM_digits digits hdigits 0 (by omega)).2
  have hmagnitude := @magnitude_digits digits hdigits (2 ^ 64 - 1) 0 (by omega)
  obtain ⟨c, digits, rfl⟩ := List.exists_cons_of_ne_nil hne
  have hplus := (Bytes.ofDigit_spec (hdigits c List.mem_cons_self)).2.2.2
  rw [← hmagnitude, List.map_cons, natUpTo] <;> simp [hplus]

theorem number?_eq {most : Nat} (hmost : 10 ^ most ≤ 2 ^ 64) (s : String) :
    number? most (Bytes.ofString s) = digits? most s.toList := by
  rw [← String.ofList_toList (s := s), String.toList_ofList, number?, digits?, Bytes.all_isDigit_ofString]
  by_cases hall : s.toList.all Char.isDigit = true
  · have hdigits := List.all_eq_true.1 hall
    simp only [Bytes.ofString_digits hdigits, List.isEmpty_map, List.length_map]
    split
    · rfl
    · rename_i hguard
      simp only [Bool.or_eq_true, not_or, decide_eq_true_eq, List.isEmpty_iff, Nat.not_lt] at hguard
      have hpow := Nat.le_trans (Nat.pow_le_pow_right (by decide) hguard.1.2) hmost
      rw [natUpTo_digits hguard.1.1 hpow hdigits]
      rfl
  · simp [hall]

theorem upTo?_concat (chars : List Char) (last : Char) :
    ∃ place, subWord? (Bytes.ofString (String.ofList (chars ++ [last]))).length last.utf8Size = some place ∧
      upTo? place (String.ofList (chars ++ [last])) = some (String.ofList chars) := by
  have hbytes : Bytes.ofString (String.ofList (chars ++ [last])) =
      Bytes.ofString (String.ofList chars) ++ String.utf8EncodeChar last := by
    rw [Bytes.ofString_ofList, Bytes.ofString_ofList, List.flatMap_append, List.flatMap_singleton]
  refine ⟨(Bytes.ofString (String.ofList chars)).length, ?_, ?_⟩
  · rw [subWord?, hbytes]
    simp
  · rw [upTo?, hbytes]
    simp

theorem grpcSteps?_eq (value : String) : grpcSteps? value = some (parseGrpc value) := by
  rw [← String.ofList_toList (s := value)]
  generalize value.toList = chars
  induction chars using List.reverseRecOn with
  | nil => rfl
  | append_singleton digits unit _ =>
    obtain ⟨place, hplace, hdigits⟩ := upTo?_concat digits unit
    simp only [grpcSteps?, parseGrpc, String.toList_ofList, List.getLast?_concat, List.reverse_concat, hplace, hdigits,
      Option.bind_eq_bind, Option.bind_some, number?_eq (by decide : 10 ^ 8 ≤ 2 ^ 64), String.toList_ofList,
      List.reverse_reverse]
    cases hamount : digits? 8 digits with
    | none => rfl
    | some amount =>
      simp only [spanOf?_eq (wordOf?_digits hamount).2, Option.bind_some]
      cases unitNanos? unit <;> rfl

theorem connectSteps_eq (value : String) : connectSteps value = parseConnect value := by
  rw [connectSteps, parseConnect, number?_eq (by decide)]
  obtain _ | _ | millis := digits? 10 value.toList <;> rfl

/-! ### The grammar -/

theorem unitNanos?_eq_some_iff {unit : Char} {nanos : Nat} :
    unitNanos? unit = some nanos ↔ (unit, nanos) ∈ unitTable := by
  refine ⟨mem_unitTable, fun h => ?_⟩
  have hall : ∀ entry ∈ unitTable, unitNanos? entry.1 = some entry.2 := by decide
  exact hall _ h

theorem parseGrpc_eq_ok_iff {value : String} {span : Duration} :
    parseGrpc value = .ok span ↔ ∃ digits n unit nanos, value.toList = digits ++ [unit] ∧ Spells 8 digits n ∧
      (unit, nanos) ∈ unitTable ∧ span = ⟨n * nanos⟩ := by
  simp only [← digits?_eq_some_iff, ← unitNanos?_eq_some_iff]
  unfold parseGrpc
  constructor
  · intro h
    split at h
    · cases h
    · rename_i unit digits hvalue
      split at h
      · rename_i n nanos hdigits hunit
        cases h
        exact ⟨digits.reverse, n, unit, nanos, by simpa using congrArg List.reverse hvalue, hdigits, hunit, rfl⟩
      · cases h
  · rintro ⟨digits, n, unit, nanos, hvalue, hdigits, hunit, rfl⟩
    simp [hvalue, hdigits, hunit]

theorem parseConnect_eq_ok_iff {value : String} {timeout : Option Duration} :
    parseConnect value = .ok timeout ↔
      ∃ n, Spells 10 value.toList n ∧ timeout = if n = 0 then none else some (.ofMillis n) := by
  simp only [← digits?_eq_some_iff, ← connectSteps_eq, connectSteps]
  rw [number?_eq (by decide)]
  cases digits? 10 value.toList <;> simp [eq_comm]

theorem Spells.lt {most n : Nat} {digits : List Char} (h : Spells most digits n) (hmost : most ≤ 10) :
    n < 10 ^ 10 := by
  obtain ⟨hlength, hdigits, rfl⟩ := digits?_eq_some (digits?_eq_some_iff.2 h)
  have hpow : 10 ^ digits.length ≤ 10 ^ 10 := Nat.pow_le_pow_right (by decide) (Nat.le_trans hlength hmost)
  have hlt := (@foldlM_digits digits hdigits 0 (by omega)).2
  omega

/-- The clock can tell the deadline of every timeout that a header asks for. -/
theorem isTold_of_ofHeaders {headers : HeaderMap} {protocol : Protocol} {timeout : Option Duration}
    (h : ofHeaders headers protocol = .ok timeout) : Context.isTold timeout 0 = true := by
  have hspan {n nanos : Nat} (hn : n < 10 ^ 10) (hnanos : nanos ≤ hourNanos) :
      Context.isTold (some ⟨n * nanos⟩) 0 = true := by
    have hend : 10 ^ 10 * hourNanos < Context.clockEnd := by decide
    rw [Context.isTold, decide_eq_true_iff, Nat.zero_mul, Nat.zero_add]
    exact Nat.lt_of_le_of_lt (Nat.mul_le_mul (Nat.le_of_lt hn) hnanos) hend
  have hgrpc {text : String} (hread : (parseGrpc text).map some = .ok timeout) : Context.isTold timeout 0 = true := by
    cases hparse : parseGrpc text with
    | error status =>
      rw [hparse] at hread
      cases hread
    | ok span =>
      rw [hparse] at hread
      cases hread
      obtain ⟨digits, n, unit, nanos, -, hspells, hunit, rfl⟩ := parseGrpc_eq_ok_iff.1 hparse
      exact hspan (hspells.lt (by decide)) (unitNanos?_le_hour (unitNanos?_eq_some_iff.2 hunit))
  unfold ofHeaders at h
  split at h
  · cases h
    rfl
  · split at h
    · cases h
    · split at h
      · obtain ⟨n, hspells, rfl⟩ := parseConnect_eq_ok_iff.1 h
        split
        · rfl
        · exact hspan (hspells.lt (Nat.le_refl 10)) (by decide)
      · exact hgrpc h
      · exact hgrpc h

theorem parseGrpc_error {value : String} {status : Status} (h : parseGrpc value = .error status) :
    status = invalid (header .grpc) value := by
  unfold parseGrpc at h
  split at h
  · cases h
    rfl
  · split at h
    · cases h
    · cases h
      rfl

theorem parseConnect_error {value : String} {status : Status} (h : parseConnect value = .error status) :
    status = invalid (header .connect) value := by
  unfold parseConnect at h
  split at h
  · cases h
  · cases h
  · cases h
    rfl

/-- A gRPC timeout is one to eight digits and a unit, and a Connect timeout is one to ten digits of milliseconds, none
if they are zero. Any other text is an invalid argument, and no step of the reading fails on any text. -/
theorem parse_iff_spells (value : String) :
    (∀ span, parseGrpc value = .ok span ↔ ∃ digits n unit nanos, value.toList = digits ++ [unit] ∧ Spells 8 digits n ∧
      (unit, nanos) ∈ unitTable ∧ span = ⟨n * nanos⟩) ∧
    (∀ timeout, parseConnect value = .ok timeout ↔
      ∃ n, Spells 10 value.toList n ∧ timeout = if n = 0 then none else some (.ofMillis n)) ∧
    (∀ status, parseGrpc value = .error status ∨ parseConnect value = .error status →
      status.code = .invalidArgument) ∧
    grpcSteps? value = some (parseGrpc value) ∧ connectSteps value = parseConnect value := by
  refine ⟨fun span => parseGrpc_eq_ok_iff, fun timeout => parseConnect_eq_ok_iff, ?_, grpcSteps?_eq value,
    connectSteps_eq value⟩
  rintro status (h | h)
  · rw [parseGrpc_error h]
    rfl
  · rw [parseConnect_error h]
    rfl

end RpcConformance.Timeout
