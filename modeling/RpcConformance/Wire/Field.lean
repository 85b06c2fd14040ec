import RpcConformance.Wire.Varint
/-!
Messages as runs of numbered fields. The fields of a byte string are read in order; numbers and byte
strings keep their value, other forms are only checked.
-/
namespace RpcConformance.Wire

/-- What a field holds, as far as the messages use it. -/
inductive Value
  | number (n : Nat)
  | bytes (bs : Bytes)
  | other
deriving DecidableEq, Repr

structure Field where
  number : Nat
  value : Value
deriving DecidableEq, Repr

inductive Form
  | varint
  | fixed64
  | delimited
  | groupStart
  | groupEnd
  | fixed32
deriving DecidableEq, Repr

def Form.number : Form → Nat
  | varint => 0
  | fixed64 => 1
  | delimited => 2
  | groupStart => 3
  | groupEnd => 4
  | fixed32 => 5

def Form.ofNumber? : Nat → Option Form
  | 0 => some varint
  | 1 => some fixed64
  | 2 => some delimited
  | 3 => some groupStart
  | 4 => some groupEnd
  | 5 => some fixed32
  | _ => none

def writeKey (number : Nat) (form : Form) : Bytes := writeVarint (number * 8 + form.number)

/-- Reads the key of a field: its number, never zero, and its form. -/
def readKey (bs : Bytes) : Option ((Nat × Form) × Bytes) := do
  let (key, rest) ← readVarint bs
  let form ← Form.ofNumber? (key % 8)
  if key < 0x100000000 ∧ key / 8 ≠ 0 then return ((key / 8, form), rest) else none

/-- The first `n` bytes and the rest, if there are that many; all of the bytes are not copied. -/
def splitExactly (n : Nat) (bs : Bytes) : Option (Bytes × Bytes) :=
  let length := bs.length
  if n = length then some (bs, [])
  else if n < length then some (bs.take n, bs.drop n)
  else none

def readDelimited (bs : Bytes) : Option (Bytes × Bytes) := do
  let (n, rest) ← readVarint bs
  splitExactly n rest

/-- Skips the fields of group `number` up to its end, groups nested at most `depth` deep, in at most
`fuel` fields. -/
def skipGroup : Nat → Nat → Nat → Bytes → Option Bytes
  | 0, _, _, _ => none
  | fuel + 1, depth, number, bs =>
    match readKey bs with
    | none => none
    | some ((inner, form), rest) =>
      if form = .groupEnd then (if inner = number then some rest else none)
      else if depth ≤ 1 then none
      else
        let rest? := match form with
          | .varint => (readVarint rest).map (·.2)
          | .fixed64 => (splitExactly 8 rest).map (·.2)
          | .delimited => (readDelimited rest).map (·.2)
          | .groupStart => skipGroup fuel (depth - 1) inner rest
          | .groupEnd => none
          | .fixed32 => (splitExactly 4 rest).map (·.2)
        match rest? with
        | some rest => skipGroup fuel depth number rest
        | none => none

def readValue (depth number : Nat) (form : Form) (bs : Bytes) : Option (Value × Bytes) :=
  match form with
  | .varint => (readVarint bs).map fun (n, rest) => (.number n, rest)
  | .fixed64 => (splitExactly 8 bs).map fun (_, rest) => (.other, rest)
  | .delimited => (readDelimited bs).map fun (body, rest) => (.bytes body, rest)
  | .groupStart => (skipGroup (bs.length + 1) depth number bs).map fun rest => (.other, rest)
  | .groupEnd => none
  | .fixed32 => (splitExactly 4 bs).map fun (_, rest) => (.other, rest)

/-- Reads fields to the end of the input, at most one for each byte of `budget`, onto those already
read (last first). -/
def readFields (depth : Nat) : Bytes → List Field → Bytes → Option (List Field)
  | _, fields, [] => some fields.reverse
  | [], _, _ => none
  | _ :: budget, fields, bs =>
    match readKey bs with
    | none => none
    | some ((number, form), rest) =>
      match readValue depth number form rest with
      | none => none
      | some (value, rest) => readFields depth budget (⟨number, value⟩ :: fields) rest

/-- The fields of a byte string: each takes a byte at least. -/
def fields? (depth : Nat) (bs : Bytes) : Option (List Field) := readFields depth bs [] bs

def maxDepth : Nat := 100

/-- A 32-bit number as the 64-bit word that is written for it. -/
def wordOf (n : Int32) : Nat := n.toInt64.toUInt64.toNat

/-- The field of a 32-bit number; zero is not written. -/
def int32Field (number : Nat) (n : Int32) : Bytes :=
  if n = 0 then [] else writeKey number .varint ++ writeVarint (wordOf n)

def delimitedField (number : Nat) (bs : Bytes) : Bytes :=
  writeKey number .delimited ++ writeVarint bs.length ++ bs

def bytesField (number : Nat) (bs : Bytes) : Bytes :=
  if bs.isEmpty then [] else delimitedField number bs

def textField (number : Nat) (s : String) : Bytes := bytesField number (Bytes.ofString s)

/-- The 32-bit number of a field: the low bits of what was sent. -/
def Value.int32? : Value → Option Int32
  | number n => some (Int32.ofNat n)
  | _ => none

def Value.bytes? : Value → Option Bytes
  | bytes bs => some bs
  | _ => none

def Value.text? (value : Value) : Option String := value.bytes?.bind Bytes.text?

end RpcConformance.Wire
