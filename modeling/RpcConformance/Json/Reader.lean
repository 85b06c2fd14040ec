import RpcConformance.Json.Basic
/-!
Reading JSON documents. The grammar is checked in full; what strings and numbers stand for is left
to whoever asks for it, and `isReadable` says when every part of a document can be asked.
-/
namespace RpcConformance.Json

def isBlank (b : UInt8) : Bool := b == 0x20 || b == 0x0a || b == 0x09 || b == 0x0d

def skipBlank (bs : Bytes) : Bytes := bs.dropWhile isBlank

/-- How many bytes an escape takes, read after its backslash. -/
def escapeLength? (bs : Bytes) : Option Nat :=
  match codeUnit? bs with
  | some _ => some 5
  | none =>
    match bs with
    | e :: _ => (simpleEscape? e).map fun _ => 1
    | [] => none

/-- Reads the rest of a string up to its closing quote; gives what stands before the quote, onto
what was read already (last first), and what follows it. -/
def readString (read : Bytes) : Bytes → Option (Bytes × Bytes)
  | [] => none
  | b :: rest =>
    if b == 0x22 then some (read.reverse, rest)
    else if b == 0x5c then
      match escapeLength? rest with
      | some taken => readString ((rest.take taken).reverse ++ b :: read) (rest.drop taken)
      | none => none
    else if b < 0x20 then none
    else readString (b :: read) rest
termination_by bs => bs.length
decreasing_by all_goals simp; try omega

/-- The digits at the head of the input, of which there must be one, and the rest. -/
def readDigits (bs : Bytes) : Option (Bytes × Bytes) :=
  let digits := bs.takeWhile Bytes.isDigit
  if digits.isEmpty then none else some (digits, bs.dropWhile Bytes.isDigit)

/-- The integer part of a number: no leading zero. -/
def readWhole (bs : Bytes) : Option (Bytes × Bytes) := do
  let (digits, rest) ← readDigits bs
  if digits.head? == some 0x30 && digits.length > 1 then none else some (digits, rest)

def readFraction : Bytes → Option (Bytes × Bytes)
  | 0x2e :: rest => (readDigits rest).map fun (digits, rest) => (0x2e :: digits, rest)
  | bs => some ([], bs)

def readExponent : Bytes → Option (Bytes × Bytes)
  | e :: rest =>
    if e == 0x65 || e == 0x45 then
      match rest with
      | s :: rest' =>
        if s == 0x2b || s == 0x2d then
          (readDigits rest').map fun (digits, rest) => (e :: s :: digits, rest)
        else (readDigits rest).map fun (digits, rest) => (e :: digits, rest)
      | [] => none
    else some ([], e :: rest)
  | [] => some ([], [])

/-- A number without its sign. -/
def readMagnitude (bs : Bytes) : Option (Bytes × Bytes) := do
  let (whole, rest) ← readWhole bs
  let (fraction, rest) ← readFraction rest
  let (exponent, rest) ← readExponent rest
  return (whole ++ fraction ++ exponent, rest)

def readNumber : Bytes → Option (Bytes × Bytes)
  | 0x2d :: rest => (readMagnitude rest).map fun (spelling, rest) => (0x2d :: spelling, rest)
  | bs => readMagnitude bs

def afterWord (word bs : Bytes) : Option Bytes :=
  if word.isPrefixOf bs then some (bs.drop word.length) else none

mutual

/-- Reads one document, in at most `fuel` nested steps. -/
def readValue : Nat → Bytes → Option (Json × Bytes)
  | 0, _ => none
  | fuel + 1, bs =>
    match skipBlank bs with
    | [] => none
    | b :: rest =>
      if b == 0x22 then (readString [] rest).map fun (spelling, rest) => (.string spelling, rest)
      else if b == 0x5b then
        match skipBlank rest with
        | 0x5d :: rest' => some (.array [], rest')
        | _ => readItems fuel [] rest
      else if b == 0x7b then
        match skipBlank rest with
        | 0x7d :: rest' => some (.object [], rest')
        | _ => readMembers fuel [] rest
      else if b == 0x6e then (afterWord (Bytes.ofString "ull") rest).map (Json.null, ·)
      else if b == 0x74 then (afterWord (Bytes.ofString "rue") rest).map (Json.bool true, ·)
      else if b == 0x66 then (afterWord (Bytes.ofString "alse") rest).map (Json.bool false, ·)
      else (readNumber (b :: rest)).map fun (spelling, rest) => (.number spelling, rest)

/-- Reads the items of an array up to its end, onto those already read (last first). -/
def readItems : Nat → List Json → Bytes → Option (Json × Bytes)
  | 0, _, _ => none
  | fuel + 1, items, bs =>
    match readValue fuel bs with
    | none => none
    | some (item, rest) =>
      match skipBlank rest with
      | 0x2c :: rest' => readItems fuel (item :: items) rest'
      | 0x5d :: rest' => some (.array (item :: items).reverse, rest')
      | _ => none

/-- Reads the members of an object up to its end, onto those already read (last first). -/
def readMembers : Nat → List (Bytes × Json) → Bytes → Option (Json × Bytes)
  | 0, _, _ => none
  | fuel + 1, members, bs =>
    match skipBlank bs with
    | 0x22 :: rest =>
      match readString [] rest with
      | none => none
      | some (key, rest) =>
        match skipBlank rest with
        | 0x3a :: rest =>
          match readValue fuel rest with
          | none => none
          | some (value, rest) =>
            match skipBlank rest with
            | 0x2c :: rest' => readMembers fuel ((key, value) :: members) rest'
            | 0x7d :: rest' => some (.object ((key, value) :: members).reverse, rest')
            | _ => none
        | _ => none
    | _ => none

end

/-- The document a byte string spells, with nothing but blanks around it. -/
def parse? (bs : Bytes) : Option Json :=
  match readValue (2 * bs.length + 2) bs with
  | some (json, rest) => if (skipBlank rest).isEmpty then some json else none
  | none => none

def exponentOf (bs : Bytes) : Int :=
  match bs.dropWhile fun b => b != 0x65 && b != 0x45 with
  | _ :: 0x2d :: digits => -(digits.foldl (fun n d => n * 10 + (d - 0x30).toNat) 0 : Nat)
  | _ :: 0x2b :: digits | _ :: digits => (digits.foldl (fun n d => n * 10 + (d - 0x30).toNat) 0 : Nat)
  | [] => 0

/-- Whether a number lies within the range of double-precision numbers. -/
def isFinite (spelling : Bytes) : Bool :=
  let body := spelling.filter (· != 0x2d)
  let mantissa := spelling.takeWhile fun b => b != 0x65 && b != 0x45
  let whole := (mantissa.takeWhile (· != 0x2e)).filter Bytes.isDigit
  let fraction := ((mantissa.dropWhile (· != 0x2e)).filter Bytes.isDigit)
  let digits := (whole ++ fraction).dropWhile (· == 0x30)
  let exponent := exponentOf spelling - fraction.length
  let magnitude := digits.length + exponent
  if digits.isEmpty || body.isEmpty then true
  else if magnitude < 309 then true
  else if magnitude > 309 then false
  else
    let value : Nat := (digits.take 30).foldl (fun n d => n * 10 + (d - 0x30).toNat) 0
    let unit := Nat.pow 10 (309 - min digits.length 30)
    value * unit < Nat.pow 2 1024 - Nat.pow 2 970

mutual

/-- Whether every string and number of a document has a value, and arrays and objects are nested at
most `depth` deep. -/
def isReadable (depth : Nat) : Json → Bool
  | .null | .bool _ => true
  | .number spelling => isFinite spelling
  | .string spelling => (unescape? spelling).isSome
  | .array items =>
    match depth with
    | 0 => false
    | depth + 1 => areReadable depth items
  | .object members =>
    match depth with
    | 0 => false
    | depth + 1 => membersReadable depth members

def areReadable (depth : Nat) : List Json → Bool
  | [] => true
  | item :: rest => isReadable depth item && areReadable depth rest

def membersReadable (depth : Nat) : List (Bytes × Json) → Bool
  | [] => true
  | (key, value) :: rest =>
    (unescape? key).isSome && isReadable depth value && membersReadable depth rest

end

/-- How deep a document that is read as a whole may nest. -/
def maxDepth : Nat := 127

/-- The document a byte string spells, if every part of it can be read. -/
def parseWhole? (bs : Bytes) : Option Json :=
  (parse? bs).filter (isReadable maxDepth)

end RpcConformance.Json
