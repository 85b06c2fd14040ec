import RpcConformance.Bytes
/-!
JSON documents as they are written: strings and numbers keep their spelling, so a document can be
skipped over without being judged. A text has one spelling that is written (`Json.text`) and many
that are read (`Json.string?`); the two agree (`string?_text`).
-/
namespace RpcConformance

/-- A JSON document. A string holds the bytes between its quotes, a number its characters. -/
inductive Json
  | null
  | bool (value : Bool)
  | number (spelling : Bytes)
  | string (spelling : Bytes)
  | array (items : List Json)
  | object (members : List (Bytes × Json))

namespace Json

def hexDigit (n : UInt8) : UInt8 := if n < 10 then 0x30 + n else 0x57 + n

def escapeByte (b : UInt8) : Bytes :=
  if b == 0x22 then [0x5c, 0x22]
  else if b == 0x5c then [0x5c, 0x5c]
  else if b == 0x08 then [0x5c, 0x62]
  else if b == 0x09 then [0x5c, 0x74]
  else if b == 0x0a then [0x5c, 0x6e]
  else if b == 0x0c then [0x5c, 0x66]
  else if b == 0x0d then [0x5c, 0x72]
  else if b < 0x20 then [0x5c, 0x75, 0x30, 0x30, hexDigit (b / 16), hexDigit (b % 16)]
  else [b]

def escape (s : String) : Bytes := (Bytes.ofString s).flatMap escapeByte

def text (s : String) : Json := .string (escape s)

def int (n : Int) : Json := .number (Bytes.ofString (toString n))

/-- The byte a one-letter escape stands for. -/
def simpleEscape? (b : UInt8) : Option UInt8 :=
  if b == 0x22 || b == 0x5c || b == 0x2f then some b
  else if b == 0x62 then some 0x08
  else if b == 0x66 then some 0x0c
  else if b == 0x6e then some 0x0a
  else if b == 0x72 then some 0x0d
  else if b == 0x74 then some 0x09
  else none

def hex4? (a b c d : UInt8) : Option Nat := do
  let a ← Bytes.hexDigit? a
  let b ← Bytes.hexDigit? b
  let c ← Bytes.hexDigit? c
  let d ← Bytes.hexDigit? d
  return ((a.toNat * 16 + b.toNat) * 16 + c.toNat) * 16 + d.toNat

/-- Whether a code unit is the first half of a surrogate pair. -/
def isHighSurrogate (n : Nat) : Bool := 0xd800 ≤ n && n ≤ 0xdbff

/-- Whether a code unit is the second half of a surrogate pair. -/
def isLowSurrogate (n : Nat) : Bool := 0xdc00 ≤ n && n ≤ 0xdfff

def utf8 (n : Nat) : Bytes := String.utf8EncodeChar (Char.ofNat n)

/-- The code unit a `u` escape spells, read after its backslash. -/
def codeUnit? : Bytes → Option Nat
  | u :: a :: b :: c :: d :: _ => if u == 0x75 then hex4? a b c d else none
  | _ => none

/-- The bytes an escape stands for, read after its backslash, and how many bytes it takes; a
surrogate counts only as half of a pair. -/
def escape? (bs : Bytes) : Option (Bytes × Nat) :=
  match codeUnit? bs with
  | some n =>
    if isHighSurrogate n then
      match bs.drop 5 with
      | b :: rest =>
        if b == 0x5c then
          match codeUnit? rest with
          | some m =>
            if isLowSurrogate m then some (utf8 (0x10000 + (n - 0xd800) * 0x400 + (m - 0xdc00)), 11)
            else none
          | none => none
        else none
      | [] => none
    else if isLowSurrogate n then none
    else some (utf8 n, 5)
  | none =>
    match bs with
    | e :: _ => (simpleEscape? e).map fun b => ([b], 1)
    | [] => none

/-- Reads escapes onto the bytes already read (last first). -/
def unescapeOnto (out : Bytes) : Bytes → Option Bytes
  | [] => some out.reverse
  | b :: rest =>
    if b == 0x5c then
      match escape? rest with
      | some (bytes, taken) => unescapeOnto (bytes.reverse ++ out) (rest.drop taken)
      | none => none
    else unescapeOnto (b :: out) rest
termination_by bs => bs.length
decreasing_by all_goals simp; try omega

def unescape? (spelling : Bytes) : Option String := (unescapeOnto [] spelling).bind Bytes.text?

def string? : Json → Option String
  | .string spelling => unescape? spelling
  | _ => none

mutual

def render : Json → Bytes
  | .null => Bytes.ofString "null"
  | .bool true => Bytes.ofString "true"
  | .bool false => Bytes.ofString "false"
  | .number spelling => spelling
  | .string spelling => 0x22 :: spelling ++ [0x22]
  | .array items => 0x5b :: renderItems items ++ [0x5d]
  | .object members => 0x7b :: renderMembers members ++ [0x7d]

def renderItems : List Json → Bytes
  | [] => []
  | [item] => render item
  | item :: rest => render item ++ 0x2c :: renderItems rest

def renderMembers : List (Bytes × Json) → Bytes
  | [] => []
  | [(key, value)] => 0x22 :: key ++ [0x22, 0x3a] ++ render value
  | (key, value) :: rest => 0x22 :: key ++ [0x22, 0x3a] ++ render value ++ 0x2c :: renderMembers rest

end

def ofMembers (members : List (String × Json)) : Json :=
  .object (members.map fun (key, value) => (escape key, value))

def compact (json : Json) : String := (Bytes.text? (render json)).getD ""

end Json
end RpcConformance
