import RpcConformance.Bytes
/-!
Header fields of a message: names in the order in which they first appeared, each with its values in
order. `append` adds a value under a name and `insert` replaces all of them; the fields are read
back name by name (`fields`).

There is room for any number of names here. The tables that programs keep fields in are full with
24576 names, and adding one more is a panic.
-/
namespace RpcConformance

/-- Header fields. A name is lower case and appears once. -/
structure HeaderMap where
  groups : List (String × List Bytes)
deriving DecidableEq, Repr, Inhabited

namespace HeaderMap

def empty : HeaderMap := ⟨[]⟩

def isNameByte (b : UInt8) : Bool :=
  (0x30 ≤ b && b ≤ 0x39) || (0x41 ≤ b && b ≤ 0x5a) || (0x61 ≤ b && b ≤ 0x7a) ||
  b == 0x21 || b == 0x23 || b == 0x24 || b == 0x25 || b == 0x26 || b == 0x27 || b == 0x2a ||
  b == 0x2b || b == 0x2d || b == 0x2e || b == 0x5e || b == 0x5f || b == 0x60 || b == 0x7c || b == 0x7e

def longestName : Nat := 0xffff

/-- The lower-case field name a byte string spells, if it spells one. -/
def name? (bs : Bytes) : Option String :=
  if bs.isEmpty || longestName < bs.length then none
  else if bs.all isNameByte then Bytes.text? (bs.map Bytes.lower)
  else none

/-- Whether a byte string may be the value of a field: no control characters but the tab. -/
def isValue (bs : Bytes) : Bool := bs.all fun b => b == 0x09 || (0x20 ≤ b && b != 0x7f)

/-- The text of a value made of printable ASCII and tabs. -/
def asciiText? (bs : Bytes) : Option String :=
  if bs.all fun b => b == 0x09 || (0x20 ≤ b && b ≤ 0x7e) then Bytes.text? bs else none

def getAll (headers : HeaderMap) (name : String) : List Bytes :=
  match headers.groups.find? (·.1 = name) with
  | some (_, values) => values
  | none => []

def get? (headers : HeaderMap) (name : String) : Option Bytes := (headers.getAll name).head?

/-- Adds a value to the group of its name in a list of groups. -/
def appendTo (name : String) (value : Bytes) : List (String × List Bytes) → List (String × List Bytes)
  | [] => [(name, [value])]
  | (name', values) :: rest =>
    if name' = name then (name', values ++ [value]) :: rest
    else (name', values) :: appendTo name value rest

def append (headers : HeaderMap) (name : String) (value : Bytes) : HeaderMap :=
  ⟨appendTo name value headers.groups⟩

def insertInto (name : String) (value : Bytes) : List (String × List Bytes) → List (String × List Bytes)
  | [] => [(name, [value])]
  | (name', values) :: rest =>
    if name' = name then (name', [value]) :: rest
    else (name', values) :: insertInto name value rest

/-- Makes `value` the only value under a name; the name keeps its place. -/
def insert (headers : HeaderMap) (name : String) (value : Bytes) : HeaderMap :=
  ⟨insertInto name value headers.groups⟩

def fields (headers : HeaderMap) : List (String × Bytes) :=
  headers.groups.flatMap fun (name, values) => values.map (name, ·)

end HeaderMap
end RpcConformance
