import RpcConformance.Metadata.Basic
import RpcConformance.Header.Map
import RpcConformance.Status.Basic
import RpcConformance.Text.Base64
import RpcConformance.Text.Space
/-!
Metadata as header fields. Binary values travel in base64, unpadded when written, padded or not when
read; names the protocols own are not read as metadata.
-/
namespace RpcConformance.Metadata

def encodeBinary (value : Bytes) : Bytes := Text.Base64.encode false value

/-- The binary value of a text in base64, blanks around it aside. -/
def decodeBinary? (text : String) : Option Bytes :=
  Text.Base64.decode? .standard (Bytes.ofString (Text.trim text))

/-- Adds a value as it came over the wire; a binary one that is not base64 is left out. -/
def insertWire (metadata : Metadata) (key : String) (value : Bytes) : Metadata :=
  if isBinaryKey key then
    match (Bytes.text? value).bind decodeBinary? with
    | some decoded => metadata.insert key decoded
    | none => metadata
  else metadata.insert key value

def ofHeaders (headers : HeaderMap) : Metadata :=
  headers.fields.foldl (fun metadata (name, value) =>
    if isReserved name then metadata else metadata.insertWire name value) empty

/-- The metadata among the header fields whose names start with `mark`, which is taken off. -/
def ofMarkedHeaders (headers : HeaderMap) (mark : String) : Metadata :=
  headers.fields.foldl (fun metadata (name, value) =>
    match afterMark? mark name with
    | some key => if key = "" || isReserved key then metadata else metadata.insertWire key value
    | none => metadata) empty

def wireValue? (key : String) (value : Bytes) : Option Bytes :=
  let wire := if isBinaryKey key then encodeBinary value else value
  if HeaderMap.isValue wire then some wire else none

/-- Adds one entry to header fields, its key after `mark`. -/
def writeEntry (mark : String) (headers : HeaderMap) (entry : String × Bytes) : Except Status HeaderMap :=
  match HeaderMap.name? (Bytes.ofString (mark ++ entry.1)) with
  | none => .error (.internal ("invalid metadata key: " ++ entry.1))
  | some name =>
    match wireValue? entry.1 entry.2 with
    | none => .error (.internal ("invalid metadata value for key: " ++ entry.1))
    | some value => .ok (headers.append name value)

/-- Adds entries to header fields up to the first that cannot be written; gives the fields written
and what was wrong with that entry. -/
def writeEntries (mark : String) : HeaderMap → List (String × Bytes) → HeaderMap × Outcome
  | headers, [] => (headers, .ok ())
  | headers, entry :: rest =>
    match writeEntry mark headers entry with
    | .ok headers => writeEntries mark headers rest
    | .error status => (headers, .error status)

def writeMarked (metadata : Metadata) (headers : HeaderMap) (mark : String) : HeaderMap × Outcome :=
  writeEntries mark headers metadata.entries

def write (metadata : Metadata) (headers : HeaderMap) : HeaderMap × Outcome :=
  metadata.writeMarked headers ""

end RpcConformance.Metadata
