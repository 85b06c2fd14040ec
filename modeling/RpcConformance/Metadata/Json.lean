import RpcConformance.Metadata.Header
import RpcConformance.Text.Lossy
/-!
Metadata as a JSON object from keys to arrays of texts, in the order of the keys. Reading takes the
keys in that order too, so it gives the entries back sorted by key.
-/
namespace RpcConformance.Metadata

def jsonText (key : String) (value : Bytes) : String :=
  if isBinaryKey key then Text.lossy (encodeBinary value) else Text.lossy value

/-- Puts a value at the end of its key's list, keys in order. -/
def addSorted {α : Type} (key : String) (value : α) : List (String × List α) → List (String × List α)
  | [] => [(key, [value])]
  | (key', values) :: rest =>
    if key = key' then (key', values ++ [value]) :: rest
    else if key < key' then (key, [value]) :: (key', values) :: rest
    else (key', values) :: addSorted key value rest

def grouped {α : Type} (entries : List (String × α)) : List (String × List α) :=
  entries.foldl (fun groups (key, value) => addSorted key value groups) []

def jsonMembers (metadata : Metadata) : List (String × Json) :=
  (grouped (metadata.entries.map fun (key, value) => (key, jsonText key value))).map
    fun (key, texts) => (key, .array (texts.map Json.text))

def toJson (metadata : Metadata) : Json := .ofMembers metadata.jsonMembers

/-- The members of an object with keys that spell texts: in the order of the keys, of each key the
last. -/
def sortedMembers (members : List (Bytes × Json)) : List (String × Json) :=
  let spelled := members.filterMap fun (key, value) => (Json.unescape? key).map (·, value)
  (grouped spelled).filterMap fun (key, values) => values.getLast?.map (key, ·)

/-- Adds the texts of an array under a key; what is no text is left out. -/
def insertTexts (metadata : Metadata) (key : String) : Json → Metadata
  | .array items => items.foldl (fun metadata item =>
      match item.string? with
      | some text => metadata.insertWire (lowerCase key) (Bytes.ofString text)
      | none => metadata) metadata
  | _ => metadata

def ofJsonMembers (members : List (Bytes × Json)) : Metadata :=
  (sortedMembers members).foldl (fun metadata (key, value) => metadata.insertTexts key value) empty

def parseJson? (bytes : Bytes) : Option Metadata :=
  match Json.parseWhole? bytes with
  | some (.object members) => some (ofJsonMembers members)
  | _ => none

end RpcConformance.Metadata
