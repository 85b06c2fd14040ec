import RpcConformance.Metadata.Key
/-!
Metadata of a request or a response: keys and values in the order in which they were added. A key
may have many values.
-/
namespace RpcConformance

/-- Keys in lower case with the bytes of their values, in order. -/
structure Metadata where
  entries : List (String × Bytes)
deriving DecidableEq, Repr, Inhabited

namespace Metadata

def empty : Metadata := ⟨[]⟩

/-- Adds a value at the end; the key is put into lower case. -/
def insert (metadata : Metadata) (key : String) (value : Bytes) : Metadata :=
  ⟨metadata.entries ++ [(lowerCase key, value)]⟩

def extend (metadata other : Metadata) : Metadata := ⟨metadata.entries ++ other.entries⟩

def single (key : String) (value : Bytes) : Metadata := empty.insert key value

def ofList (entries : List (String × Bytes)) : Metadata :=
  ⟨entries.map fun (key, value) => (lowerCase key, value)⟩

/-- The values under a key of any case, in order. -/
def getAll (metadata : Metadata) (key : String) : List Bytes :=
  metadata.entries.filterMap fun (key', value) => if key' = lowerCase key then some value else none

def get? (metadata : Metadata) (key : String) : Option Bytes := (metadata.getAll key).head?

def getText? (metadata : Metadata) (key : String) : Option String :=
  (metadata.get? key).bind Bytes.text?

def size (metadata : Metadata) : Nat := metadata.entries.length

def isEmpty (metadata : Metadata) : Bool := metadata.entries.isEmpty

end Metadata
end RpcConformance
