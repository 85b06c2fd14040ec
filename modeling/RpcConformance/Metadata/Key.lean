import RpcConformance.Bytes
/-!
Metadata keys: lower case, with the suffix `-bin` on those that hold binary values. Some names belong
to the protocols themselves and are no metadata (`isReserved`).
-/
namespace RpcConformance.Metadata

def lowerCase (s : String) : String := String.ofList (s.toList.map Char.toLower)

/-- The names the protocols and HTTP itself own. -/
def reservedNames : List String :=
  ["accept", "accept-encoding", "connection", "content-encoding", "content-length", "content-type",
   "date", "host", "keep-alive", "server", "te", "trailer", "transfer-encoding", "upgrade",
   "user-agent", "vary"]

/-- The start of a name under which a unary response carries a trailer. -/
def trailerMark : String := "trailer-"

def reservedMarks : List String := ["connect-", "grpc-", trailerMark, ":"]

def startsWith (mark key : String) : Bool := mark.toList.isPrefixOf key.toList

/-- Whether a key belongs to a protocol. -/
def isReserved (key : String) : Bool :=
  reservedNames.contains key || reservedMarks.any (startsWith · key)

def isBinaryKey (key : String) : Bool := "-bin".toList.isSuffixOf key.toList

def afterMark? (mark key : String) : Option String :=
  if startsWith mark key then some (String.ofList (key.toList.drop mark.length)) else none

end RpcConformance.Metadata
