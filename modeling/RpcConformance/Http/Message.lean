import RpcConformance.Header.Map
/-!
HTTP requests and responses as far as calls use them. A request body arrives in parts, with pauses
between them; a response body is a list of frames, of which the last may be trailers.
-/
namespace RpcConformance.Http

/-- What a body brings next. -/
inductive Part
  | data (bytes : Bytes)
  | pause (ticks : Nat)
  | failed (reason : String)
deriving DecidableEq, Repr

/-- What a request begins with. -/
structure Head where
  method : String
  path : String
  headers : HeaderMap

structure Request extends Head where
  body : List Part

inductive Frame
  | data (bytes : Bytes)
  | trailers (headers : HeaderMap)
deriving Repr

/-- A response; its body may break off for a reason after its frames. -/
structure Response where
  status : Nat
  headers : HeaderMap
  body : List Frame
  failure : Option String := none
deriving Repr

/-- Who answers requests. Under an address either nobody does, for a reason, or somebody answers a
request once its body is complete, unless that never happens. -/
abbrev Network := (address : String) → Head → Except String (List Part → Option Response)

def Network.down (reason : String) : Network := fun _ _ => .error reason

end RpcConformance.Http
