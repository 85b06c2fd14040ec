import RpcConformance.Json.Reader
import RpcConformance.Metadata.Json
/-!
The document at the end of a Connect stream, as its reader takes it: an error body and metadata,
both of which may be missing, as members of an object or as items of an array.
-/
namespace RpcConformance.Client

structure EndStream where
  error : Option Status.Body
  metadata : Metadata

namespace EndStream

def error? : Json → Option (Option Status.Body)
  | .null => some none
  | json => (Status.Body.ofJson? json).map some

/-- Reads an object of metadata, every part of which has to be readable. -/
def metadata? (json : Json) : Option Metadata :=
  match json with
  | .object members =>
    if json.isReadable (Json.maxDepth - 1) then some (.ofJsonMembers members) else none
  | _ => none

/-- Reads each field from the values given for it: none or one. -/
def ofFields? (errors metadata : List Json) : Option EndStream := do
  let error ← match errors with
    | [] => some none
    | [json] => error? json
    | _ => none
  let metadata ← match metadata with
    | [] => some .empty
    | [json] => metadata? json
    | _ => none
  return { error, metadata }

def ofJson? : Json → Option EndStream
  | .object members =>
    if Status.haveTextKeys members then
      ofFields? (Status.fieldsNamed "error" members) (Status.fieldsNamed "metadata" members)
    else none
  | .array (error :: metadata) => ofFields? [error] metadata
  | .array [] => ofFields? [] []
  | _ => none

def parse? (bytes : Bytes) : Option EndStream := (Json.parse? bytes).bind ofJson?

def outcome (ending : EndStream) : Outcome :=
  match ending.error with
  | some body => .error (.ofBody body .unknown)
  | none => .ok ()

end EndStream
end RpcConformance.Client
