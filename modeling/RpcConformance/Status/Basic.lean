import RpcConformance.Status.Code
import RpcConformance.Json.Reader
import RpcConformance.Text.Quoted
/-!
What a failed call reports: a code and a message. The JSON error body carries both; reading it back
gives the same status (`ofBody`), and an empty message and none are the same.
-/
namespace RpcConformance

/-- A failure: its code and what there is to say about it. -/
structure Status where
  code : Code
  message : String
deriving DecidableEq, Repr, Inhabited

/-- How a call ends: well, or with a status. -/
abbrev Outcome := Except Status Unit

namespace Status

def canceled (message : String) : Status := ⟨.canceled, message⟩
def unknown (message : String) : Status := ⟨.unknown, message⟩
def invalidArgument (message : String) : Status := ⟨.invalidArgument, message⟩
def deadlineExceeded (message : String) : Status := ⟨.deadlineExceeded, message⟩
def resourceExhausted (message : String) : Status := ⟨.resourceExhausted, message⟩
def failedPrecondition (message : String) : Status := ⟨.failedPrecondition, message⟩
def unimplemented (message : String) : Status := ⟨.unimplemented, message⟩
def internal (message : String) : Status := ⟨.internal, message⟩
def unavailable (message : String) : Status := ⟨.unavailable, message⟩
def dataLoss (message : String) : Status := ⟨.dataLoss, message⟩

def render (status : Status) : String :=
  if status.message = "" then status.code.name else status.code.name ++ ": " ++ status.message

def inspect (status : Status) : String :=
  "Status \x7b code: " ++ status.code.label ++ ", message: " ++ Text.Quoted.encode status.message
    ++ " \x7d"

/-- An error body: the name of a code, perhaps not a known one, and perhaps a message. -/
structure Body where
  code : String
  message : Option String
deriving DecidableEq, Repr

/-- The status an error body describes; `fallback` stands in for an unknown name. -/
def ofBody (body : Body) (fallback : Code) : Status :=
  ⟨(Code.ofName? body.code).getD fallback, body.message.getD ""⟩

def toBody (status : Status) : Body :=
  ⟨status.code.name, if status.message = "" then none else some status.message⟩

@[simp] theorem ofBody_toBody (status : Status) (fallback : Code) :
    ofBody status.toBody fallback = status := by
  cases status with
  | mk code message => by_cases h : message = "" <;> simp [ofBody, toBody, h]

def Body.members (body : Body) : List (String × Json) :=
  ("code", .text body.code) ::
    match body.message with
    | some message => [("message", .text message)]
    | none => []

def Body.toJson (body : Body) : Json := .ofMembers body.members

def optionalText? : Json → Option (Option String)
  | .null => some none
  | json => json.string?.map some

/-- The values of the members named `name`, among keys that all spell a text. -/
def fieldsNamed (name : String) (members : List (Bytes × Json)) : List Json :=
  members.filterMap fun (key, value) => if Json.unescape? key = some name then some value else none

def haveTextKeys (members : List (Bytes × Json)) : Bool :=
  members.all fun (key, _) => (Json.unescape? key).isSome

/-- Reads an error body: an object whose other members are ignored, or an array of the fields. -/
def Body.ofJson? : Json → Option Body
  | .object members =>
    if haveTextKeys members then
      match fieldsNamed "code" members, fieldsNamed "message" members with
      | [code], [] => code.string?.map (⟨·, none⟩)
      | [code], [message] => do return ⟨← code.string?, ← optionalText? message⟩
      | _, _ => none
    else none
  | .array [code] => code.string?.map (⟨·, none⟩)
  | .array [code, message] => do return ⟨← code.string?, ← optionalText? message⟩
  | _ => none

def Body.parse? (bytes : Bytes) : Option Body := (Json.parse? bytes).bind ofJson?

end Status

def Outcome.inspect : Outcome → String
  | .ok () => "Ok(())"
  | .error status => "Err(" ++ status.inspect ++ ")"

end RpcConformance
