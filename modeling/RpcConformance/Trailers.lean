import RpcConformance.Metadata.Header
import RpcConformance.Text.Percent
import RpcConformance.Text.Decimal
/-!
How a gRPC call reports its end: a status and a message among header fields, and in gRPC-Web those
fields as a block of lines in the body.
-/
namespace RpcConformance.Trailers

def statusField : String := "grpc-status"

def messageField : String := "grpc-message"

def outcomeNumber : Outcome → Nat
  | .ok () => Code.ok.number
  | .error status => status.code.number

def outcomeMessage : Outcome → String
  | .ok () => ""
  | .error status => status.message

/-- Sets the fields that report an outcome; an empty message is not written, nor one that cannot be the value of a
field. -/
def writeStatus (headers : HeaderMap) (outcome : Outcome) : HeaderMap :=
  let headers := headers.insert statusField (Bytes.ofString (Text.Decimal.render (outcomeNumber outcome)))
  if outcomeMessage outcome = "" then headers
  else
    let value := Text.Percent.encode (outcomeMessage outcome)
    if HeaderMap.isValue value then headers.insert messageField value else headers

/-- The code a status field names: an integer with blanks around it. -/
def readCode? (value : Bytes) : Option Code := do
  let text ← HeaderMap.asciiText? value
  let number ← (Text.Decimal.int32 (Bytes.ofString (Text.trim text))).toOption
  Code.ofNumber? number.toInt

def readStatus? (headers : HeaderMap) : Option Outcome :=
  (headers.get? statusField).map fun value =>
    match readCode? value with
    | none => .error (.unknown ("invalid grpc-status: " ++ Text.lossy value))
    | some .ok => .ok ()
    | some code =>
      .error ⟨code, ((headers.get? messageField).map Text.Percent.decode).getD ""⟩

/-- The fields at the end of a call: the outcome, then the trailing metadata. -/
def ofOutcome (outcome : Outcome) (trailers : Metadata) : Except Status HeaderMap :=
  match trailers.write (writeStatus .empty outcome) with
  | (headers, .ok ()) => .ok headers
  | (_, .error status) => .error status

/-- The fields at the end of a call; metadata that cannot be written is left out altogether. -/
def ofEnd (outcome : Outcome) (trailers : Metadata) : HeaderMap :=
  match ofOutcome outcome trailers with
  | .ok headers => headers
  | .error _ => writeStatus .empty outcome

def encodeBlock (headers : HeaderMap) : Bytes :=
  headers.fields.flatMap fun (name, value) =>
    Bytes.ofString name ++ [0x3a, 0x20] ++ value ++ [0x0d, 0x0a]

def withoutReturn (line : Bytes) : Bytes :=
  if line.getLast? = some 0x0d then line.dropLast else line

/-- Reads one line onto the fields read so far; an empty line holds none. -/
def readLine (headers : HeaderMap) (line : Bytes) : Except Status HeaderMap :=
  let line := withoutReturn line
  if line.isEmpty then .ok headers
  else if line.contains 0x3a then
    match HeaderMap.name? (Text.trimWhere Text.isAsciiSpace (line.takeWhile (· != 0x3a))) with
    | none => .error (.internal "invalid grpc-web trailer name")
    | some name =>
      let value := Text.trimWhere Text.isAsciiSpace ((line.dropWhile (· != 0x3a)).drop 1)
      if HeaderMap.isValue value then .ok (headers.append name value)
      else .error (.internal "invalid grpc-web trailer value")
  else .error (.internal "malformed grpc-web trailer line")

def decodeBlock (block : Bytes) : Except Status HeaderMap :=
  (block.splitOnP (· == 0x0a)).foldlM readLine .empty

end RpcConformance.Trailers
