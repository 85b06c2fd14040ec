import RpcConformance.Metadata.Key
import RpcConformance.Text.Space
/-!
The protocols and message formats a call can be made in, and the content types that name them.
Reading a content type inverts writing it (`ofString?_render`).
-/
namespace RpcConformance

inductive Protocol
  | connect
  | grpc
  | grpcWeb
deriving DecidableEq, Repr, Inhabited

namespace Protocol

def name : Protocol → String
  | connect => "connect"
  | grpc => "grpc"
  | grpcWeb => "grpc-web"

def label : Protocol → String
  | connect => "Connect"
  | grpc => "Grpc"
  | grpcWeb => "GrpcWeb"

end Protocol

inductive Codec
  | proto
  | json
deriving DecidableEq, Repr, Inhabited

namespace Codec

def name : Codec → String
  | proto => "proto"
  | json => "json"

def label : Codec → String
  | proto => "Proto"
  | json => "Json"

end Codec

/-- What a content type says about a body: the protocol, the message format, and whether messages
stand in envelopes or alone. -/
structure ContentType where
  protocol : Protocol
  codec : Codec
  enveloped : Bool
deriving DecidableEq, Repr

namespace ContentType

/-- The content type of a call; only a unary Connect call has no envelopes. -/
def forCall (protocol : Protocol) (codec : Codec) (streaming : Bool) : ContentType :=
  ⟨protocol, codec, protocol != .connect || streaming⟩

def table : List (String × ContentType) :=
  [("application/proto", ⟨.connect, .proto, false⟩),
   ("application/json", ⟨.connect, .json, false⟩),
   ("application/connect+proto", ⟨.connect, .proto, true⟩),
   ("application/connect+json", ⟨.connect, .json, true⟩),
   ("application/grpc", ⟨.grpc, .proto, true⟩),
   ("application/grpc+proto", ⟨.grpc, .proto, true⟩),
   ("application/grpc+json", ⟨.grpc, .json, true⟩),
   ("application/grpc-web", ⟨.grpcWeb, .proto, true⟩),
   ("application/grpc-web+proto", ⟨.grpcWeb, .proto, true⟩),
   ("application/grpc-web+json", ⟨.grpcWeb, .json, true⟩)]

/-- Reads a content type of any case; parameters after a semicolon and blanks do not count. -/
def ofString? (value : String) : Option ContentType :=
  let essence := Text.trimWhere Text.isSpace (value.toList.takeWhile (· != ';'))
  table.lookup (Metadata.lowerCase (String.ofList essence))

def render (contentType : ContentType) : String :=
  match contentType.protocol, contentType.codec, contentType.enveloped with
  | .connect, .proto, false => "application/proto"
  | .connect, .json, false => "application/json"
  | .connect, .proto, true => "application/connect+proto"
  | .connect, .json, true => "application/connect+json"
  | .grpc, .proto, _ => "application/grpc"
  | .grpc, .json, _ => "application/grpc+json"
  | .grpcWeb, .proto, _ => "application/grpc-web+proto"
  | .grpcWeb, .json, _ => "application/grpc-web+json"

theorem ofString?_render (protocol : Protocol) (codec : Codec) (streaming : Bool) :
    ofString? (forCall protocol codec streaming).render = some (forCall protocol codec streaming) := by
  cases protocol <;> cases codec <;> cases streaming <;> decide +kernel

end ContentType
end RpcConformance
