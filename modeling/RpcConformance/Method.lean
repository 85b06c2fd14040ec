import RpcConformance.Message.Codec
import RpcConformance.Metadata.Basic
/-!
The methods of the test service: their paths, which sides stream, and the messages they exchange.
A path names at most one method (`ofPath?_path`).
-/
namespace RpcConformance

inductive Method
  | emptyCall
  | unaryCall
  | failUnaryCall
  | streamingOutputCall
  | streamingInputCall
  | fullDuplexCall
  | halfDuplexCall
  | unimplementedCall
deriving DecidableEq, Repr, Inhabited

/-- Which sides of a call are streams. -/
inductive Shape
  | unary
  | serverStreaming
  | clientStreaming
  | bidiStreaming
deriving DecidableEq, Repr

namespace Shape

def name : Shape → String
  | unary => "Unary"
  | serverStreaming => "ServerStreaming"
  | clientStreaming => "ClientStreaming"
  | bidiStreaming => "BidiStreaming"

def clientStreams : Shape → Bool
  | unary | serverStreaming => false
  | clientStreaming | bidiStreaming => true

def serverStreams : Shape → Bool
  | unary | clientStreaming => false
  | serverStreaming | bidiStreaming => true

end Shape

namespace Method

def all : List Method :=
  [emptyCall, unaryCall, failUnaryCall, streamingOutputCall, streamingInputCall, fullDuplexCall,
   halfDuplexCall, unimplementedCall]

def name : Method → String
  | emptyCall => "EmptyCall"
  | unaryCall => "UnaryCall"
  | failUnaryCall => "FailUnaryCall"
  | streamingOutputCall => "StreamingOutputCall"
  | streamingInputCall => "StreamingInputCall"
  | fullDuplexCall => "FullDuplexCall"
  | halfDuplexCall => "HalfDuplexCall"
  | unimplementedCall => "UnimplementedCall"

def service : String := "grpc.testing.TestService"

def path (method : Method) : String := "/" ++ service ++ "/" ++ method.name

/-- The path of a method of a service that nobody offers. -/
def undeclaredPath : String := "/grpc.testing.UnimplementedService/UnimplementedCall"

def ofPath? (path : String) : Option Method := all.find? fun method => method.path = path

@[simp] theorem ofPath?_path (method : Method) : ofPath? method.path = some method := by
  cases method <;> decide

def shape : Method → Shape
  | emptyCall | unaryCall | failUnaryCall | unimplementedCall => .unary
  | streamingOutputCall => .serverStreaming
  | streamingInputCall => .clientStreaming
  | fullDuplexCall | halfDuplexCall => .bidiStreaming

abbrev Request : Method → Type
  | emptyCall | unimplementedCall => Empty
  | unaryCall | failUnaryCall => SimpleRequest
  | streamingInputCall => StreamingInputCallRequest
  | streamingOutputCall | fullDuplexCall | halfDuplexCall => StreamingOutputCallRequest

abbrev Response : Method → Type
  | emptyCall | unimplementedCall => Empty
  | unaryCall | failUnaryCall => SimpleResponse
  | streamingInputCall => StreamingInputCallResponse
  | streamingOutputCall | fullDuplexCall | halfDuplexCall => StreamingOutputCallResponse

instance (method : Method) : Message method.Request := by
  cases method <;> (unfold Request; infer_instance)

instance (method : Method) : Message method.Response := by
  cases method <;> (unfold Response; infer_instance)

end Method
end RpcConformance
