import RpcConformance.Limit
import RpcConformance.Protocol
import RpcConformance.Text.Decimal
import RpcConformance.Text.Quoted
/-!
Settings of the server and of the conformance client, read from named variables. A variable that is
not set has a default; one that makes no sense is an error that shows its value.
-/
namespace RpcConformance

structure ConfigError where
  variableName : String
  value : String
  reason : String
deriving DecidableEq, Repr

def ConfigError.message (error : ConfigError) : String :=
  "invalid " ++ error.variableName ++ " value " ++ Text.Quoted.encode error.value ++ ": " ++ error.reason

inductive ClientProtocol
  | connectJson
  | connectProto
  | grpc
  | grpcJson
  | grpcWeb
  | grpcWebJson
  /-- Another library speaks for the client and chooses both. -/
  | external
deriving DecidableEq, Repr

/-- Whether scenarios run one after another or all at once. -/
inductive Execution
  | sequential
  | concurrent
deriving DecidableEq, Repr

def Execution.label : Execution → String
  | sequential => "Sequential"
  | concurrent => "Concurrent"

namespace Config

def hostVariable : String := "CROSSTEST_HOST"

def portVariable : String := "CROSSTEST_PORT"

def fallbackPortVariable : String := "PORT"

def protocolVariable : String := "CROSSTEST_PROTOCOL"

def concurrentVariable : String := "CROSSTEST_CONCURRENT"

/-- The variable of the server's receive limit; zero stands for none. -/
def limitVariable : String := "CROSSTEST_RECEIVE_MAX_BYTES"

abbrev Lookup := String → Option String

/-- Reads a number up to `max` from the value of a variable. -/
def number (variableName value : String) (max : Nat) : Except ConfigError Nat :=
  match Text.Decimal.natUpTo max (Bytes.ofString value) with
  | .ok n => .ok n
  | .error error => .error ⟨variableName, value, error.message⟩

def port (lookup : Lookup) : Except ConfigError Nat :=
  match lookup portVariable, lookup fallbackPortVariable with
  | some value, _ => number portVariable value 65535
  | none, some value => number fallbackPortVariable value 65535
  | none, none => .ok 8080

def limit (lookup : Lookup) : Except ConfigError Limit :=
  match lookup limitVariable with
  | none => .ok .standard
  | some value => do
    let max ← number limitVariable value Limit.maxWord
    return if max = 0 then .unlimited else ⟨some max⟩

end Config

namespace ClientProtocol

def all : List ClientProtocol :=
  [connectJson, connectProto, grpc, grpcJson, grpcWeb, grpcWebJson, external]

def name : ClientProtocol → String
  | connectJson => "connect-json"
  | connectProto => "connect-proto"
  | grpc => "grpc"
  | grpcJson => "grpc-json"
  | grpcWeb => "grpc-web"
  | grpcWebJson => "grpc-web-json"
  | external => "tonic"

/-- The protocol and the format on the wire, unless another library chooses them. -/
def wire? : ClientProtocol → Option (Protocol × Codec)
  | connectJson => some (.connect, .json)
  | connectProto => some (.connect, .proto)
  | grpc => some (.grpc, .proto)
  | grpcJson => some (.grpc, .json)
  | grpcWeb => some (.grpcWeb, .proto)
  | grpcWebJson => some (.grpcWeb, .json)
  | external => none

def ofName (value : String) : Except ConfigError ClientProtocol :=
  match all.find? (·.name = value) with
  | some protocol => .ok protocol
  | none =>
    .error ⟨Config.protocolVariable, value,
      "expected one of " ++ ", ".intercalate (all.map name)⟩

end ClientProtocol

structure ServerConfig where
  host : String
  port : Nat
  limit : Limit
deriving DecidableEq, Repr

namespace ServerConfig

def read (lookup : Config.Lookup) : Except ConfigError ServerConfig := do
  let port ← Config.port lookup
  let limit ← Config.limit lookup
  return { host := (lookup Config.hostVariable).getD "0.0.0.0", port, limit }

def address (config : ServerConfig) : String := config.host ++ ":" ++ Text.Decimal.render config.port

end ServerConfig

structure ClientConfig where
  host : String
  port : Nat
  protocol : ClientProtocol
  execution : Execution
deriving DecidableEq, Repr

namespace ClientConfig

def readExecution (lookup : Config.Lookup) : Except ConfigError Execution :=
  match lookup Config.concurrentVariable with
  | none | some "" | some "0" | some "false" => .ok .sequential
  | some "1" | some "true" => .ok .concurrent
  | some value => .error ⟨Config.concurrentVariable, value, "expected 1, 0, true or false"⟩

def read (lookup : Config.Lookup) : Except ConfigError ClientConfig := do
  let protocol ← match lookup Config.protocolVariable with
    | some value => ClientProtocol.ofName value
    | none => pure .connectProto
  let execution ← readExecution lookup
  let port ← Config.port lookup
  return { host := (lookup Config.hostVariable).getD "127.0.0.1", port, protocol, execution }

def baseUrl (config : ClientConfig) : String :=
  "http://" ++ config.host ++ ":" ++ Text.Decimal.render config.port

end ClientConfig
end RpcConformance
