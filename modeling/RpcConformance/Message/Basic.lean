import RpcConformance.Bytes
/-!
The messages of the test service.
-/
namespace RpcConformance

/-- No content. -/
structure Empty where
deriving DecidableEq, Repr, Inhabited

/-- A block of data; type 0 is the only one that is known. -/
structure Payload where
  type : Int32 := 0
  body : Bytes := []
deriving DecidableEq, Repr, Inhabited

def Payload.bodySize (payload : Option Payload) : Nat := (payload.map (·.body.length)).getD 0

structure EchoStatus where
  code : Int32 := 0
  message : String := ""
deriving DecidableEq, Repr, Inhabited

structure SimpleRequest where
  responseType : Int32 := 0
  responseSize : Int32 := 0
  payload : Option Payload := none
  responseStatus : Option EchoStatus := none
deriving DecidableEq, Repr, Inhabited

structure SimpleResponse where
  payload : Option Payload := none
deriving DecidableEq, Repr, Inhabited

structure StreamingInputCallRequest where
  payload : Option Payload := none
deriving DecidableEq, Repr, Inhabited

structure StreamingInputCallResponse where
  aggregatedPayloadSize : Int32 := 0
deriving DecidableEq, Repr, Inhabited

structure ResponseParameters where
  size : Int32 := 0
  intervalMicros : Int32 := 0
deriving DecidableEq, Repr, Inhabited

structure StreamingOutputCallRequest where
  responseType : Int32 := 0
  responseParameters : List ResponseParameters := []
  payload : Option Payload := none
  responseStatus : Option EchoStatus := none
deriving DecidableEq, Repr, Inhabited

structure StreamingOutputCallResponse where
  payload : Option Payload := none
deriving DecidableEq, Repr, Inhabited

end RpcConformance
