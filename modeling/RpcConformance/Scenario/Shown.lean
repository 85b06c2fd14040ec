import RpcConformance.Duration
import RpcConformance.Message.Basic
import RpcConformance.Status.Basic
/-!
How values look in the report of a mismatch.
-/
namespace RpcConformance.Scenario

class Shown (α : Type) where
  shown : α → String

export Shown (shown)

instance : Shown Nat := ⟨Text.Decimal.render⟩
instance : Shown Int32 := ⟨fun n => toString n.toInt⟩
instance : Shown UInt8 := ⟨fun n => Text.Decimal.render n.toNat⟩
instance : Shown String := ⟨Text.Quoted.encode⟩
instance : Shown Code := ⟨Code.label⟩
instance : Shown Status := ⟨Status.inspect⟩
instance : Shown Duration := ⟨Duration.render⟩

variable {α : Type} [Shown α]

instance : Shown (Option α) where
  shown
    | some a => "Some(" ++ shown a ++ ")"
    | none => "None"

instance : Shown (Except Status α) where
  shown
    | .ok a => "Ok(" ++ shown a ++ ")"
    | .error status => "Err(" ++ shown status ++ ")"

instance : Shown (List α) where
  shown items := "[" ++ ", ".intercalate (items.map shown) ++ "]"

def record (name : String) (fields : List (String × String)) : String :=
  name ++ " \x7b " ++ ", ".intercalate (fields.map fun field => field.1 ++ ": " ++ field.2) ++ " \x7d"

def shownType (type : Int32) : String := if type = 0 then "Compressable" else shown type

instance : Shown Payload where
  shown payload := record "Payload" [("r#type", shownType payload.type), ("body", shown payload.body)]

instance : Shown Empty := ⟨fun _ => "Empty"⟩

instance : Shown SimpleResponse where
  shown response := record "SimpleResponse" [("payload", shown response.payload)]

instance : Shown StreamingOutputCallResponse where
  shown response := record "StreamingOutputCallResponse" [("payload", shown response.payload)]

end RpcConformance.Scenario
