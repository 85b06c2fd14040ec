import RpcConformance.Client.EndStream
import RpcConformance.Proofs.Metadata.Json
import RpcConformance.Proofs.Trailers
import RpcConformance.Server.Response
/-!
The end of a Connect stream: the document that a server writes is read as the end it was written for
(`parse?_endStreamMessage`).
-/
namespace RpcConformance

namespace Status

theorem fieldsNamed_spelled (name : String) (members : List (String × Json)) :
    fieldsNamed name (members.map Json.spelled) = under name members := by
  rw [fieldsNamed, under, List.filterMap_map]
  congr 1
  funext member
  simp [Json.spelled]

theorem haveTextKeys_spelled (members : List (String × Json)) :
    haveTextKeys (members.map Json.spelled) = true := by
  simp [haveTextKeys, Json.spelled]

theorem Body.written_toJson (body : Body) : Json.Written body.toJson := by
  refine .object fun member hmember => ?_
  obtain ⟨code, message⟩ := body
  rcases List.mem_cons.1 hmember with rfl | hmessage
  · exact .text code
  · cases message with
    | none => cases hmessage
    | some message =>
      rw [List.mem_singleton.1 hmessage]
      exact .text message

theorem Body.ofJson?_toJson (body : Body) : Body.ofJson? body.toJson = some body := by
  obtain ⟨code, message⟩ := body
  rw [Body.toJson, Json.ofMembers_eq, Body.ofJson?, haveTextKeys_spelled, if_pos rfl, fieldsNamed_spelled,
    fieldsNamed_spelled]
  cases message with
  | none => simp [Body.members, under]
  | some message =>
    have hoptional : optionalText? (.text message) = some (some message) := by
      have hself : optionalText? (.text message) = (Json.text message).string?.map some := rfl
      rw [hself, Json.string?_text]
      rfl
    simp [Body.members, under, hoptional]

end Status

namespace Client.EndStream

open Server

def membersOf (call : EndOfCall) : List (String × Json) :=
  (match call.1 with
    | .ok () => []
    | .error status => [("error", status.toBody.toJson)]) ++
  if call.2.isEmpty then [] else [("metadata", call.2.toJson)]

theorem endStreamMessage_eq (call : EndOfCall) : endStreamMessage call = .ofMembers (membersOf call) := rfl

theorem written_endStreamMessage (call : EndOfCall) : Json.Written (endStreamMessage call) := by
  refine .object fun member hmember => ?_
  rcases List.mem_append.1 hmember with herror | hmetadata
  · cases houtcome : call.1 with
    | ok =>
      rw [houtcome] at herror
      cases herror
    | error status =>
      rw [houtcome] at herror
      rw [List.mem_singleton.1 herror]
      exact status.toBody.written_toJson
  · split at hmetadata
    · cases hmetadata
    · rw [List.mem_singleton.1 hmetadata]
      exact call.2.written_toJson

theorem length_message_le (status : Status) (trailers : Metadata) :
    (Bytes.ofString status.message).length ≤ (endStreamMessage (.error status, trailers)).render.length := by
  by_cases hempty : status.message = ""
  · rw [hempty]
    exact Nat.zero_le _
  have hmessage : ("message", Json.text status.message) ∈ status.toBody.members := by
    rw [Status.toBody, if_neg hempty]
    exact List.mem_cons_of_mem _ List.mem_cons_self
  have herror : ("error", status.toBody.toJson) ∈ membersOf (.error status, trailers) :=
    List.mem_append_left _ List.mem_cons_self
  calc (Bytes.ofString status.message).length
      ≤ (Json.escape status.message).length := Json.length_le_escape _
    _ ≤ (Json.text status.message).render.length := by
      rw [Json.text, Json.render, List.length_append, List.length_cons]
      omega
    _ ≤ status.toBody.toJson.render.length := Json.length_render_le hmessage
    _ ≤ (endStreamMessage (.error status, trailers)).render.length := Json.length_render_le herror

theorem error?_toJson (body : Status.Body) : error? body.toJson = some (some body) := by
  have hself : error? body.toJson = (Status.Body.ofJson? body.toJson).map some := rfl
  rw [hself, body.ofJson?_toJson]
  rfl

theorem metadata?_toJson (metadata : Metadata) :
    metadata? metadata.toJson = some (.ofJsonMembers (metadata.jsonMembers.map Json.spelled)) := by
  have hreadable : metadata.toJson.isReadable (Json.maxDepth - 1) = true := metadata.isReadable_toJson _
  have hself : metadata? metadata.toJson =
      if metadata.toJson.isReadable (Json.maxDepth - 1) then
        some (.ofJsonMembers (metadata.jsonMembers.map Json.spelled)) else none := rfl
  rw [hself, if_pos hreadable]

def metadataRead (metadata : Metadata) : Metadata :=
  if metadata.isEmpty then .empty else .ofJsonMembers (metadata.jsonMembers.map Json.spelled)

theorem sameValues_metadataRead {metadata : Metadata} (h : metadata.Portable) :
    (metadataRead metadata).SameValues metadata := by
  rw [metadataRead]
  split
  · rename_i hempty
    obtain ⟨entries⟩ := metadata
    rw [Metadata.isEmpty, List.isEmpty_iff] at hempty
    rw [Metadata.empty, ← hempty]
    exact fun _ => rfl
  · exact Metadata.sameValues_ofJsonMembers h.legible

/-- The document at the end of a stream is read as the outcome and the metadata it was written for. -/
theorem parse?_endStreamMessage (outcome : Outcome) (trailers : Metadata) :
    ∃ ending, parse? (endStreamMessage (outcome, trailers)).render = some ending ∧
      ending.outcome = outcome ∧ ending.metadata = metadataRead trailers := by
  have herrors : under "error" (membersOf (outcome, trailers)) =
      match outcome with
      | .ok () => []
      | .error status => [status.toBody.toJson] := by
    rw [membersOf]
    cases outcome <;> by_cases hempty : trailers.isEmpty = true <;> simp [hempty, under]
  have hmetadata : under "metadata" (membersOf (outcome, trailers)) =
      if trailers.isEmpty then [] else [trailers.toJson] := by
    rw [membersOf]
    cases outcome <;> by_cases hempty : trailers.isEmpty = true <;> simp [hempty, under]
  rw [parse?, Json.parse?_render (written_endStreamMessage _), Option.bind_some, endStreamMessage_eq,
    Json.ofMembers_eq, ofJson?, Status.haveTextKeys_spelled, if_pos rfl, Status.fieldsNamed_spelled,
    Status.fieldsNamed_spelled, herrors, hmetadata]
  rw [metadataRead]
  cases outcome with
  | ok =>
    by_cases hempty : trailers.isEmpty = true
    · simp [ofFields?, hempty, EndStream.outcome]
    · simp [ofFields?, hempty, EndStream.outcome, metadata?_toJson]
  | error status =>
    by_cases hempty : trailers.isEmpty = true
    · simp [ofFields?, hempty, EndStream.outcome, error?_toJson]
    · simp [ofFields?, hempty, EndStream.outcome, error?_toJson, metadata?_toJson]

end Client.EndStream
end RpcConformance
