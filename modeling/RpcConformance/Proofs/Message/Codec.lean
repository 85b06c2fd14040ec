import RpcConformance.Proofs.Message.Binary
import RpcConformance.Proofs.Message.Json
/-!
Messages in either format: what can be written in both is read back from both (`carries_of`), and a response with a
payload of a size that a request can ask for has a length that an envelope can tell (`length_encode_lt`).
-/
namespace RpcConformance

open Wire

namespace Codec

/-- A message that is written in a format and, where the length of that can be told, read back from it. -/
def Carries {α : Type} [Message α] (codec : Codec) (message : α) : Prop :=
  ∃ bytes, codec.encode message = .ok bytes ∧ (bytes.length < wordBound → codec.decode bytes = .ok message)

theorem carries_of {α : Type} [Message α] {message : α}
    (hbinary : Updates Message.merge (Message.write message) default message)
    (hjson : Spelled Message.toJson Message.ofJson? message) (codec : Codec) : codec.Carries message := by
  cases codec with
  | proto => exact ⟨_, rfl, decode_write hbinary⟩
  | json =>
    obtain ⟨document, hencode, hdecode⟩ := hjson.decode
    exact ⟨_, hencode, fun _ => hdecode⟩

end Codec

theorem Json.length_render_single (name : String) (value : Json) :
    (render (ofMembers [(name, value)])).length = (escape name).length + (render value).length + 5 := by
  rw [render_ofMembers, renderMembers_single]
  simp only [List.length_append, List.length_cons, List.length_nil]
  omega

theorem Payload.length_write_le {body : Bytes} (h : body.length < 0x80000000) :
    (Payload.write { body }).length ≤ body.length + 6 := by
  have hself : Payload.write { body } = bytesField 2 body := rfl
  rw [hself, bytesField]
  split
  · exact Nat.zero_le _
  · exact length_delimitedField_le (by decide) (by omega)

/-- A field with a payload takes little more than the bytes of the payload. -/
theorem Payload.length_field_le {body : Bytes} (h : body.length < 0x80000000) :
    (delimitedField 1 (Payload.write { body })).length ≤ body.length + 12 := by
  have hinner := Payload.length_write_le h
  have houter : (delimitedField 1 (Payload.write { body })).length ≤ (Payload.write { body }).length + 6 :=
    length_delimitedField_le (by decide) (by omega)
  omega

/-- A response with a payload of a size that a request can ask for has a length that an envelope can tell. -/
theorem Codec.length_encode_lt {codec : Codec} {body bytes : Bytes} (h : body.length < 0x80000000)
    (hencode : codec.encode ({ payload := some { body } } : SimpleResponse) = .ok bytes) :
    bytes.length < 0x100000000 := by
  cases codec with
  | proto =>
    have hfield := Payload.length_field_le h
    obtain rfl : delimitedField 1 (Payload.write { body }) = bytes := Except.ok.inj hencode
    omega
  | json =>
    obtain rfl : (Json.ofMembers [("payload", .ofMembers (Json.bytesMember "body" body))]).render = bytes :=
      Except.ok.inj hencode
    have hpayload : (Json.escape "payload").length = 7 := by decide +kernel
    have hbody : (Json.escape "body").length = 4 := by decide +kernel
    rw [Json.length_render_single, hpayload, Json.bytesMember]
    split
    · have hempty : (Json.render (.ofMembers [])).length = 2 := rfl
      omega
    · have hspelled : (Json.render (.string (Text.Base64.encode true body))).length =
          (Text.Base64.encode true body).length + 2 := by
        simp [Json.render]
      rw [Json.length_render_single, hbody, hspelled, Text.Base64.length_encode_padded]
      omega

end RpcConformance
