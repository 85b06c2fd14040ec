import RpcConformance.Message.Codec
import RpcConformance.Proofs.Wire.RoundTrip
/-!
Messages in the binary format are read back as they were written, as long as their length can be told
(`decode_write`). Each field takes the message read so far to the one with that field set (`Updates`).
-/
namespace RpcConformance

open Wire

variable {α β : Type}

/-- Bytes whose fields, merged into one message, give another. -/
def Updates (merge : α → Field → Option α) (bs : Bytes) (old new : α) : Prop :=
  bs.length < wordBound → ∃ fields, Spells bs fields ∧ fields.foldlM merge old = some new

namespace Updates

variable {merge : α → Field → Option α} {old middle new : α}

theorem nil (message : α) : Updates merge [] message message := fun _ => ⟨[], spells_nil, rfl⟩

theorem append {bs bs' : Bytes} (h : Updates merge bs old middle) (h' : Updates merge bs' middle new) :
    Updates merge (bs ++ bs') old new := by
  intro hlength
  rw [List.length_append] at hlength
  obtain ⟨fields, hspells, hfold⟩ := h (by omega)
  obtain ⟨fields', hspells', hfold'⟩ := h' (by omega)
  refine ⟨fields ++ fields', hspells.append hspells', ?_⟩
  rw [List.foldlM_append, hfold]
  exact hfold'

/-- The field of a number sets it; where it is not written, zero is there already. -/
theorem int32Field {number : Nat} (hnumber : IsFieldNumber number) {n : Int32} (hzero : n = 0 → old = new)
    (hmerge : merge old ⟨number, .number (wordOf n)⟩ = some new) :
    Updates merge (int32Field number n) old new := by
  rw [Wire.int32Field]
  split
  · rename_i hn
    rw [hzero hn]
    exact nil new
  · exact fun _ => ⟨_, spells_number hnumber (wordOf_lt n), by rw [List.foldlM_cons, hmerge]; rfl⟩

theorem delimitedField {number : Nat} (hnumber : IsFieldNumber number) {bs : Bytes}
    (hmerge : bs.length < wordBound → merge old ⟨number, .bytes bs⟩ = some new) :
    Updates merge (delimitedField number bs) old new := by
  intro hlength
  have hbs : bs.length < wordBound := by
    rw [Wire.delimitedField, List.length_append] at hlength
    omega
  exact ⟨_, spells_delimitedField hnumber hbs, by rw [List.foldlM_cons, hmerge hbs]; rfl⟩

/-- The field of a byte string sets it; where it is not written, the empty one is there already. -/
theorem bytesField {number : Nat} (hnumber : IsFieldNumber number) {bs : Bytes} (hempty : bs = [] → old = new)
    (hmerge : merge old ⟨number, .bytes bs⟩ = some new) : Updates merge (bytesField number bs) old new := by
  rw [Wire.bytesField]
  split
  · rename_i hbs
    rw [hempty (List.isEmpty_iff.1 hbs)]
    exact nil new
  · exact delimitedField hnumber fun _ => hmerge

theorem textField {number : Nat} (hnumber : IsFieldNumber number) {s : String} (hempty : s = "" → old = new)
    (hmerge : ∀ value : Value, value.text? = some s → merge old ⟨number, value⟩ = some new) :
    Updates merge (textField number s) old new := by
  refine bytesField hnumber (fun hs => hempty ?_) (hmerge _ (Bytes.text?_ofString s))
  have htext := Bytes.text?_ofString s
  rw [hs] at htext
  exact (Option.some.inj htext).symm

/-- What is read of the bytes that lead to a message is that message. -/
theorem mergeFields_eq {bs : Bytes} (h : Updates merge bs old new) (hlength : bs.length < wordBound) (depth : Nat) :
    mergeFields merge depth old bs = some new := by
  obtain ⟨fields, hspells, hfold⟩ := h hlength
  rw [mergeFields, fields?_of_spells hspells]
  exact hfold

/-- The field of a sub-message sets it; where there is none, none is there already. -/
theorem subField [Inhabited β] {number : Nat} (hnumber : IsFieldNumber number) {write : β → Bytes}
    {mergeSub : β → Field → Option β} (hsub : ∀ sub, Updates mergeSub (write sub) default sub) {message : Option β}
    (hnone : message = none → old = new)
    (hmerge : ∀ value sub, message = some sub → mergeInto mergeSub (maxDepth - 1) none value = some (some sub) →
      merge old ⟨number, value⟩ = some new) :
    Updates merge (subField number write message) old new := by
  cases message with
  | none =>
    rw [hnone rfl]
    exact nil new
  | some sub =>
    refine delimitedField hnumber fun hlength => hmerge _ sub rfl ?_
    have hread := (hsub sub).mergeFields_eq hlength (maxDepth - 1)
    rw [mergeInto, Option.getD_none, Value.bytes?, Option.bind_eq_bind, Option.bind_some, hread]
    rfl

/-- Fields one after the other, each of which adds its item to those that the message has. -/
theorem flatMap {ι : Type} {write : ι → Bytes} (having : List ι → α)
    (h : ∀ items item, Updates merge (write item) (having items) (having (items ++ [item]))) (items more : List ι) :
    Updates merge (more.flatMap write) (having items) (having (items ++ more)) := by
  induction more generalizing items with
  | nil => simpa using nil (having items)
  | cons item more ih => simpa using (h items item).append (ih (items ++ [item]))

end Updates

theorem Empty.updates_write (message : Empty) : Updates merge message.write default message := .nil _

theorem Payload.updates_write (message : Payload) : Updates merge message.write default message := by
  obtain ⟨type, body⟩ := message
  have htype : Updates merge (int32Field 1 type) ⟨0, []⟩ ⟨type, []⟩ :=
    .int32Field (by decide) (fun h => by rw [h]) (by simp [merge, Value.int32?])
  have hbody : Updates merge (bytesField 2 body) ⟨type, []⟩ ⟨type, body⟩ :=
    .bytesField (by decide) (fun h => by rw [h]) rfl
  exact htype.append hbody

theorem EchoStatus.updates_write (message : EchoStatus) : Updates merge message.write default message := by
  obtain ⟨code, text⟩ := message
  have hcode : Updates merge (int32Field 1 code) ⟨0, ""⟩ ⟨code, ""⟩ :=
    .int32Field (by decide) (fun h => by rw [h]) (by simp [merge, Value.int32?])
  have htext : Updates merge (textField 2 text) ⟨code, ""⟩ ⟨code, text⟩ :=
    .textField (by decide) (fun h => by rw [h]) fun value h => by simp [merge, h]
  exact hcode.append htext

theorem SimpleRequest.updates_write (message : SimpleRequest) : Updates merge message.write default message := by
  obtain ⟨type, size, payload, status⟩ := message
  have htype : Updates merge (int32Field 1 type) ⟨0, 0, none, none⟩ ⟨type, 0, none, none⟩ :=
    .int32Field (by decide) (fun h => by rw [h]) (by simp [merge, Value.int32?])
  have hsize : Updates merge (int32Field 2 size) ⟨type, 0, none, none⟩ ⟨type, size, none, none⟩ :=
    .int32Field (by decide) (fun h => by rw [h]) (by simp [merge, Value.int32?])
  have hpayload : Updates merge (subField 3 Payload.write payload) ⟨type, size, none, none⟩
      ⟨type, size, payload, none⟩ :=
    .subField (by decide) Payload.updates_write (fun h => by rw [h]) fun value sub h hread => by
      simp [merge, hread, h]
  have hstatus : Updates merge (subField 7 EchoStatus.write status) ⟨type, size, payload, none⟩
      ⟨type, size, payload, status⟩ :=
    .subField (by decide) EchoStatus.updates_write (fun h => by rw [h]) fun value sub h hread => by
      simp [merge, hread, h]
  exact ((htype.append hsize).append hpayload).append hstatus

theorem Payload.updates_field {α : Type} {merge : α → Field → Option α} (having : Option Payload → α)
    (hmerge : ∀ value sub, mergeInto Payload.merge (maxDepth - 1) none value = some (some sub) →
      merge (having none) ⟨1, value⟩ = some (having (some sub))) (payload : Option Payload) :
    Updates merge (subField 1 Payload.write payload) (having none) (having payload) := by
  refine .subField (by decide) Payload.updates_write (fun h => by rw [h]) ?_
  intro value sub h hread
  rw [h, hmerge value sub hread]

theorem SimpleResponse.updates_write (message : SimpleResponse) : Updates merge message.write default message :=
  Payload.updates_field mk (fun value sub h => by simp [merge, h]) message.payload

theorem StreamingInputCallRequest.updates_write (message : StreamingInputCallRequest) :
    Updates merge message.write default message :=
  Payload.updates_field mk (fun value sub h => by simp [merge, h]) message.payload

theorem StreamingInputCallResponse.updates_write (message : StreamingInputCallResponse) :
    Updates merge message.write default message := by
  obtain ⟨size⟩ := message
  have hsize : Updates merge (int32Field 1 size) ⟨0⟩ ⟨size⟩ :=
    .int32Field (by decide) (fun h => by rw [h]) (by simp [merge, Value.int32?])
  exact hsize

theorem ResponseParameters.updates_write (message : ResponseParameters) :
    Updates merge message.write default message := by
  obtain ⟨size, interval⟩ := message
  have hsize : Updates merge (int32Field 1 size) ⟨0, 0⟩ ⟨size, 0⟩ :=
    .int32Field (by decide) (fun h => by rw [h]) (by simp [merge, Value.int32?])
  have hinterval : Updates merge (int32Field 2 interval) ⟨size, 0⟩ ⟨size, interval⟩ :=
    .int32Field (by decide) (fun h => by rw [h]) (by simp [merge, Value.int32?])
  exact hsize.append hinterval

theorem StreamingOutputCallRequest.updates_write (message : StreamingOutputCallRequest) :
    Updates merge message.write default message := by
  obtain ⟨type, parameters, payload, status⟩ := message
  have htype : Updates merge (int32Field 1 type) ⟨0, [], none, none⟩ ⟨type, [], none, none⟩ :=
    .int32Field (by decide) (fun h => by rw [h]) (by simp [merge, Value.int32?])
  -- Every occurrence of the repeated field is a sub-message of its own.
  have hparameter (items : List ResponseParameters) (item : ResponseParameters) :
      Updates merge (delimitedField 2 item.write) ⟨type, items, none, none⟩ ⟨type, items ++ [item], none, none⟩ := by
    show Updates merge (subField 2 ResponseParameters.write (some item)) _ _
    refine .subField (by decide) ResponseParameters.updates_write nofun ?_
    rintro value sub ⟨⟩ hread
    simp [merge, hread]
  have hparameters : Updates merge (parameters.flatMap fun item => delimitedField 2 item.write)
      ⟨type, [], none, none⟩ ⟨type, parameters, none, none⟩ :=
    .flatMap (StreamingOutputCallRequest.mk type · none none) hparameter [] parameters
  have hpayload : Updates merge (subField 3 Payload.write payload) ⟨type, parameters, none, none⟩
      ⟨type, parameters, payload, none⟩ :=
    .subField (by decide) Payload.updates_write (fun h => by rw [h]) fun value sub h hread => by
      simp [merge, hread, h]
  have hstatus : Updates merge (subField 7 EchoStatus.write status) ⟨type, parameters, payload, none⟩
      ⟨type, parameters, payload, status⟩ :=
    .subField (by decide) EchoStatus.updates_write (fun h => by rw [h]) fun value sub h hread => by
      simp [merge, hread, h]
  exact ((htype.append hparameters).append hpayload).append hstatus

theorem StreamingOutputCallResponse.updates_write (message : StreamingOutputCallResponse) :
    Updates merge message.write default message :=
  Payload.updates_field mk (fun value sub h => by simp [merge, h]) message.payload

/-- A message is read from its binary form, as long as its length can be told. -/
theorem Codec.decode_write [Message α] {message : α}
    (h : Updates Message.merge (Message.write message) default message)
    (hlength : (Message.write message).length < wordBound) :
    Codec.proto.decode (Message.write message) = .ok message := by
  rw [decode, h.mergeFields_eq hlength]

end RpcConformance
