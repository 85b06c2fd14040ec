import Mathlib.Data.List.Basic
import RpcConformance.Message.Codec
import RpcConformance.Proofs.Json.Number
/-!
Messages as JSON documents are read back as they were written (`Spelled.decode`); with a payload of an unknown type
there is no document to write (`SimpleRequest.refused`). Each field has the members under its own name and is read from
them alone (`Holds`).
-/
namespace RpcConformance

namespace Json

open Text

theorem wholeNumber?_digits (n : Nat) : wholeNumber? (Decimal.digits n) = some (n : Int) := by
  obtain ⟨hall, hvalue, b, rest, hcons, -⟩ := Decimal.digits_spec n
  have hplain : b ≠ 0x2d := by
    rintro rfl
    exact absurd (hall 0x2d (by rw [hcons]; exact List.mem_cons_self)) (by decide)
  have hnatural : wholeNumber?.natural? (Decimal.digits n) = some n := by
    rw [wholeNumber?.natural?, if_pos (List.all_eq_true.2 hall)]
    exact congrArg some hvalue
  unfold wholeNumber?
  split
  · rename_i heq
    rw [hcons] at heq
    exact absurd (List.cons.inj heq).1 hplain
  · rw [hnatural]
    rfl

theorem wholeNumber?_negative (n : Nat) :
    wholeNumber? (0x2d :: Decimal.digits (n + 1)) = some (Int.negSucc n) := by
  obtain ⟨hall, hvalue, -⟩ := Decimal.digits_spec (n + 1)
  have hnatural : wholeNumber?.natural? (Decimal.digits (n + 1)) = some (n + 1) := by
    rw [wholeNumber?.natural?, if_pos (List.all_eq_true.2 hall)]
    exact congrArg some hvalue
  rw [wholeNumber?]
  simp only [hnatural]
  rfl

theorem int32?_int (n : Int32) : int32? (.int n.toInt) = some n := by
  have hlow : -0x80000000 ≤ n.toInt := n.le_toInt
  have hhigh : n.toInt ≤ 0x7fffffff := by
    have := n.toInt_lt
    omega
  have hread : ∃ spelling, Json.int n.toInt = .number spelling ∧ wholeNumber? spelling = some n.toInt := by
    cases n.toInt with
    | ofNat n => exact ⟨_, int_natCast n, wholeNumber?_digits n⟩
    | negSucc n => exact ⟨_, int_negSucc n, wholeNumber?_negative n⟩
  obtain ⟨spelling, hint, hwhole⟩ := hread
  rw [hint, int32?, hwhole]
  simp only [if_pos (And.intro hlow hhigh), Int32.ofInt_toInt]

theorem string_encode (bs : Bytes) :
    ∃ s, Json.string (Base64.encode true bs) = .text s ∧ Bytes.ofString s = Base64.encode true bs := by
  have hascii : ∀ b ∈ Base64.encode true bs, b < 0x80 := fun b hb =>
    UInt8.lt_trans (Base64.visible_of_mem_encode hb).2 (by decide)
  have hplain : ∀ b ∈ Base64.encode true bs, escapeByte b = [b] := by
    intro b hb
    have hvisible := (Base64.visible_of_mem_encode hb).1
    obtain ⟨hquote, hbackslash⟩ := Base64.unquoted_of_mem_encode hb
    revert hvisible hquote hbackslash
    exact Bytes.forall_byte b (by decide +kernel)
  have hself := Bytes.ofString_ascii hascii
  refine ⟨_, ?_, hself⟩
  rw [text, escape, hself, List.flatMap_congr hplain, List.flatMap_singleton']

theorem bytes?_string (bs : Bytes) : bytes? (.string (Base64.encode true bs)) = some bs := by
  obtain ⟨s, htext, hbytes⟩ := string_encode bs
  rw [htext, bytes?, string?_text, Option.bind_some, hbytes, Base64.decode?_encode]
  rfl

theorem textMembers?_ofMembers (members : List (String × Json)) :
    textMembers? (ofMembers members) = some members := by
  rw [ofMembers_eq, textMembers?]
  induction members with
  | nil => rfl
  | cons member members ih =>
    rw [List.map_cons, List.mapM_cons, ih]
    simp [spelled]

/-- The members of one field: all have its name, each can be read, and from them the field's value is. -/
structure Holds {α : Type} (name : String) (read : List Json → Option α) (value : α)
    (members : List (String × Json)) : Prop where
  name : ∀ member ∈ members, member.1 = name
  reads : ∀ member ∈ members, Reads member.2
  value : read (members.map Prod.snd) = some value

namespace Holds

variable {α : Type} {name other : String} {read : List Json → Option α} {value : α}
  {members : List (String × Json)}

theorem named_self (h : Holds name read value members) (other : String) :
    named name other members = members.map Prod.snd := by
  rw [named, ← List.filterMap_eq_map]
  exact List.filterMap_congr fun member hmember => if_pos (.inl (h.name member hmember))

theorem named_of_ne (h : Holds name read value members) {key : String} (hkey : name ≠ key) (hother : name ≠ other) :
    named key other members = [] := by
  rw [named, List.filterMap_eq_nil_iff]
  intro member hmember
  refine if_neg ?_
  rw [h.name member hmember]
  rintro (hsame | hsame)
  · exact hkey hsame
  · exact hother hsame

end Holds

@[simp] theorem single?_nil {α : Type} (read : Json → Option α) (absent : α) :
    single? read absent [] = some absent := rfl

theorem holds_nil {α : Type} (name : String) (read : Json → Option α) (absent : α) :
    Holds name (single? read absent) absent [] := ⟨nofun, nofun, rfl⟩

theorem holds_single {α : Type} {name : String} {read : Json → Option α} {absent value : α} {json : Json}
    (hreads : Reads json) (hvalue : read json = some value) :
    Holds name (single? read absent) value [(name, json)] where
  name member hmember := by rw [List.mem_singleton.1 hmember]
  reads member hmember := by rwa [List.mem_singleton.1 hmember]
  value := hvalue

theorem holds_int32Member (name : String) (n : Int32) :
    Holds name (single? int32? 0) n (int32Member name n) := by
  rw [int32Member]
  split
  · rename_i hzero
    rw [hzero]
    exact holds_nil _ _ _
  · exact holds_single (reads_int _) (int32?_int n)

theorem holds_textMember (name s : String) : Holds name (single? string? "") s (textMember name s) := by
  rw [textMember]
  split
  · rename_i hempty
    rw [hempty]
    exact holds_nil _ _ _
  · exact holds_single (reads_text s) (string?_text s)

theorem holds_bytesMember (name : String) (bs : Bytes) :
    Holds name (single? bytes? []) bs (bytesMember name bs) := by
  rw [bytesMember]
  split
  · rename_i hempty
    rw [List.isEmpty_iff.1 hempty]
    exact holds_nil _ _ _
  · obtain ⟨s, htext, -⟩ := string_encode bs
    exact holds_single (htext ▸ reads_text s) (bytes?_string bs)

end Json

open Json

/-- A message is written as an object that can be read, and that stands for the message. -/
def Spelled {α : Type} (toJson : α → Except String Json) (ofJson? : Json → Option α) (message : α) : Prop :=
  ∃ members, toJson message = .ok (.ofMembers members) ∧ (∀ member ∈ members, Reads member.2) ∧
    ofJson? (.ofMembers members) = some message

theorem holds_subMember {α : Type} (name : String) {toJson : α → Except String Json} {ofJson? : Json → Option α}
    (message : Option α) (h : ∀ sub, message = some sub → Spelled toJson ofJson? sub) :
    ∃ members, subMember name toJson message = .ok members ∧ Holds name (optional? ofJson?) message members := by
  cases message with
  | none => exact ⟨[], rfl, nofun, nofun, rfl⟩
  | some sub =>
    obtain ⟨members, hwrite, hreads, hread⟩ := h sub rfl
    refine ⟨[(name, .ofMembers members)], ?_, ?_, ?_, ?_⟩
    · rw [subMember, hwrite]
      rfl
    · intro member hmember
      rw [List.mem_singleton.1 hmember]
    · intro member hmember
      rw [List.mem_singleton.1 hmember]
      exact reads_ofMembers hreads
    · have hself : optional? ofJson? [.ofMembers members] = (ofJson? (.ofMembers members)).map some := rfl
      rw [List.map_cons, List.map_nil, hself, hread]
      rfl

theorem exists_documents {α : Type} {toJson : α → Except String Json} {ofJson? : Json → Option α} {items : List α}
    (h : ∀ item ∈ items, Spelled toJson ofJson? item) :
    ∃ documents, items.mapM toJson = .ok documents ∧ documents.mapM ofJson? = some items ∧
      (∀ document ∈ documents, Begins document) ∧ ∀ document ∈ documents, Reads document := by
  induction items with
  | nil => exact ⟨[], rfl, rfl, nofun, nofun⟩
  | cons item items ih =>
    obtain ⟨members, hwrite, hreads, hread⟩ := h item List.mem_cons_self
    obtain ⟨documents, hwrites, hread', hbegins, hreads'⟩ := ih fun item hmem => h item (List.mem_cons_of_mem _ hmem)
    refine ⟨.ofMembers members :: documents, ?_, ?_, ?_, ?_⟩
    · simp [List.mapM_cons, hwrite, hwrites]; rfl
    · simp [List.mapM_cons, hread, hread']
    · exact List.forall_mem_cons.2 ⟨begins_ofMembers members, hbegins⟩
    · exact List.forall_mem_cons.2 ⟨reads_ofMembers hreads, hreads'⟩

/-- The member of a repeated field, which is left out where there are no items, holds them. -/
theorem holds_items {α : Type} (name : String) {toJson : α → Except String Json} {ofJson? : Json → Option α}
    {items : List α} (h : ∀ item ∈ items, Spelled toJson ofJson? item) :
    ∃ documents members, items.mapM toJson = .ok documents ∧
      (if documents.isEmpty then [] else [(name, .array documents)]) = members ∧
      Holds name (single? (items? ofJson?) []) items members := by
  obtain ⟨documents, hwrite, hread, hbegins, hreads⟩ := exists_documents h
  refine ⟨documents, _, hwrite, rfl, ?_⟩
  split
  · rename_i hempty
    rw [List.isEmpty_iff.1 hempty] at hread
    obtain rfl : [] = items := Option.some.inj hread
    exact holds_nil _ _ _
  · exact holds_single (reads_array hbegins hreads) hread

theorem named_append (name other : String) (members more : List (String × Json)) :
    named name other (members ++ more) = named name other members ++ named name other more :=
  List.filterMap_append

theorem Empty.spelled (message : Empty) : Spelled toJson ofJson? message := ⟨[], rfl, nofun, rfl⟩

theorem Payload.spelled {message : Payload} (h : message.type = 0) : Spelled toJson ofJson? message := by
  obtain ⟨type, body⟩ := message
  obtain rfl : type = 0 := h
  have hbody := holds_bytesMember "body" body
  refine ⟨bytesMember "body" body, rfl, hbody.reads, ?_⟩
  rw [ofJson?, textMembers?_ofMembers]
  simp [hbody.named_self, hbody.named_of_ne, hbody.value]

theorem EchoStatus.spelled (message : EchoStatus) : Spelled toJson ofJson? message := by
  obtain ⟨code, text⟩ := message
  have hcode := holds_int32Member "code" code
  have htext := holds_textMember "message" text
  refine ⟨int32Member "code" code ++ textMember "message" text, rfl, ?_, ?_⟩
  · exact List.forall_mem_append.2 ⟨hcode.reads, htext.reads⟩
  · rw [ofJson?, textMembers?_ofMembers]
    simp [named_append, hcode.named_self, hcode.named_of_ne, htext.named_self, htext.named_of_ne, hcode.value,
      htext.value]

theorem SimpleRequest.spelled {message : SimpleRequest} (htype : message.responseType = 0)
    (hpayload : ∀ payload, message.payload = some payload → payload.type = 0) :
    Spelled toJson ofJson? message := by
  obtain ⟨type, size, payload, status⟩ := message
  obtain rfl : type = 0 := htype
  have hsize := holds_int32Member "responseSize" size
  obtain ⟨payloads, hwrite, hpayload⟩ :=
    holds_subMember "payload" payload fun sub hsub => Payload.spelled (hpayload sub hsub)
  obtain ⟨statuses, hwrite', hstatus⟩ :=
    holds_subMember "responseStatus" status fun sub _ => EchoStatus.spelled sub
  refine ⟨int32Member "responseSize" size ++ payloads ++ statuses, ?_, ?_, ?_⟩
  · rw [toJson, hwrite, hwrite']
    rfl
  · exact List.forall_mem_append.2 ⟨List.forall_mem_append.2 ⟨hsize.reads, hpayload.reads⟩, hstatus.reads⟩
  · rw [ofJson?, textMembers?_ofMembers]
    simp [named_append, hsize.named_self, hsize.named_of_ne, hpayload.named_self, hpayload.named_of_ne,
      hstatus.named_self, hstatus.named_of_ne, hsize.value, hpayload.value, hstatus.value]

theorem Payload.spelled_member {α : Type} {toJson : α → Except String Json} {ofJson? : Json → Option α}
    (having : Option Payload → α) {payload : Option Payload}
    (hwrite : toJson (having payload) = do return .ofMembers (← subMember "payload" Payload.toJson payload))
    (hread : ∀ members, ofJson? (.ofMembers members) = do
      return having (← optional? Payload.ofJson? (named "payload" "payload" members)))
    (h : ∀ sub, payload = some sub → sub.type = 0) : Spelled toJson ofJson? (having payload) := by
  obtain ⟨members, hmembers, hpayload⟩ := holds_subMember "payload" payload fun sub hsub => Payload.spelled (h sub hsub)
  refine ⟨members, ?_, hpayload.reads, ?_⟩
  · rw [hwrite, hmembers]
    rfl
  · rw [hread, hpayload.named_self, hpayload.value]
    rfl

theorem SimpleResponse.spelled {message : SimpleResponse}
    (h : ∀ payload, message.payload = some payload → payload.type = 0) : Spelled toJson ofJson? message := by
  refine Payload.spelled_member mk rfl (fun members => ?_) h
  rw [ofJson?, textMembers?_ofMembers]
  rfl

theorem StreamingInputCallRequest.spelled {message : StreamingInputCallRequest}
    (h : ∀ payload, message.payload = some payload → payload.type = 0) : Spelled toJson ofJson? message := by
  refine Payload.spelled_member mk rfl (fun members => ?_) h
  rw [ofJson?, textMembers?_ofMembers]
  rfl

theorem StreamingInputCallResponse.spelled (message : StreamingInputCallResponse) :
    Spelled toJson ofJson? message := by
  obtain ⟨size⟩ := message
  have hsize := holds_int32Member "aggregatedPayloadSize" size
  refine ⟨int32Member "aggregatedPayloadSize" size, rfl, hsize.reads, ?_⟩
  rw [ofJson?, textMembers?_ofMembers]
  simp [hsize.named_self, hsize.value]

theorem ResponseParameters.spelled (message : ResponseParameters) : Spelled toJson ofJson? message := by
  obtain ⟨size, interval⟩ := message
  have hsize := holds_int32Member "size" size
  have hinterval := holds_int32Member "intervalUs" interval
  refine ⟨int32Member "size" size ++ int32Member "intervalUs" interval, rfl, ?_, ?_⟩
  · exact List.forall_mem_append.2 ⟨hsize.reads, hinterval.reads⟩
  · rw [ofJson?, textMembers?_ofMembers]
    simp [named_append, hsize.named_self, hsize.named_of_ne, hinterval.named_self, hinterval.named_of_ne, hsize.value,
      hinterval.value]

theorem StreamingOutputCallRequest.spelled {message : StreamingOutputCallRequest} (htype : message.responseType = 0)
    (hpayload : ∀ payload, message.payload = some payload → payload.type = 0) :
    Spelled toJson ofJson? message := by
  obtain ⟨type, parameters, payload, status⟩ := message
  obtain rfl : type = 0 := htype
  obtain ⟨documents, members, hwrite, hmembers, hparameters⟩ :=
    holds_items "responseParameters" fun item (_ : item ∈ parameters) => ResponseParameters.spelled item
  obtain ⟨payloads, hwrite', hpayload⟩ :=
    holds_subMember "payload" payload fun sub hsub => Payload.spelled (hpayload sub hsub)
  obtain ⟨statuses, hwrite'', hstatus⟩ :=
    holds_subMember "responseStatus" status fun sub _ => EchoStatus.spelled sub
  refine ⟨members ++ payloads ++ statuses, ?_, ?_, ?_⟩
  · rw [toJson, hwrite, hwrite', hwrite'', ← hmembers]
    rfl
  · exact List.forall_mem_append.2 ⟨List.forall_mem_append.2 ⟨hparameters.reads, hpayload.reads⟩, hstatus.reads⟩
  · rw [ofJson?, textMembers?_ofMembers]
    simp [named_append, hparameters.named_self, hparameters.named_of_ne, hpayload.named_self, hpayload.named_of_ne,
      hstatus.named_self, hstatus.named_of_ne, hparameters.value, hpayload.value, hstatus.value]

theorem StreamingOutputCallResponse.spelled {message : StreamingOutputCallResponse}
    (h : ∀ payload, message.payload = some payload → payload.type = 0) : Spelled toJson ofJson? message := by
  refine Payload.spelled_member mk rfl (fun members => ?_) h
  rw [ofJson?, textMembers?_ofMembers]
  rfl

theorem Json.typeMember_refused {type : Int32} (h : type ≠ 0) : ∃ reason, typeMember type = .error reason :=
  ⟨_, if_neg h⟩

theorem Payload.refused {message : Payload} (h : message.type ≠ 0) : ∃ reason, toJson message = .error reason := by
  obtain ⟨reason, hreason⟩ := typeMember_refused h
  exact ⟨reason, by simp [toJson, hreason]⟩

theorem Payload.refused_member (name : String) {payload : Option Payload}
    (h : ∃ sub, payload = some sub ∧ sub.type ≠ 0) : ∃ reason, subMember name toJson payload = .error reason := by
  obtain ⟨sub, rfl, htype⟩ := h
  obtain ⟨reason, hreason⟩ := Payload.refused htype
  exact ⟨reason, by simp [subMember, hreason, Except.map]⟩

theorem Payload.refused_message {α : Type} {toJson : α → Except String Json} (having : Option Payload → α)
    {payload : Option Payload}
    (hwrite : toJson (having payload) = do return .ofMembers (← subMember "payload" Payload.toJson payload))
    (h : ∃ sub, payload = some sub ∧ sub.type ≠ 0) : ∃ reason, toJson (having payload) = .error reason := by
  obtain ⟨reason, hreason⟩ := Payload.refused_member "payload" h
  exact ⟨reason, by simp [hwrite, hreason]⟩

theorem SimpleRequest.refused {message : SimpleRequest}
    (h : message.responseType ≠ 0 ∨ ∃ payload, message.payload = some payload ∧ payload.type ≠ 0) :
    ∃ reason, toJson message = .error reason := by
  by_cases htype : message.responseType = 0
  · obtain ⟨reason, hreason⟩ := Payload.refused_member "payload" (h.resolve_left fun hne => hne htype)
    exact ⟨reason, by simp [toJson, typeMember, htype, hreason]; rfl⟩
  · obtain ⟨reason, hreason⟩ := typeMember_refused htype
    exact ⟨reason, by simp [toJson, hreason]; rfl⟩

theorem SimpleResponse.refused {message : SimpleResponse}
    (h : ∃ payload, message.payload = some payload ∧ payload.type ≠ 0) : ∃ reason, toJson message = .error reason :=
  Payload.refused_message mk rfl h

theorem StreamingInputCallRequest.refused {message : StreamingInputCallRequest}
    (h : ∃ payload, message.payload = some payload ∧ payload.type ≠ 0) : ∃ reason, toJson message = .error reason :=
  Payload.refused_message mk rfl h

theorem StreamingOutputCallRequest.refused {message : StreamingOutputCallRequest}
    (h : message.responseType ≠ 0 ∨ ∃ payload, message.payload = some payload ∧ payload.type ≠ 0) :
    ∃ reason, toJson message = .error reason := by
  obtain ⟨documents, -, hwrite, -, -⟩ :=
    holds_items "responseParameters" fun item (_ : item ∈ message.responseParameters) => ResponseParameters.spelled item
  by_cases htype : message.responseType = 0
  · obtain ⟨reason, hreason⟩ := Payload.refused_member "payload" (h.resolve_left fun hne => hne htype)
    exact ⟨reason, by simp [toJson, hwrite, typeMember, htype, hreason]; rfl⟩
  · obtain ⟨reason, hreason⟩ := typeMember_refused htype
    exact ⟨reason, by simp [toJson, hwrite, hreason]; rfl⟩

theorem StreamingOutputCallResponse.refused {message : StreamingOutputCallResponse}
    (h : ∃ payload, message.payload = some payload ∧ payload.type ≠ 0) : ∃ reason, toJson message = .error reason :=
  Payload.refused_message mk rfl h

theorem Spelled.decode {α : Type} [Message α] {message : α} (h : Spelled Message.toJson Message.ofJson? message) :
    ∃ document : Json, Codec.json.encode message = .ok document.render ∧
      Codec.json.decode document.render = .ok message := by
  obtain ⟨members, hwrite, hreads, hread⟩ := h
  have hparse := parse?_of_reads (reads_ofMembers hreads)
  have hsome : (render (.ofMembers members)).isEmpty = false := rfl
  refine ⟨.ofMembers members, by rw [Codec.encode, hwrite], ?_⟩
  rw [Codec.decode, hparse, Option.bind_some, hread]
  simp [hsome]

end RpcConformance
