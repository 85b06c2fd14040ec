import RpcConformance.Proofs.Client.CleanEnd
/-!
The forms in which a response tells that its call ended well. Each protocol has its own (`OwnEnd`): Connect an envelope
at the end of the stream, gRPC the trailers after the body, gRPC-Web an envelope with the trailers, and the latter two
a response that is over with its headers. A call is reported to have gone well in one of these forms, and besides by
trailers after the body whatever the protocol is (`ended_ok_iff`, `foreign_trailers_succeed`).
-/
namespace RpcConformance.Client

theorem EndStream.outcome_eq_ok_iff {ending : EndStream} : ending.outcome = .ok () ↔ ending.error = none := by
  rw [EndStream.outcome]
  cases ending.error <;> simp

namespace Exchange

open Http Envelope

/-- Header fields that tell a good end with its trailers. -/
def TellsOk (fields : HeaderMap) (trailers : Metadata) : Prop :=
  Trailers.readStatus? fields = some (.ok ()) ∧ trailers = .ofHeaders fields

variable {Res : Type}

theorem endOfTrailers_ok_iff {fields : HeaderMap} {trailers : Metadata} :
    (endOfTrailers fields : Event Res) = .ended (.ok ()) trailers ↔ TellsOk fields trailers := by
  rw [endOfTrailers, TellsOk, Event.ended.injEq, @eq_comm _ trailers]
  cases Trailers.readStatus? fields <;> simp

theorem endOfStream_ok_iff {document : Bytes} {trailers : Metadata} :
    (endOfStream document : Event Res) = .ended (.ok ()) trailers ↔
      ∃ ending, EndStream.parse? document = some ending ∧ ending.error = none ∧ trailers = ending.metadata := by
  rw [endOfStream]
  cases hending : EndStream.parse? document with
  | none => simp [failed]
  | some ending => simp [EndStream.outcome_eq_ok_iff, @eq_comm _ trailers]

theorem endOfBlock_ok_iff {block : Bytes} {trailers : Metadata} :
    (endOfBlock block : Event Res) = .ended (.ok ()) trailers ↔
      ∃ fields, Trailers.decodeBlock block = .ok fields ∧ TellsOk fields trailers := by
  rw [endOfBlock]
  cases hblock : Trailers.decodeBlock block with
  | error status => simp [failed]
  | ok fields => simp [endOfTrailers_ok_iff]

/-- An envelope that tells a good end, in the form of its protocol. -/
inductive Marks : Protocol → Envelope → Metadata → Prop
  /-- The end of a Connect stream, without an error. -/
  | endStream {document : Bytes} {ending : EndStream} (reads : EndStream.parse? document = some ending)
      (good : ending.error = none) : Marks .connect ⟨endStreamFlags, document⟩ ending.metadata
  /-- The trailers of a gRPC-Web response. -/
  | block {block : Bytes} {fields : HeaderMap} {trailers : Metadata} (reads : Trailers.decodeBlock block = .ok fields)
      (good : TellsOk fields trailers) : Marks .grpcWeb ⟨trailerFlags, block⟩ trailers

variable [Message Res]

/-- An envelope is taken for a good end just in the form of its protocol. -/
theorem ofEnvelope_ok_iff {protocol : Protocol} {codec : Codec} {envelope : Envelope} {trailers : Metadata} :
    (ofEnvelope protocol codec envelope : Event Res) = .ended (.ok ()) trailers ↔ Marks protocol envelope trailers := by
  obtain ⟨flags, payload⟩ := envelope
  constructor
  · intro h
    rw [ofEnvelope] at h
    split at h
    · split at h <;> cases h
    · split at h
      · rename_i hstream
        obtain ⟨rfl, rfl⟩ : protocol = .connect ∧ flags = endStreamFlags := hstream
        obtain ⟨ending, hreads, hgood, rfl⟩ := endOfStream_ok_iff.1 h
        exact .endStream hreads hgood
      · split at h
        · rename_i hblock
          obtain ⟨rfl, rfl⟩ : protocol = .grpcWeb ∧ flags = trailerFlags := hblock
          obtain ⟨fields, hreads, hgood⟩ := endOfBlock_ok_iff.1 h
          exact .block hreads hgood
        · cases h
  · rintro (⟨hreads, hgood⟩ | ⟨hreads, hgood⟩)
    · have hself : (ofEnvelope .connect codec ⟨endStreamFlags, payload⟩ : Event Res) = endOfStream payload := rfl
      rw [hself]
      exact endOfStream_ok_iff.2 ⟨_, hreads, hgood, rfl⟩
    · have hself : (ofEnvelope .grpcWeb codec ⟨trailerFlags, payload⟩ : Event Res) = endOfBlock payload := rfl
      rw [hself]
      exact endOfBlock_ok_iff.2 ⟨_, hreads, hgood⟩

/-- A body that begins with messages, each in an envelope, before `rest`. -/
def Precedes (Res : Type) [Message Res] (codec : Codec) (rest body : Bytes) : Prop :=
  ∃ sent : List (Res × Bytes), Holds codec sent ∧ (∀ payload ∈ sent.map Prod.snd, payload.length < lengthBound) ∧
    body = (sent.map Prod.snd).flatMap (wrap messageFlags) ++ rest

/-- A body tells a good end by an envelope in the form of its protocol, behind messages; what comes after that
envelope is not looked at. -/
def InEnvelope (Res : Type) [Message Res] (protocol : Protocol) (codec : Codec) (response : Http.Response)
    (trailers : Metadata) : Prop :=
  ∃ marker more, marker.payload.length < lengthBound ∧ Marks protocol marker trailers ∧
    Precedes Res codec (marker.toBytes ++ more) (content response.body).1

/-- Trailers after a body tell a good end, behind messages and no other whole envelope. -/
def InTrailers (Res : Type) [Message Res] (codec : Codec) (response : Http.Response) (trailers : Metadata) : Prop :=
  ∃ part fields, Decoder.next ⟨.unlimited, part⟩ = .ok none ∧ TellsOk fields trailers ∧
    Precedes Res codec part (content response.body).1 ∧ (content response.body).2 = some fields

theorem mem_ofDrained_iff {protocol : Protocol} {codec : Codec} {response : Http.Response} {trailers : Metadata} :
    (.ended (.ok ()) trailers : Event Res) ∈ ofDrained protocol codec response.failure (content response.body).2
        (Decoder.drain ⟨.unlimited, (content response.body).1⟩) ↔
      InEnvelope Res protocol codec response trailers ∨ InTrailers Res codec response trailers := by
  have hlast (sent : List (Res × Bytes)) : (.ended (.ok ()) trailers : Event Res) ∈
      (sent.map Prod.fst).map .message ++ [.ended (.ok ()) trailers] := by simp
  constructor
  · intro h
    obtain ⟨sent, rest, hholds, hlengths, hbytes, hclosing⟩ := closing_of_mem_ofDrained h
    cases hfields : (content response.body).2 with
    | none =>
      rw [hfields] at hclosing
      cases hclosing with
      | envelope more _ hlength htells =>
        exact .inl ⟨_, more, hlength, ofEnvelope_ok_iff.1 htells, sent, hholds, hlengths, hbytes⟩
    | some fields =>
      rw [hfields] at hclosing
      cases hclosing with
      | envelope more _ hlength htells =>
        exact .inl ⟨_, more, hlength, ofEnvelope_ok_iff.1 htells, sent, hholds, hlengths, hbytes⟩
      | trailers hbegun htells =>
        exact .inr ⟨rest, fields, hbegun, endOfTrailers_ok_iff.1 htells, ⟨sent, hholds, hlengths, hbytes⟩, hfields⟩
  · rintro (⟨marker, more, hlength, hmarks, sent, hholds, hlengths, hbytes⟩ |
      ⟨part, fields, hbegun, htells, ⟨sent, hholds, hlengths, hbytes⟩, hfields⟩)
    · rw [hbytes, ofDrained_of_closing _ hholds hlengths (.envelope more _ hlength (ofEnvelope_ok_iff.2 hmarks))]
      exact hlast sent
    · rw [hbytes, hfields,
        ofDrained_of_closing _ hholds hlengths (.trailers hbegun (endOfTrailers_ok_iff.2 htells))]
      exact hlast sent

/-- A response tells a good end in the form of its protocol. -/
inductive OwnEnd (Res : Type) [Message Res] (codec : Codec) (response : Http.Response) (trailers : Metadata) :
    Protocol → Prop
  /-- Over gRPC and gRPC-Web the headers may tell it at once. -/
  | headers {protocol : Protocol} (other : protocol ≠ .connect) (tells : TellsOk response.headers trailers) :
      OwnEnd Res codec response trailers protocol
  /-- Over Connect and gRPC-Web an envelope tells it. -/
  | envelope {protocol : Protocol} (opened : endOfHeaders? protocol response.headers = none)
      (tells : InEnvelope Res protocol codec response trailers) : OwnEnd Res codec response trailers protocol
  /-- Over gRPC the trailers tell it. -/
  | trailers (opened : endOfHeaders? .grpc response.headers = none)
      (tells : InTrailers Res codec response trailers) : OwnEnd Res codec response trailers .grpc

omit [Message Res] in
theorem endOfHeaders?_eq_some_iff {protocol : Protocol} {headers : HeaderMap} {outcome : Outcome} :
    endOfHeaders? protocol headers = some outcome ↔
      protocol ≠ .connect ∧ Trailers.readStatus? headers = some outcome := by
  rw [endOfHeaders?]
  split <;> simp_all

section Response

variable {protocol : Protocol} (codec : Codec) {response : Http.Response} (hstatus : response.status = 200)
  (trailers : Metadata)

include hstatus

theorem ended_ok_iff_of_told {outcome : Outcome} (htold : endOfHeaders? protocol response.headers = some outcome) :
    (.ended (.ok ()) trailers : Event Res) ∈ events protocol codec response ↔ TellsOk response.headers trailers := by
  have hread := (endOfHeaders?_eq_some_iff.1 htold).2
  rw [events_of_told codec hstatus htold, List.mem_singleton, Event.ended.injEq, TellsOk, hread, Option.some.injEq,
    @eq_comm _ outcome]

theorem ended_ok_iff_of_open (hopen : endOfHeaders? protocol response.headers = none) :
    (.ended (.ok ()) trailers : Event Res) ∈ events protocol codec response ↔
      InEnvelope Res protocol codec response trailers ∨ InTrailers Res codec response trailers := by
  rw [events_of_open protocol codec hstatus hopen, List.mem_cons, mem_ofDrained_iff]
  simp

end Response

/-- A call is reported to have gone well just when its response has status 200 and tells so in the form of its protocol,
or else, over a protocol that has no trailers after the body, in such trailers. -/
theorem ended_ok_iff (protocol : Protocol) (codec : Codec) (response : Http.Response) (trailers : Metadata) :
    (.ended (.ok ()) trailers : Event Res) ∈ events protocol codec response ↔
      response.status = 200 ∧
        (OwnEnd Res codec response trailers protocol ∨
          protocol ≠ .grpc ∧ endOfHeaders? protocol response.headers = none ∧ InTrailers Res codec response trailers) := by
  by_cases hstatus : response.status = 200
  · cases hopen : endOfHeaders? protocol response.headers with
    | some outcome =>
      rw [ended_ok_iff_of_told codec hstatus trailers hopen]
      constructor
      · intro htells
        exact ⟨hstatus, .inl (.headers (endOfHeaders?_eq_some_iff.1 hopen).1 htells)⟩
      · rintro ⟨-, howner | ⟨-, hnone, -⟩⟩
        · cases howner with
          | headers _ tells => exact tells
          | envelope opened _ => cases hopen.symm.trans opened
          | trailers opened _ => cases hopen.symm.trans opened
        · cases hnone
    | none =>
      rw [ended_ok_iff_of_open codec hstatus trailers hopen]
      constructor
      · rintro (henvelope | htrailers)
        · exact ⟨hstatus, .inl (.envelope hopen henvelope)⟩
        · by_cases hgrpc : protocol = .grpc
          · subst hgrpc
            exact ⟨hstatus, .inl (.trailers hopen htrailers)⟩
          · exact ⟨hstatus, .inr ⟨hgrpc, rfl, htrailers⟩⟩
      · rintro ⟨-, howner | ⟨-, -, htrailers⟩⟩
        · cases howner with
          | headers other tells => cases hopen.symm.trans (endOfHeaders?_eq_some_iff.2 ⟨other, tells.1⟩)
          | envelope _ henvelope => exact .inl henvelope
          | trailers _ htrailers => exact .inr htrailers
        · exact .inr htrailers
  · rw [events, if_pos hstatus]
    simp [failed, hstatus]

def onlyTrailers : Http.Response := ⟨200, .empty, [.trailers goodTrailers], none⟩

theorem ended_ok_onlyTrailers (protocol : Protocol) :
    (.ended (.ok ()) .empty : Event Empty) ∈ events protocol .proto onlyTrailers := by
  have hcontent : content onlyTrailers.body = ([], some goodTrailers) := rfl
  have hend : (ofDrained protocol .proto none (some goodTrailers) ([], none, ⟨.unlimited, []⟩) : List (Event Empty)) =
      [endOfTrailers goodTrailers] := rfl
  rw [events_of_open protocol .proto rfl (endOfHeaders?_empty protocol), hcontent, drain_empty]
  simp [hend, endOfTrailers_goodTrailers, onlyTrailers]

theorem not_ownEnd_onlyTrailers {protocol : Protocol} (h : protocol ≠ .grpc) :
    ¬OwnEnd Empty .proto onlyTrailers .empty protocol := by
  intro howner
  cases howner with
  | headers _ tells => cases tells.1
  | envelope _ tells =>
    obtain ⟨marker, more, -, -, sent, -, -, hbytes⟩ := tells
    have hlength := congrArg List.length hbytes
    simp [onlyTrailers, content, toBytes, wrap] at hlength
  | trailers => exact h rfl

/-- Trailers after the body make a call succeed over Connect and gRPC-Web too, which do not have them. -/
theorem foreign_trailers_succeed :
    ((.ended (.ok ()) .empty : Event Empty) ∈ events .connect .proto onlyTrailers ∧
      ¬OwnEnd Empty .proto onlyTrailers .empty .connect) ∧
    (.ended (.ok ()) .empty : Event Empty) ∈ events .grpcWeb .proto onlyTrailers ∧
      ¬OwnEnd Empty .proto onlyTrailers .empty .grpcWeb :=
  ⟨⟨ended_ok_onlyTrailers .connect, not_ownEnd_onlyTrailers nofun⟩,
    ended_ok_onlyTrailers .grpcWeb, not_ownEnd_onlyTrailers nofun⟩

end Exchange
end RpcConformance.Client
