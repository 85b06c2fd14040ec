import RpcConformance.Proofs.Client.ConnectUnary
import RpcConformance.Proofs.Client.OwnEnd
/-!
The codes that failed calls are reported with. HTTP statuses, trailers, frames and messages that cannot be read all
come with a code that says that the call failed. An error body comes with the code that it names, which may be the one
of a good end (`failed_ok_iff`, `named_ok_failed`).
-/
namespace RpcConformance

open Envelope Http

theorem Code.ofName?_eq_ok_iff {name : String} : ofName? name = some .ok ↔ name = "ok" := by
  constructor
  · intro h
    have hname := List.find?_some (p := fun code : Code =>
      decide (code.name = if name = "cancelled" then "canceled" else name)) h
    replace hname := of_decide_eq_true hname
    split at hname
    · exact absurd hname (by decide)
    · exact hname.symm
  · rintro rfl
    rfl

theorem Code.ofHttpStatus_eq_ok {status : Nat} (h : ofHttpStatus status = .ok) : status = 200 := by
  unfold ofHttpStatus at h
  split at h <;> first | rfl | cases h

theorem Envelope.Error.code_ne_ok (error : Envelope.Error) : error.code ≠ .ok := by
  cases error <;> nofun

theorem Codec.code_of_decode {α : Type} [Message α] {codec : Codec} {bytes : Bytes} {status : Status}
    (h : (codec.decode bytes : Except Status α) = .error status) : status.code = .invalidArgument := by
  unfold decode at h
  repeat' split at h
  all_goals first
    | cases h; done
    | cases h
      rfl

namespace Status

/-- A text is an error body that names the code of a good end, with such a message. -/
def Misnames (text : Bytes) (message : String) : Prop :=
  ∃ body, Body.parse? text = some body ∧ body.code = "ok" ∧ body.message.getD "" = message

/-- An error body has the code of a good end just when it names it; an unknown name stands for some other code. -/
theorem ofBody_eq_iff {body : Body} {fallback : Code} (h : fallback ≠ .ok) {message : String} :
    ofBody body fallback = ⟨.ok, message⟩ ↔ body.code = "ok" ∧ body.message.getD "" = message := by
  rw [ofBody, Status.mk.injEq, ← Code.ofName?_eq_ok_iff]
  cases Code.ofName? body.code <;> simp [h]

end Status

namespace Trailers

theorem tellable_of_readStatus? {headers : HeaderMap} {outcome : Outcome} (h : readStatus? headers = some outcome) :
    Tellable outcome := by
  obtain ⟨value, -, rfl⟩ := Option.map_eq_some_iff.1 h
  intro status hstatus
  split at hstatus
  · cases hstatus
    nofun
  · cases hstatus
  · rename_i code hne _
    cases hstatus
    exact fun hok => hne (by rw [← hok])

theorem code_of_readLine {headers : HeaderMap} {line : Bytes} {status : Status}
    (h : readLine headers line = .error status) : status.code = .internal := by
  unfold readLine at h
  simp only at h
  repeat' split at h
  all_goals first
    | cases h; done
    | cases h
      rfl

theorem code_of_decodeBlock {block : Bytes} {status : Status} (h : decodeBlock block = .error status) :
    status.code = .internal := by
  unfold decodeBlock at h
  generalize HeaderMap.empty = headers at h
  generalize block.splitOnP (· == 0x0a) = lines at h
  induction lines generalizing headers with
  | nil => cases h
  | cons line lines ih =>
    rw [List.foldlM_cons] at h
    cases hline : readLine headers line with
    | error status' =>
      rw [hline] at h
      cases h
      exact code_of_readLine hline
    | ok headers' =>
      rw [hline] at h
      exact ih headers' h

end Trailers

namespace Client

namespace EndStream

/-- The document at the end of a stream has an error that names the code of a good end. -/
def Misnames (document : Bytes) (message : String) (trailers : Metadata) : Prop :=
  ∃ ending body, parse? document = some ending ∧ ending.error = some body ∧ body.code = "ok" ∧
    body.message.getD "" = message ∧ ending.metadata = trailers

theorem outcome_eq_error_iff {ending : EndStream} {message : String} :
    ending.outcome = .error ⟨.ok, message⟩ ↔
      ∃ body, ending.error = some body ∧ body.code = "ok" ∧ body.message.getD "" = message := by
  have hfallback : Code.unknown ≠ .ok := nofun
  rw [outcome]
  cases ending.error with
  | none => simp
  | some body => simp [Status.ofBody_eq_iff hfallback]

end EndStream

namespace Exchange

variable {Res : Type}

/-- If an event is the end of a call that failed, then with a code that says so. -/
def Sound (event : Event Res) : Prop := ∀ outcome trailers, event = .ended outcome trailers → Trailers.Tellable outcome

theorem sound_ended {outcome : Outcome} {trailers : Metadata} (h : Trailers.Tellable outcome) :
    Sound (.ended outcome trailers : Event Res) := by
  rintro _ _ ⟨⟩
  exact h

theorem sound_failed {status : Status} (h : status.code ≠ .ok) : Sound (failed status : Event Res) := by
  refine sound_ended ?_
  rintro _ ⟨⟩
  exact h

theorem sound_endOfTrailers (headers : HeaderMap) : Sound (endOfTrailers headers : Event Res) := by
  rw [endOfTrailers]
  cases hread : Trailers.readStatus? headers with
  | none =>
    refine sound_ended ?_
    rintro _ ⟨⟩
    decide
  | some outcome => exact sound_ended (Trailers.tellable_of_readStatus? hread)

theorem sound_endOfBlock (block : Bytes) : Sound (endOfBlock block : Event Res) := by
  rw [endOfBlock]
  split
  · exact sound_endOfTrailers _
  · rename_i hblock
    refine sound_failed ?_
    rw [Trailers.code_of_decodeBlock hblock]
    exact Code.noConfusion

theorem sound_endOfBody (decoder : Decoder) (failure : Option String) :
    Sound (endOfBody decoder failure : Event Res) := by
  unfold endOfBody
  split
  · exact sound_failed nofun
  · exact sound_failed (Envelope.Error.code_ne_ok _)
  · exact sound_failed nofun

theorem Sound.ne {event : Event Res} (h : Sound event) (message : String) (trailers : Metadata) :
    event ≠ .ended (.error ⟨.ok, message⟩) trailers := fun hevent => h _ _ hevent _ rfl rfl

/-- The end of a Connect stream is told with the code of a good end and a message just when its error names that
code. -/
theorem endOfStream_eq_iff {document : Bytes} {message : String} {trailers : Metadata} :
    (endOfStream document : Event Res) = .ended (.error ⟨.ok, message⟩) trailers ↔
      EndStream.Misnames document message trailers := by
  rw [endOfStream]
  constructor
  · intro h
    split at h
    · rename_i ending hparse
      rw [Event.ended.injEq, EndStream.outcome_eq_error_iff] at h
      obtain ⟨⟨body, herror, hcode, hmessage⟩, hmetadata⟩ := h
      exact ⟨ending, body, hparse, herror, hcode, hmessage, hmetadata⟩
    · exact absurd h ((sound_failed (by decide)).ne _ _)
  · rintro ⟨ending, body, hparse, herror, hcode, hmessage, rfl⟩
    simp only [hparse, EndStream.outcome_eq_error_iff.2 ⟨body, herror, hcode, hmessage⟩]

variable [Message Res] {protocol : Protocol} {codec : Codec} {response : Http.Response} {message : String}
  {trailers : Metadata}

theorem ofEnvelope_eq_iff {envelope : Envelope} :
    (ofEnvelope protocol codec envelope : Event Res) = .ended (.error ⟨.ok, message⟩) trailers ↔
      protocol = .connect ∧ envelope.flags = endStreamFlags ∧ EndStream.Misnames envelope.payload message trailers := by
  have hflags : messageFlags ≠ endStreamFlags := by decide
  rw [ofEnvelope]
  split
  · rename_i hmessage
    have hnot : ¬(protocol = .connect ∧ envelope.flags = endStreamFlags ∧
        EndStream.Misnames envelope.payload message trailers) := fun h => hflags (hmessage.symm.trans h.2.1)
    refine iff_of_false ?_ hnot
    split
    · intro h
      cases h
    · rename_i hdecode
      refine (sound_failed ?_).ne message trailers
      rw [Codec.code_of_decode hdecode]
      exact Code.noConfusion
  · split
    · rename_i hstream
      simp [endOfStream_eq_iff, hstream]
    · rename_i hstream
      refine iff_of_false ?_ fun h => hstream ⟨h.1, h.2.1⟩
      split
      · exact (sound_endOfBlock _).ne message trailers
      · have hcode : (unexpectedFlags envelope.flags).code ≠ .ok := Code.noConfusion
        exact (sound_failed hcode).ne message trailers

/-- A body has the end of a Connect stream, behind messages, whose error names the code of a good end; what comes after
it is not looked at. -/
def Misnamed (Res : Type) [Message Res] (codec : Codec) (response : Http.Response) (message : String)
    (trailers : Metadata) : Prop :=
  ∃ document more, document.length < lengthBound ∧ EndStream.Misnames document message trailers ∧
    Precedes Res codec (wrap endStreamFlags document ++ more) (content response.body).1

theorem mem_ofDrained_error_iff :
    (.ended (.error ⟨.ok, message⟩) trailers : Event Res) ∈ ofDrained protocol codec response.failure
        (content response.body).2 (Decoder.drain ⟨.unlimited, (content response.body).1⟩) ↔
      protocol = .connect ∧ Misnamed Res codec response message trailers := by
  constructor
  · intro h
    obtain ⟨sent, rest, last, hholds, hlengths, hbytes, hlast⟩ :=
      @exists_last Res _ protocol codec response.failure (content response.body).2 (content response.body).1
    rw [hbytes, ofDrained_of_last hholds hlengths hlast] at h
    have hended : last = .ended (.error ⟨.ok, message⟩) trailers := by simpa [@eq_comm _ _ last] using h
    generalize (content response.body).2 = fields at hlast
    cases hlast with
    | @envelope marker more _ _ hlength outcome trailers' hends =>
      obtain ⟨hconnect, hflags, hmisnames⟩ := ofEnvelope_eq_iff.1 (hends.trans hended)
      refine ⟨hconnect, marker.payload, more, hlength, hmisnames, sent, hholds, hlengths, ?_⟩
      rw [hbytes, toBytes, hflags]
    | broken => exact absurd hended ((sound_failed (Envelope.Error.code_ne_ok _)).ne _ _)
    | trailers => exact absurd hended ((sound_endOfTrailers _).ne _ _)
    | stopped => exact absurd hended ((sound_endOfBody _ _).ne _ _)
  · rintro ⟨rfl, document, more, hlength, hmisnames, sent, hholds, hlengths, hbytes⟩
    have hends : (ofEnvelope .connect codec ⟨endStreamFlags, document⟩ : Event Res) =
        .ended (.error ⟨.ok, message⟩) trailers := ofEnvelope_eq_iff.2 ⟨rfl, rfl, hmisnames⟩
    have hlast : Last Res .connect codec response.failure (wrap endStreamFlags document ++ more)
        (content response.body).2 (.ended (.error ⟨.ok, message⟩) trailers) := by
      have hcompressed : isCompressed endStreamFlags = false := rfl
      exact @Last.envelope _ _ _ _ _ ⟨endStreamFlags, document⟩ more _ hcompressed hlength _ _ hends
    rw [hbytes, ofDrained_of_last hholds hlengths hlast]
    exact List.mem_append_right _ List.mem_cons_self

theorem mem_events_error_iff :
    (.ended (.error ⟨.ok, message⟩) trailers : Event Res) ∈ events protocol codec response ↔
      response.status = 200 ∧ protocol = .connect ∧ Misnamed Res codec response message trailers := by
  by_cases hstatus : response.status = 200
  · cases hopen : endOfHeaders? protocol response.headers with
    | some outcome =>
      obtain ⟨hother, hread⟩ := endOfHeaders?_eq_some_iff.1 hopen
      have hsound : Sound (.ended outcome (.ofHeaders response.headers) : Event Res) :=
        sound_ended (Trailers.tellable_of_readStatus? hread)
      rw [events_of_told codec hstatus hopen, List.mem_singleton]
      exact iff_of_false (hsound.ne message trailers).symm fun h => hother h.2.1
    | none =>
      rw [events_of_open protocol codec hstatus hopen, List.mem_cons, mem_ofDrained_error_iff]
      simp [hstatus]
  · have hsound : Sound (failed (httpFailure response.status) : Event Res) :=
      sound_failed fun h => hstatus (Code.ofHttpStatus_eq_ok h)
    rw [events, if_pos hstatus, List.mem_singleton]
    exact iff_of_false (hsound.ne message trailers).symm fun h => hstatus h.1

end Exchange

namespace Remote

/-- The bytes of a body, whatever stands between them. -/
def dataOf (frames : List Frame) : Bytes :=
  frames.flatMap fun
    | .data bytes => bytes
    | .trailers _ => []

variable {Res : Type} [Message Res] {codec : Codec} {response : Http.Response} {message : String}

theorem connectFailure_eq_iff {status : Nat} (h : status ≠ 200) {text : Bytes} :
    connectFailure status text = ⟨.ok, message⟩ ↔ Status.Misnames text message := by
  have hfallback : Code.ofHttpStatus status ≠ .ok := fun hok => h (Code.ofHttpStatus_eq_ok hok)
  rw [connectFailure, Status.Misnames]
  cases Status.Body.parse? text with
  | none => simp [httpFailure, hfallback]
  | some body => simp [Status.ofBody_eq_iff hfallback]

theorem connectResult_error_iff :
    (connectResult codec response : Except Status (RpcConformance.Response Res)) = .error ⟨.ok, message⟩ ↔
      response.failure = none ∧ response.status ≠ 200 ∧ Status.Misnames (dataOf response.body) message := by
  cases hfailure : response.failure with
  | some reason =>
    have hself : (connectResult codec response : Except Status (RpcConformance.Response Res)) =
        .error (responseFailed reason) := by
      rw [connectResult, hfailure]
    simp [hself, responseFailed, Status.unavailable]
  | none =>
    have hself : (connectResult codec response : Except Status (RpcConformance.Response Res)) =
        if response.status = 200 then
          (codec.decode (dataOf response.body)).map fun message =>
            { message, headers := .ofHeaders response.headers
              trailers := .ofMarkedHeaders response.headers Metadata.trailerMark }
        else .error (connectFailure response.status (dataOf response.body)) := by
      rw [connectResult, hfailure]
      rfl
    rw [hself]
    by_cases hstatus : response.status = 200
    · cases hdecode : (codec.decode (dataOf response.body) : Except Status Res) with
      | ok message => simp [hstatus, Except.map]
      | error status =>
        have hcode : status ≠ ⟨.ok, message⟩ := by
          rintro rfl
          cases Codec.code_of_decode hdecode
        simp [hstatus, Except.map, hcode]
    · simp [hstatus, connectFailure_eq_iff hstatus]

end Remote

/-- A call that failed is reported under the code of a good end just when its response has an error body that names that
code: as the document of a unary Connect response that is not a good one, or in the document at the end of a Connect
stream. -/
theorem failed_ok_iff {Res : Type} [Message Res] (protocol : Protocol) (codec : Codec) (response : Http.Response)
    (message : String) :
    ((Remote.connectResult codec response : Except Status (Response Res)) = .error ⟨.ok, message⟩ ↔
      response.failure = none ∧ response.status ≠ 200 ∧ Status.Misnames (Remote.dataOf response.body) message) ∧
    ∀ trailers, (.ended (.error ⟨.ok, message⟩) trailers : Event Res) ∈ Exchange.events protocol codec response ↔
      response.status = 200 ∧ protocol = .connect ∧ Exchange.Misnamed Res codec response message trailers :=
  ⟨Remote.connectResult_error_iff, fun _ => Exchange.mem_events_error_iff⟩

def okBody : Bytes := Bytes.ofString "\x7b\"code\":\"ok\"\x7d"

def okEnding : Bytes := Bytes.ofString "\x7b\"error\":\x7b\"code\":\"ok\"\x7d\x7d"

/-- An error body, and the end of a stream, that name the code of a good end are reported as failures under it. -/
theorem named_ok_failed :
    (Remote.connectResult .proto ⟨500, .empty, [.data okBody], none⟩ : Except Status (Response Empty)) =
      .error ⟨.ok, ""⟩ ∧
    (.ended (.error ⟨.ok, ""⟩) .empty : Event Empty) ∈
      Exchange.events .connect .proto ⟨200, .empty, [.data (wrap endStreamFlags okEnding)], none⟩ := by
  constructor
  · refine Remote.connectResult_error_iff.2 ⟨rfl, by decide, ⟨"ok", none⟩, ?_, rfl, rfl⟩
    decide +kernel
  · have hread : (EndStream.parse? okEnding).map (fun ending => (ending.error, ending.metadata)) =
        some (some ⟨"ok", none⟩, .empty) := by decide +kernel
    obtain ⟨ending, hparse, hboth⟩ := Option.map_eq_some_iff.1 hread
    obtain ⟨herror, hmetadata⟩ := Prod.mk.inj hboth
    have hprecedes : Exchange.Precedes Empty .proto (wrap endStreamFlags okEnding ++ [])
        (content [.data (wrap endStreamFlags okEnding)]).1 := ⟨[], by simp [Exchange.Holds], by simp, rfl⟩
    exact Exchange.mem_events_error_iff.2
      ⟨rfl, rfl, okEnding, [], by decide, ⟨ending, _, hparse, herror, rfl, rfl, hmetadata⟩, hprecedes⟩

end Client
end RpcConformance
