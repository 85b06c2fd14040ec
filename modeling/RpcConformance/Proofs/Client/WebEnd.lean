import RpcConformance.Proofs.Client.Exchange
import RpcConformance.Proofs.Trailers.Block
import RpcConformance.Server.Response
/-!
The last frame of a gRPC-Web response as the client reads it (`ofEnvelope_ofEnd`): the trailing metadata and
the outcome come through, and of the message of a failure all but the spaces at its ends
(`ofEnvelope_endFrame`).
-/
namespace RpcConformance.Client.Exchange

open Envelope Trailers

variable {Res : Type} [Message Res]

/-- The block at the end of a call is read as the end it was written for. -/
theorem ofEnvelope_ofEnd (codec : Codec) {outcome : Outcome} (houtcome : Tellable outcome) {trailers : Metadata}
    (htrailers : trailers.Sendable)
    (htight : ∀ entry ∈ trailers.entries, Metadata.isBinaryKey entry.1 = false → Tight entry.2) :
    ∃ read, (ofEnvelope .grpcWeb codec ⟨trailerFlags, encodeBlock (ofEnd outcome trailers)⟩ : Event Res) =
        .ended (outcome.mapError fun status => ⟨status.code, Text.unspaced status.message⟩) read ∧
      read.SameValues trailers := by
  obtain ⟨fields, hfields, hread, hsame⟩ := decodeBlock_ofEnd outcome htrailers houtcome htight
  refine ⟨.ofHeaders fields, ?_, hsame⟩
  have hevent : (ofEnvelope .grpcWeb codec ⟨trailerFlags, encodeBlock (ofEnd outcome trailers)⟩ : Event Res) =
      endOfBlock (encodeBlock (ofEnd outcome trailers)) := rfl
  rw [hevent, endOfBlock, hfields]
  simp only [endOfTrailers, hread, Option.getD_some]

theorem tellable_error {status : Status} (h : status.code ≠ .ok) : Tellable (.error status) := by
  rintro _ ⟨⟩
  exact h

/-- The last frame of a gRPC-Web response to a call that failed: the client takes it as one envelope and reads
from it the code, the trailing metadata and the message without the spaces at its ends, which is the
message itself just when there are none. -/
theorem ofEnvelope_endFrame (codec : Codec) {status : Status} (hcode : status.code ≠ .ok) {trailers : Metadata}
    (htrailers : trailers.Sendable)
    (htight : ∀ entry ∈ trailers.entries, Metadata.isBinaryKey entry.1 = false → Tight entry.2) :
    ∃ block read,
      Server.endFrame .grpcWeb (.error status, trailers) = .data (wrap trailerFlags block) ∧
      (block.length < lengthBound → Decoder.drain ⟨.unlimited, wrap trailerFlags block⟩ =
        ([⟨trailerFlags, block⟩], none, ⟨.unlimited, []⟩)) ∧
      (ofEnvelope .grpcWeb codec ⟨trailerFlags, block⟩ : Event Res) =
        .ended (.error ⟨status.code, Text.unspaced status.message⟩) read ∧
      read.SameValues trailers ∧
      (Text.unspaced status.message = status.message ↔
        status.message.toList.head? ≠ some ' ' ∧ status.message.toList.getLast? ≠ some ' ') := by
  obtain ⟨read, hevent, hsame⟩ := @ofEnvelope_ofEnd Res _ codec _ (tellable_error hcode) _ htrailers htight
  refine ⟨_, read, rfl, fun hlength => ?_, hevent, hsame, Text.unspaced_eq_self_iff _⟩
  have hcompressed : isCompressed trailerFlags = false := rfl
  have hnext := Decoder.next_wrap_of_lt hcompressed hlength (Limit.allows_unlimited _) []
  rw [List.append_nil] at hnext
  rw [Decoder.drain_of_some hnext, drain_empty]

/-- A message with all kinds of characters that a block could stumble over, but no spaces at its ends. -/
theorem ofEnvelope_endFrame_awkward :
    ∃ block read,
      Server.endFrame .grpcWeb (.error (.internal "a: 100%\r\n é"), .single "b-bin" [0, 255]) =
        .data (wrap trailerFlags block) ∧
      (ofEnvelope .grpcWeb .proto ⟨trailerFlags, block⟩ : Event Empty) =
        .ended (.error (.internal "a: 100%\r\n é")) read ∧
      read.SameValues (.single "b-bin" [0, 255]) := by
  have hcode : (Status.internal "a: 100%\r\n é").code ≠ .ok := by decide
  have hsendable : (Metadata.single "b-bin" [0, 255]).Sendable := by
    intro entry hentry
    rw [List.mem_singleton.1 hentry]
    exact ⟨by decide +kernel, by decide +kernel, by decide +kernel⟩
  have htight : ∀ entry ∈ (Metadata.single "b-bin" [0, 255]).entries,
      Metadata.isBinaryKey entry.1 = false → Tight entry.2 := by
    intro entry hentry htext
    rw [List.mem_singleton.1 hentry] at htext
    exact absurd htext (by decide +kernel)
  obtain ⟨block, read, hframe, -, hevent, hsame, hexact⟩ :=
    @ofEnvelope_endFrame Empty _ .proto _ hcode _ hsendable htight
  rw [hexact.2 (by decide)] at hevent
  exact ⟨block, read, hframe, hevent, hsame⟩

/-- A space at the end of a message is lost. -/
theorem space_lost :
    ∃ block, Server.endFrame .grpcWeb (.error (.unknown "boom "), .empty) = .data (wrap trailerFlags block) ∧
      ¬∃ read, (ofEnvelope .grpcWeb .proto ⟨trailerFlags, block⟩ : Event Empty) =
        .ended (.error (.unknown "boom ")) read := by
  obtain ⟨read, hevent, -⟩ := @ofEnvelope_ofEnd Empty _ .proto (.error (.unknown "boom "))
    (tellable_error (by decide)) .empty nofun nofun
  refine ⟨_, rfl, ?_⟩
  rintro ⟨other, hother⟩
  rw [hevent, Event.ended.injEq] at hother
  have hmessage : Text.unspaced "boom " ≠ "boom " := by decide
  simp [Status.unknown, hmessage] at hother

end RpcConformance.Client.Exchange
