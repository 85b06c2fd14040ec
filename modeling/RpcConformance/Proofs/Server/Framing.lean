import RpcConformance.Proofs.Envelope.Framing
import RpcConformance.Proofs.Envelope.OnePass
import RpcConformance.Proofs.Session.Completion
import RpcConformance.Server.Request
/-!
The two framings of a request body. What a handler reads of a body in envelopes are the items of its bytes
(`items_inbound_enveloped`), wherever these are cut and however long they take. A message within the limit is read the
same way from either framing, and one beyond it is refused with the same code (`framings_agree`).
-/
namespace RpcConformance

open Envelope Http

@[simp] theorem Limit.allows_zero (limit : Limit) : limit.allows 0 = true := by
  unfold allows
  split <;> simp

theorem Limit.allows_of_le {limit : Limit} {size more : Nat} (h : limit.allows more = true) (hle : size ≤ more) :
    limit.allows size = true := by
  unfold allows at *
  split at h <;> simp_all
  omega

/-- What a part of a body is to a decoder: a pause is nothing. -/
def Http.Part.chunk? : Part → Option Chunk
  | .data bytes => some (.ok bytes)
  | .pause _ => none
  | .failed reason => some (.error reason)

namespace Server

/-- The parts of a body that brings some bytes and does not break off. -/
inductive Brings : List Part → Bytes → Prop
  | nil : Brings [] []
  | pause (ticks : Nat) {parts : List Part} {bytes : Bytes} (h : Brings parts bytes) :
      Brings (.pause ticks :: parts) bytes
  | data (chunk : Bytes) {parts : List Part} {bytes : Bytes} (h : Brings parts bytes) :
      Brings (.data chunk :: parts) (chunk ++ bytes)

theorem Brings.chunks {parts : List Part} {bytes : Bytes} (h : Brings parts bytes) :
    ∃ chunks : List Bytes, parts.filterMap Part.chunk? = chunks.map .ok ∧ chunks.flatten = bytes := by
  induction h with
  | nil => exact ⟨[], rfl, rfl⟩
  | pause ticks _ ih => simpa [List.filterMap_cons, Part.chunk?] using ih
  | data chunk _ ih =>
    obtain ⟨chunks, hchunks, rfl⟩ := ih
    exact ⟨chunk :: chunks, by simp [Part.chunk?, hchunks], rfl⟩

/-! ### The body as one message -/

theorem wholeBody_of_allows {limit : Limit} {parts : List Part} {bytes : Bytes} (h : Brings parts bytes)
    {read : Bytes} (hallows : limit.allows (read ++ bytes).length = true) :
    (wholeBody limit read parts).filterMap Arrival.item? = [.ok (read ++ bytes)] := by
  induction h generalizing read with
  | nil => simp [wholeBody, Arrival.item?]
  | pause ticks _ ih => simpa [wholeBody, List.filterMap_cons, Arrival.item?] using ih hallows
  | @data chunk parts bytes _ ih =>
    have hchunk : limit.allows (read.length + chunk.length) = true :=
      Limit.allows_of_le hallows (by simp)
    rw [← List.append_assoc] at hallows ⊢
    simpa [wholeBody, hchunk] using ih hallows

theorem wholeBody_of_exceeds {limit : Limit} {parts : List Part} {bytes : Bytes} (h : Brings parts bytes)
    {read : Bytes} (hread : limit.allows read.length = true) (hexceeds : limit.allows (read ++ bytes).length = false) :
    (wholeBody limit read parts).filterMap Arrival.item? = [.error limit.exceeded] := by
  induction h generalizing read with
  | nil => simp [hread] at hexceeds
  | pause ticks _ ih => simpa [wholeBody, List.filterMap_cons, Arrival.item?] using ih hread hexceeds
  | @data chunk parts bytes _ ih =>
    by_cases hchunk : limit.allows (read.length + chunk.length) = true
    · rw [← List.append_assoc] at hexceeds
      simpa [wholeBody, hchunk] using ih (by simpa using hchunk) hexceeds
    · simp [wholeBody, hchunk, Arrival.item?]

/-! ### The messages in envelopes -/

def requests : List (Except Envelope.Error Envelope) → List (Except Status Bytes)
  | [] => []
  | .error error :: _ => [.error error.status]
  | .ok envelope :: items =>
    if envelope.flags = messageFlags then .ok envelope.payload :: requests items
    else if envelope.isEndStream then []
    else [.error (unexpectedFlags envelope.flags)]

theorem requests_append (envelopes : List Envelope) (items : List (Except Envelope.Error Envelope)) :
    requests (envelopes.map .ok ++ items) =
      (messages envelopes).1.filterMap Arrival.item? ++ if (messages envelopes).2 then [] else requests items := by
  induction envelopes with
  | nil => simp [messages]
  | cons envelope envelopes ih =>
    by_cases hmessage : envelope.flags = messageFlags
    · simp [requests, messages, hmessage, ih, Arrival.item?]
    · by_cases hend : envelope.isEndStream = true <;> simp [requests, messages, hmessage, hend, Arrival.item?]

/-- What is read of a body are the requests among the items of its chunks: pauses are between them. -/
theorem items_envelopedMessages (decoder : Decoder) (parts : List Part) :
    (envelopedMessages decoder parts).filterMap Arrival.item? =
      requests (decodeFrom decoder (parts.filterMap Part.chunk?)) := by
  induction parts generalizing decoder with
  | nil =>
    simp only [envelopedMessages, List.filterMap_nil, decodeFrom]
    cases decoder.finish <;> simp [requests, Arrival.item?]
  | cons part parts ih =>
    cases part with
    | pause ticks => simpa [envelopedMessages, List.filterMap_cons, Part.chunk?, Arrival.item?] using ih decoder
    | failed reason => simp [envelopedMessages, Part.chunk?, Arrival.item?, decodeFrom, requests]
    | data bytes =>
      rcases hdrain : (decoder.push bytes).drain with ⟨envelopes, error, rest⟩
      -- Both sides drain the chunk, and then go on or not.
      cases error with
      | none =>
        simp only [envelopedMessages, hdrain, List.filterMap_append, List.filterMap_cons, Part.chunk?, decodeFrom,
          requests_append, ← ih rest]
        cases (messages envelopes).2 <;> simp
      | some error =>
        simp only [envelopedMessages, hdrain, List.filterMap_append, List.filterMap_cons, Part.chunk?, decodeFrom,
          requests_append]
        cases (messages envelopes).2 <;> simp [requests, Arrival.item?]

/-- What is read of a body in envelopes is a function of its bytes. -/
theorem items_inbound_enveloped {parts : List Part} {bytes : Bytes} (h : Brings parts bytes) (limit : Limit) :
    (inbound true limit parts).items = requests (onePass limit bytes) := by
  obtain ⟨chunks, hchunks, rfl⟩ := h.chunks
  rw [← decode_eq, decode, ← hchunks]
  exact items_envelopedMessages _ parts

theorem envelopedMessages_append {decoder : Decoder} (hnext : decoder.next = .ok none) {first : List Part}
    {bytes : Bytes} (h : Brings first bytes) {envelopes : List Envelope} {error : Envelope.Error} {final : Decoder}
    (hdrain : (decoder.push bytes).drain = (envelopes, some error, final)) (rest : List Part) :
    envelopedMessages decoder (first ++ rest) = envelopedMessages decoder first := by
  induction h generalizing decoder envelopes with
  | nil =>
    rw [Decoder.push_nil, Decoder.drain_of_none hnext] at hdrain
    cases hdrain
  | pause ticks _ ih => simpa [envelopedMessages] using ih hnext hdrain
  | @data chunk parts bytes _ ih =>
    rw [← Decoder.push_push] at hdrain
    rcases hchunk : (decoder.push chunk).drain with ⟨taken, _ | early, left⟩
    · rw [Decoder.drain_push hchunk] at hdrain
      have hleft : (left.push bytes).drain = ((left.push bytes).drain.1, some error, final) := by
        rw [← (Prod.mk.inj hdrain).2]
      simp only [List.cons_append, envelopedMessages, hchunk, ih (Decoder.next_of_drain hchunk) hleft]
    · simp only [List.cons_append, envelopedMessages, hchunk]

theorem requests_wrap_of_allows {limit : Limit} {message : Bytes} (hlength : message.length < lengthBound)
    (hallows : limit.allows message.length = true) :
    requests (onePass limit (wrap messageFlags message)) = [.ok message] := by
  have hnext := Decoder.next_wrap_of_lt (rfl : isCompressed messageFlags = false) hlength hallows []
  have hpass := onePass_of_next_some hnext
  rw [List.append_nil] at hpass
  rw [hpass, onePass, requests, if_pos rfl, requests]

/-- The header of an envelope whose length is not allowed is the last that is looked at. -/
theorem next_of_exceeds {limit : Limit} {message : Bytes} (hlength : message.length < lengthBound)
    (hexceeds : limit.allows message.length = false) (bytes : Bytes) :
    (Decoder.mk limit ((wrap messageFlags message).take headerSize ++ bytes)).next =
      .error (.tooLarge message.length limit.wordBound) := by
  have hheader : readHeader? ((wrap messageFlags message).take headerSize ++ bytes) =
      some (messageFlags, message.length) := by
    have hread := readHeader?_wrap messageFlags message []
    rw [Nat.mod_eq_of_lt hlength] at hread
    exact hread
  simp [Decoder.next, hheader, hexceeds]

/-- A request side whose reader is told that a message is too large, and then that there is no more. -/
def Refused (inbound : Inbound) : Prop :=
  ∃ status, status.code = .resourceExhausted ∧ inbound.readings = [.item (.error status), .ended]

/-- A message within the limit is read from a body that consists of it, and from one that has it in an envelope. One
beyond the limit is refused from both, and from the envelope as soon as its header is there, whatever follows. -/
theorem framings_agree {limit : Limit} {message : Bytes} (hlength : message.length < lengthBound)
    {bare framed : List Part} (hbare : Brings bare message) (hframed : Brings framed (wrap messageFlags message)) :
    if limit.allows message.length then
      (inbound false limit bare).readings = [.item (.ok message), .ended] ∧
        (inbound true limit framed).readings = [.item (.ok message), .ended]
    else
      Refused (inbound false limit bare) ∧ Refused (inbound true limit framed) ∧
        ∀ first bytes, Brings first ((wrap messageFlags message).take headerSize ++ bytes) → ∀ rest,
          Refused (inbound true limit first) ∧ inbound true limit (first ++ rest) = inbound true limit first := by
  have hreadings (enveloped : Bool) (parts : List Part) : (inbound enveloped limit parts).readings =
      (inbound enveloped limit parts).items.map .item ++ [.ended] := rfl
  split
  · rename_i hallows
    have hwhole : (inbound false limit bare).items = [.ok message] := wholeBody_of_allows hbare hallows
    have hpass : (inbound true limit framed).items = [.ok message] := by
      rw [items_inbound_enveloped hframed, requests_wrap_of_allows hlength hallows]
    exact ⟨by rw [hreadings, hwhole]; rfl, by rw [hreadings, hpass]; rfl⟩
  · rename_i hexceeds
    have hexceeds : limit.allows message.length = false := by simpa using hexceeds
    have hwhole : (inbound false limit bare).items = [.error limit.exceeded] :=
      wholeBody_of_exceeds hbare (by simp) hexceeds
    have hfirst {first : List Part} {bytes : Bytes}
        (h : Brings first ((wrap messageFlags message).take headerSize ++ bytes)) :
        Refused (inbound true limit first) := by
      refine ⟨(Envelope.Error.tooLarge message.length limit.wordBound).status, rfl, ?_⟩
      rw [hreadings, items_inbound_enveloped h, onePass_of_next_error (next_of_exceeds hlength hexceeds bytes)]
      rfl
    refine ⟨⟨limit.exceeded, rfl, by rw [hreadings, hwhole]; rfl⟩, @hfirst framed message hframed, ?_⟩
    intro first bytes h rest
    refine ⟨hfirst h, ?_⟩
    have hdrain := Decoder.drain_of_error (next_of_exceeds hlength hexceeds bytes)
    have hself := envelopedMessages_append (Decoder.next_start limit) h hdrain rest
    simp only [inbound, if_true, hself]

/-- Three bytes in pieces against a limit of three, and four of which only the header comes before a failure. -/
theorem framings_agree_atLimit :
    (inbound false ⟨some 3⟩ [.data [7], .pause 5, .data [], .data [8, 9]]).readings = [.item (.ok [7, 8, 9]), .ended] ∧
    (inbound true ⟨some 3⟩ [.data [0, 0, 0], .pause 2, .data [0, 3, 7], .data [8, 9]]).readings =
      [.item (.ok [7, 8, 9]), .ended] ∧
    Refused (inbound false ⟨some 3⟩ [.data [6, 7], .data [8, 9]]) ∧
    Refused (inbound true ⟨some 3⟩ [.data [0, 0], .data [0, 0, 4], .failed "reset"]) := by
  have hfits := @framings_agree ⟨some 3⟩ [7, 8, 9] (by decide) _ _ (.data [7] (.pause 5 (.data [] (.data [8, 9] .nil))))
    (.data [0, 0, 0] (.pause 2 (.data [0, 3, 7] (.data [8, 9] .nil))))
  have hexceeds := @framings_agree ⟨some 3⟩ [6, 7, 8, 9] (by decide) _ _ (.data [6, 7] (.data [8, 9] .nil))
    (.data [0, 0, 0, 0, 4, 6, 7, 8, 9] .nil)
  rw [if_pos (by decide)] at hfits
  rw [if_neg (by decide)] at hexceeds
  obtain ⟨hrefused, heq⟩ := hexceeds.2.2 _ [] (.data [0, 0] (.data [0, 0, 4] .nil)) [.failed "reset"]
  exact ⟨hfits.1, hfits.2, hexceeds.1, heq ▸ hrefused⟩

end Server
end RpcConformance
