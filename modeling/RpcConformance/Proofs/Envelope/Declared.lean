import RpcConformance.Proofs.Envelope.Framing
/-!
The length that an envelope declares. It is the length of the payload modulo 2 ^ 32; below that the payload is taken
whole, with what follows it left over, and from there on it is cut and its end is taken for the next envelope
(`declares_iff`).
-/
namespace RpcConformance.Envelope

theorem covered_eq_self_iff {payload : Bytes} : covered payload = payload ↔ payload.length < lengthBound := by
  refine ⟨fun h => ?_, covered_of_lt⟩
  have hlength := congrArg List.length h
  rw [covered, List.length_take, Nat.min_eq_left (Nat.mod_le _ _)] at hlength
  exact (Nat.mod_eq_iff_lt (by decide)).1 hlength

theorem readHeader?_wrap_self (flags : UInt8) (payload : Bytes) :
    readHeader? (wrap flags payload) = some (flags, payload.length % lengthBound) := by
  simpa only [List.append_nil] using readHeader?_wrap flags payload []

/-- A length is declared as it is just when it is below the bound. -/
theorem readHeader?_wrap_eq_length_iff (flags : UInt8) (payload : Bytes) :
    readHeader? (wrap flags payload) = some (flags, payload.length) ↔ payload.length < lengthBound := by
  simp only [readHeader?_wrap_self, Option.some.injEq, Prod.mk.injEq, true_and]
  exact Nat.mod_eq_iff_lt (by decide)

namespace Decoder

/-- Bytes that arrive in pieces are held as if they had arrived at once. -/
theorem foldl_push (decoder : Decoder) (chunks : List Bytes) :
    chunks.foldl push decoder = decoder.push chunks.flatten := by
  induction chunks generalizing decoder with
  | nil => simp
  | cons chunk chunks ih => rw [List.foldl_cons, ih, push_push, List.flatten_cons]

/-- What is taken first where a frame and any bytes behind it have arrived. -/
theorem next_frame {flags : UInt8} (hflags : isCompressed flags = false) {payload rest : Bytes} {chunks : List Bytes}
    (hchunks : chunks.flatten = wrap flags payload ++ rest) :
    (chunks.foldl push start).next =
      .ok (some (⟨flags, covered payload⟩, ⟨.unlimited, payload.drop (payload.length % lengthBound) ++ rest⟩)) := by
  have hbuffer : chunks.foldl push start = ⟨.unlimited, wrap flags payload ++ rest⟩ := by
    rw [foldl_push, hchunks]
    rfl
  rw [hbuffer]
  exact next_wrap hflags (Limit.allows_unlimited _) rest

theorem next_frame_whole_iff {flags : UInt8} (hflags : isCompressed flags = false) {payload rest : Bytes}
    {chunks : List Bytes} (hchunks : chunks.flatten = wrap flags payload ++ rest) :
    (chunks.foldl push start).next = .ok (some (⟨flags, payload⟩, ⟨.unlimited, rest⟩)) ↔
      payload.length < lengthBound := by
  rw [next_frame hflags hchunks]
  constructor
  · intro h
    have hcovered : covered payload = payload := by
      simp only [Except.ok.injEq, Option.some.injEq, Prod.mk.injEq, Envelope.mk.injEq] at h
      exact h.1.2
    exact covered_eq_self_iff.1 hcovered
  · intro h
    rw [covered_of_lt h, Nat.mod_eq_of_lt h, List.drop_length, List.nil_append]

end Decoder

/-- An envelope declares the length of its payload modulo 2 ^ 32, which is that length just when it is below 2 ^ 32.
A decoder without a limit to which its frame is pushed, in any pieces and with any bytes behind it, then takes the
envelope itself and keeps exactly those bytes, and otherwise does neither: it takes the declared part of the payload,
and keeps the other part of it too. -/
theorem declares_iff (flags : UInt8) (payload : Bytes) :
    readHeader? (wrap flags payload) = some (flags, payload.length % lengthBound) ∧
    (readHeader? (wrap flags payload) = some (flags, payload.length) ↔ payload.length < lengthBound) ∧
    ∀ (rest : Bytes) (chunks : List Bytes), chunks.flatten = wrap flags payload ++ rest → isCompressed flags = false →
      (chunks.foldl Decoder.push Decoder.start).next = .ok (some (⟨flags, payload.take (payload.length % lengthBound)⟩,
        ⟨.unlimited, payload.drop (payload.length % lengthBound) ++ rest⟩)) ∧
      ((chunks.foldl Decoder.push Decoder.start).next = .ok (some (⟨flags, payload⟩, ⟨.unlimited, rest⟩)) ↔
        payload.length < lengthBound) := by
  refine ⟨readHeader?_wrap_self flags payload, readHeader?_wrap_eq_length_iff flags payload, ?_⟩
  intro rest chunks hchunks hflags
  exact ⟨Decoder.next_frame hflags hchunks, Decoder.next_frame_whole_iff hflags hchunks⟩

theorem declares_endOfStream :
    readHeader? (wrap endStreamFlags [0x7b, 0x7d]) = some (endStreamFlags, 2) ∧
    ([[0x02, 0x00], [], [0x00, 0x00, 0x02, 0x7b], [0x7d, 0x00]].foldl Decoder.push Decoder.start).next =
      .ok (some (⟨endStreamFlags, [0x7b, 0x7d]⟩, ⟨.unlimited, [0x00]⟩)) := by
  obtain ⟨-, hheader, htaken⟩ := declares_iff endStreamFlags [0x7b, 0x7d]
  refine ⟨hheader.2 (by decide), ?_⟩
  exact ((htaken [0x00] [[0x02, 0x00], [], [0x00, 0x00, 0x02, 0x7b], [0x7d, 0x00]] (by decide) (by decide)).2).2
    (by decide)

/-- The shortest payload whose length cannot be declared. -/
def oversized : Bytes := List.replicate lengthBound 0x30

theorem length_oversized : oversized.length = lengthBound := List.length_replicate

/-- A payload of 2 ^ 32 bytes is declared to be empty, so nothing of it is taken and all of it is left. -/
theorem oversized_declared_empty :
    readHeader? (wrap messageFlags oversized) = some (messageFlags, 0) ∧
    readHeader? (wrap messageFlags oversized) ≠ some (messageFlags, oversized.length) ∧
    (Decoder.start.push (wrap messageFlags oversized)).next =
      .ok (some (⟨messageFlags, []⟩, ⟨.unlimited, oversized⟩)) ∧
    (Decoder.start.push (wrap messageFlags oversized)).next ≠
      .ok (some (⟨messageFlags, oversized⟩, ⟨.unlimited, []⟩)) := by
  have hlong : ¬oversized.length < lengthBound := by
    rw [length_oversized]
    exact Nat.lt_irrefl _
  have hnone : oversized.length % lengthBound = 0 := by rw [length_oversized, Nat.mod_self]
  have hframe : [wrap messageFlags oversized].flatten = wrap messageFlags oversized ++ [] := by
    rw [List.flatten_singleton, List.append_nil]
  have hheader := readHeader?_wrap_self messageFlags oversized
  have hnext := Decoder.next_frame (by decide) hframe
  rw [hnone] at hheader
  rw [covered, hnone, List.take_zero, List.drop_zero, List.append_nil] at hnext
  refine ⟨hheader, fun h => ?_, hnext, fun h => ?_⟩
  · exact hlong ((readHeader?_wrap_eq_length_iff messageFlags oversized).1 h)
  · exact hlong ((Decoder.next_frame_whole_iff (by decide) hframe).1 h)

end RpcConformance.Envelope
