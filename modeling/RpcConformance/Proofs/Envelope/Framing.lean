import RpcConformance.Proofs.Envelope.Decoder
/-!
Envelopes that were written one after the other are taken one by one (`drain_wraps`). The length of a
payload is written modulo 2 ^ 32, so that of a larger one only a part is taken (`next_wrap`). Conversely
what was taken of some bytes is written there, and nothing is lost on the way (`buffer_of_drain`).
-/
namespace RpcConformance.Envelope

/-- How many lengths can be told apart. -/
def lengthBound : Nat := 4294967296

/-- The part of a payload that its length, as it is written, covers. -/
def covered (payload : Bytes) : Bytes := payload.take (payload.length % lengthBound)

theorem covered_of_lt {payload : Bytes} (h : payload.length < lengthBound) : covered payload = payload := by
  rw [covered, Nat.mod_eq_of_lt h, List.take_length]

theorem covered_append_of_le {payload : Bytes} (h : lengthBound ≤ payload.length) :
    ∃ more, more ≠ [] ∧ covered payload ++ more = payload := by
  have hlt : payload.length % lengthBound < payload.length := Nat.lt_of_lt_of_le (Nat.mod_lt _ (by decide)) h
  refine ⟨payload.drop (payload.length % lengthBound), ?_, List.take_append_drop _ _⟩
  rw [Ne, List.drop_eq_nil_iff]
  omega

theorem bigEndian_wordBytes (n : Nat) : Bytes.bigEndian (wordBytes n) = n % lengthBound := by
  simp only [wordBytes, Bytes.bigEndian, List.foldl_cons, List.foldl_nil, Nat.toUInt8_eq, UInt8.toNat_ofNat',
    lengthBound]
  omega

theorem readHeader?_wrap (flags : UInt8) (payload rest : Bytes) :
    readHeader? (wrap flags payload ++ rest) = some (flags, payload.length % lengthBound) := by
  rw [← bigEndian_wordBytes]
  rfl

theorem readHeader?_eq_some {bytes : Bytes} {flags : UInt8} {length : Nat}
    (h : readHeader? bytes = some (flags, length)) :
    ∃ a b c d rest, bytes = flags :: a :: b :: c :: d :: rest ∧ Bytes.bigEndian [a, b, c, d] = length := by
  unfold readHeader? at h
  split at h
  · cases h
    exact ⟨_, _, _, _, _, rfl, rfl⟩
  · cases h

theorem bigEndian_lt (a b c d : UInt8) : Bytes.bigEndian [a, b, c, d] < lengthBound := by
  simp only [Bytes.bigEndian, List.foldl_cons, List.foldl_nil, lengthBound]
  have := a.toNat_lt
  have := b.toNat_lt
  have := c.toNat_lt
  have := d.toNat_lt
  omega

theorem wordBytes_bigEndian (a b c d : UInt8) : wordBytes (Bytes.bigEndian [a, b, c, d]) = [a, b, c, d] := by
  have := a.toNat_lt
  have := b.toNat_lt
  have := c.toNat_lt
  have := d.toNat_lt
  simp only [wordBytes, Bytes.bigEndian, List.foldl_cons, List.foldl_nil, List.cons.injEq, and_true,
    ← UInt8.toNat_inj, Nat.toUInt8_eq, UInt8.toNat_ofNat']
  omega

theorem wordBytes_mod (n : Nat) : wordBytes (n % lengthBound) = wordBytes n := by
  rw [← bigEndian_wordBytes]
  exact wordBytes_bigEndian _ _ _ _

/-- What is written for a payload is an envelope of what its length covers, and then comes the rest of the payload. -/
theorem wrap_eq_covered (flags : UInt8) (payload : Bytes) :
    wrap flags payload = wrap flags (covered payload) ++ payload.drop (payload.length % lengthBound) := by
  have hcovered : (covered payload).length = payload.length % lengthBound := by
    rw [covered, List.length_take_of_le (Nat.mod_le _ _)]
  rw [wrap, wrap, hcovered, wordBytes_mod, List.append_assoc, covered, List.take_append_drop]

namespace Decoder

theorem next_wrap {limit : Limit} {flags : UInt8} (hflags : isCompressed flags = false) {payload : Bytes}
    (hlimit : limit.allows (payload.length % lengthBound) = true) (rest : Bytes) :
    next ⟨limit, wrap flags payload ++ rest⟩ =
      .ok (some (⟨flags, covered payload⟩, ⟨limit, payload.drop (payload.length % lengthBound) ++ rest⟩)) := by
  have hle : payload.length % lengthBound ≤ payload.length := Nat.mod_le _ _
  have hdrop : (wrap flags payload ++ rest).drop headerSize = payload ++ rest := rfl
  have hlength : ¬(wrap flags payload ++ rest).length < headerSize + payload.length % lengthBound := by
    simp only [wrap, wordBytes, List.length_append, List.length_cons, headerSize]
    omega
  rw [next]
  simp only [readHeader?_wrap, hlimit, if_true, hlength, if_false, hflags, Bool.false_eq_true, hdrop, covered,
    List.take_append_of_le_length hle, List.drop_append_of_le_length hle]

theorem next_wrap_of_lt {limit : Limit} {flags : UInt8} (hflags : isCompressed flags = false) {payload : Bytes}
    (h : payload.length < lengthBound) (hlimit : limit.allows payload.length = true) (rest : Bytes) :
    next ⟨limit, wrap flags payload ++ rest⟩ = .ok (some (⟨flags, payload⟩, ⟨limit, rest⟩)) := by
  have hmod : payload.length % lengthBound = payload.length := Nat.mod_eq_of_lt h
  rw [next_wrap hflags (by rw [hmod]; exact hlimit), covered_of_lt h, hmod, List.drop_length, List.nil_append]

theorem next_wrap_of_compressed {limit : Limit} {flags : UInt8} (hflags : isCompressed flags = true) {payload : Bytes}
    (h : payload.length < lengthBound) (hlimit : limit.allows payload.length = true) (rest : Bytes) :
    next ⟨limit, wrap flags payload ++ rest⟩ = .error .compressed := by
  have hlength : ¬(wrap flags payload ++ rest).length < headerSize + payload.length := by
    simp only [wrap, wordBytes, List.length_append, List.length_cons, headerSize]
    omega
  rw [next]
  simp only [readHeader?_wrap, Nat.mod_eq_of_lt h, hlimit, if_true, hlength, if_false, hflags]

/-- What was taken stood at the head of the bytes, as it is written. -/
theorem buffer_of_next {decoder rest : Decoder} {envelope : Envelope}
    (h : decoder.next = .ok (some (envelope, rest))) :
    decoder.buffer = envelope.toBytes ++ rest.buffer ∧ envelope.payload.length < lengthBound := by
  obtain ⟨length, hheader, -, hlength, -, hpayload, rfl⟩ := next_eq_some h
  obtain ⟨a, b, c, d, body, hbuffer, rfl⟩ := readHeader?_eq_some hheader
  have hbody : decoder.buffer.drop headerSize = body := by
    rw [hbuffer]
    rfl
  have hle : Bytes.bigEndian [a, b, c, d] ≤ body.length := by
    rw [hbuffer] at hlength
    simp only [List.length_cons, headerSize] at hlength
    omega
  rw [hbody] at hpayload
  have hsize : envelope.payload.length = Bytes.bigEndian [a, b, c, d] := by
    rw [hpayload, List.length_take_of_le hle]
  refine ⟨?_, hsize ▸ bigEndian_lt a b c d⟩
  rw [toBytes, wrap, hsize, wordBytes_bigEndian, hpayload, hbody, hbuffer]
  simp only [List.cons_append, List.nil_append, List.take_append_drop]

/-- What was drained of some bytes, and what is left, are all of these bytes. -/
theorem buffer_of_drain {decoder rest : Decoder} {envelopes : List Envelope} {error : Option Error}
    (h : decoder.drain = (envelopes, error, rest)) :
    decoder.buffer = envelopes.flatMap toBytes ++ rest.buffer ∧
      ∀ envelope ∈ envelopes, envelope.payload.length < lengthBound := by
  fun_induction drain decoder generalizing envelopes with
  | case1 | case2 =>
    cases h
    exact ⟨rfl, by simp⟩
  | case3 decoder envelope next hnext envelopes' error' final hdrain ih =>
    cases h
    obtain ⟨hbuffer, hlength⟩ := buffer_of_next hnext
    obtain ⟨hrest, hlengths⟩ := ih hdrain
    refine ⟨?_, List.forall_mem_cons.mpr ⟨hlength, hlengths⟩⟩
    rw [hbuffer, hrest, List.flatMap_cons, List.append_assoc]

theorem limit_of_drain {decoder rest : Decoder} {envelopes : List Envelope} {error : Option Error}
    (h : decoder.drain = (envelopes, error, rest)) : rest.limit = decoder.limit := by
  fun_induction drain decoder generalizing envelopes with
  | case1 | case2 =>
    cases h
    rfl
  | case3 decoder envelope next hnext envelopes' error' final hdrain ih =>
    cases h
    obtain ⟨_, _, _, _, _, _, rfl⟩ := next_eq_some hnext
    exact ih hdrain

theorem drain_wraps {flags : UInt8} (hflags : isCompressed flags = false) {payloads : List Bytes}
    (h : ∀ payload ∈ payloads, payload.length < lengthBound) (rest : Bytes) :
    drain ⟨.unlimited, payloads.flatMap (wrap flags) ++ rest⟩ =
      (payloads.map (Envelope.mk flags) ++ (drain ⟨.unlimited, rest⟩).1, (drain ⟨.unlimited, rest⟩).2) := by
  induction payloads with
  | nil => rfl
  | cons payload payloads ih =>
    have hnext := next_wrap_of_lt hflags (h payload List.mem_cons_self) (Limit.allows_unlimited _)
      (payloads.flatMap (wrap flags) ++ rest)
    rw [List.flatMap_cons, List.append_assoc, drain_of_some hnext,
      ih fun payload hmem => h payload (List.mem_cons_of_mem _ hmem)]
    rfl

end Decoder
end RpcConformance.Envelope
