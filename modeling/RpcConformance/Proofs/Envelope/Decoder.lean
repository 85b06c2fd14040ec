import RpcConformance.Envelope.Decoder
/-!
What a decoder takes does not depend on where its bytes are cut: bytes that arrive later leave what
is there already as it is (`next_push`), so draining piece by piece drains the whole (`drain_push`).
-/
namespace RpcConformance.Envelope

theorem readHeader?_append {bytes : Bytes} {header : UInt8 × Nat} (h : readHeader? bytes = some header)
    (more : Bytes) : readHeader? (bytes ++ more) = some header := by
  unfold readHeader? at h
  split at h
  · cases h
    rfl
  · cases h

theorem length_lt_of_readHeader?_eq_none {bytes : Bytes} (h : readHeader? bytes = none) : bytes.length < headerSize := by
  match bytes with
  | [] | [_] | [_, _] | [_, _, _] | [_, _, _, _] => simp [headerSize]
  | _ :: _ :: _ :: _ :: _ :: _ => simp [readHeader?] at h

theorem headerSize_le_of_readHeader? {bytes : Bytes} {header : UInt8 × Nat}
    (h : readHeader? bytes = some header) : headerSize ≤ bytes.length := by
  unfold readHeader? at h
  split at h
  · simp only [headerSize, List.length_cons]
    omega
  · cases h

namespace Decoder

@[simp] theorem push_limit (decoder : Decoder) (bytes : Bytes) :
    (decoder.push bytes).limit = decoder.limit := rfl

@[simp] theorem push_buffer (decoder : Decoder) (bytes : Bytes) :
    (decoder.push bytes).buffer = decoder.buffer ++ bytes := rfl

@[simp] theorem push_nil (decoder : Decoder) : decoder.push [] = decoder := by
  simp [push]

@[simp] theorem push_push (decoder : Decoder) (first second : Bytes) :
    (decoder.push first).push second = decoder.push (first ++ second) := by
  simp [push]

@[simp] theorem next_start (limit : Limit) : (start limit).next = .ok none := rfl

/-- An envelope is taken when its header is there, its length is allowed, all of its payload is
there, and it is not compressed. -/
theorem next_eq_some {decoder rest : Decoder} {envelope : Envelope}
    (h : decoder.next = .ok (some (envelope, rest))) :
    ∃ length, readHeader? decoder.buffer = some (envelope.flags, length) ∧
      decoder.limit.allows length = true ∧ headerSize + length ≤ decoder.buffer.length ∧
      isCompressed envelope.flags = false ∧
      envelope.payload = (decoder.buffer.drop headerSize).take length ∧
      rest = { decoder with buffer := (decoder.buffer.drop headerSize).drop length } := by
  rw [next] at h
  split at h
  · cases h
  · rename_i flags length hheader
    split at h
    · rename_i hallows
      split at h
      · cases h
      · rename_i hlength
        split at h
        · cases h
        · rename_i hflags
          cases h
          exact ⟨length, hheader, hallows, by omega, by simpa using hflags, rfl, rfl⟩
    · cases h

/-- A stream is broken off by a length that is not allowed, or by a compressed envelope. -/
theorem next_eq_error {decoder : Decoder} {error : Error} (h : decoder.next = .error error) :
    ∃ flags length, readHeader? decoder.buffer = some (flags, length) ∧
      (decoder.limit.allows length = false ∧ error = .tooLarge length decoder.limit.wordBound ∨
        decoder.limit.allows length = true ∧ headerSize + length ≤ decoder.buffer.length ∧
          isCompressed flags = true ∧ error = .compressed) := by
  rw [next] at h
  split at h
  · cases h
  · rename_i flags length hheader
    refine ⟨flags, length, hheader, ?_⟩
    split at h
    · rename_i hallows
      split at h
      · cases h
      · rename_i hlength
        split at h
        · rename_i hflags
          cases h
          exact .inr ⟨hallows, by omega, hflags, rfl⟩
        · cases h
    · rename_i hallows
      cases h
      exact .inl ⟨by simpa using hallows, rfl⟩

/-- Nothing is taken as long as the header is not there, or a payload whose length is allowed. -/
theorem next_eq_none {decoder : Decoder} (h : decoder.next = .ok none) :
    readHeader? decoder.buffer = none ∨ ∃ flags length, readHeader? decoder.buffer = some (flags, length) ∧
      decoder.limit.allows length = true ∧ decoder.buffer.length < headerSize + length := by
  rw [next] at h
  split at h
  · rename_i hheader
    exact .inl hheader
  · rename_i flags length hheader
    split at h
    · rename_i hallows
      split at h
      · rename_i hlength
        exact .inr ⟨flags, length, hheader, hallows, hlength⟩
      · split at h <;> cases h
    · cases h

theorem next_push {decoder rest : Decoder} {envelope : Envelope}
    (h : decoder.next = .ok (some (envelope, rest))) (bytes : Bytes) :
    (decoder.push bytes).next = .ok (some (envelope, rest.push bytes)) := by
  obtain ⟨length, hheader, hallows, hlength, hflags, hpayload, rfl⟩ := next_eq_some h
  have hnot : ¬ (decoder.buffer ++ bytes).length < headerSize + length := by
    simp only [List.length_append]
    omega
  have hdrop : (decoder.buffer ++ bytes).drop headerSize = decoder.buffer.drop headerSize ++ bytes :=
    List.drop_append_of_le_length (by omega)
  have hle : length ≤ (decoder.buffer.drop headerSize).length := by
    simp only [List.length_drop]
    omega
  simp only [next, push_buffer, push_limit, readHeader?_append hheader, hallows, if_true, hnot,
    if_false, hflags, Bool.false_eq_true, hdrop, List.take_append_of_le_length hle,
    List.drop_append_of_le_length hle, ← hpayload]
  rfl

theorem next_push_of_error {decoder : Decoder} {error : Error} (h : decoder.next = .error error)
    (bytes : Bytes) : (decoder.push bytes).next = .error error := by
  obtain ⟨flags, length, hheader, ⟨hallows, rfl⟩ | ⟨hallows, hlength, hflags, rfl⟩⟩ := next_eq_error h
  · simp [next, readHeader?_append hheader, hallows]
  · have hnot : ¬ (decoder.buffer ++ bytes).length < headerSize + length := by
      simp only [List.length_append]
      omega
    simp only [next, push_buffer, push_limit, readHeader?_append hheader, hallows, if_true, hnot,
      if_false, hflags]

theorem drain_of_none {decoder : Decoder} (h : decoder.next = .ok none) :
    decoder.drain = ([], none, decoder) := by
  rw [drain]
  split <;> simp_all

theorem drain_of_error {decoder : Decoder} {error : Error} (h : decoder.next = .error error) :
    decoder.drain = ([], some error, decoder) := by
  rw [drain]
  split <;> simp_all

theorem drain_of_some {decoder rest : Decoder} {envelope : Envelope}
    (h : decoder.next = .ok (some (envelope, rest))) :
    decoder.drain = (envelope :: rest.drain.1, rest.drain.2) := by
  rw [drain]
  split <;> simp_all

theorem next_of_drain {decoder rest : Decoder} {envelopes : List Envelope}
    (h : decoder.drain = (envelopes, none, rest)) : rest.next = .ok none := by
  fun_induction drain decoder generalizing envelopes with
  | case1 decoder hnext =>
    cases h
    exact hnext
  | case2 => cases h
  | case3 decoder envelope next hnext envelopes' error' final hdrain ih =>
    cases h
    exact ih hdrain

theorem isCompressed_of_drain {decoder rest : Decoder} {envelopes : List Envelope} {error : Option Error}
    (h : decoder.drain = (envelopes, error, rest)) : ∀ envelope ∈ envelopes, isCompressed envelope.flags = false := by
  fun_induction drain decoder generalizing envelopes with
  | case1 | case2 =>
    cases h
    simp
  | case3 decoder envelope next hnext envelopes' error' final hdrain ih =>
    cases h
    obtain ⟨_, _, _, _, hflags, _, _⟩ := next_eq_some hnext
    exact List.forall_mem_cons.mpr ⟨hflags, ih hdrain⟩

theorem next_of_drain_error {decoder rest : Decoder} {envelopes : List Envelope} {error : Error}
    (h : decoder.drain = (envelopes, some error, rest)) : rest.next = .error error := by
  fun_induction drain decoder generalizing envelopes with
  | case1 => cases h
  | case2 decoder error' hnext =>
    cases h
    exact hnext
  | case3 decoder envelope next hnext envelopes' error' final hdrain ih =>
    cases h
    exact ih hdrain

theorem drain_push {decoder rest : Decoder} {envelopes : List Envelope}
    (h : decoder.drain = (envelopes, none, rest)) (bytes : Bytes) :
    (decoder.push bytes).drain = (envelopes ++ (rest.push bytes).drain.1, (rest.push bytes).drain.2) := by
  fun_induction drain decoder generalizing envelopes with
  | case1 =>
    cases h
    rfl
  | case2 => cases h
  | case3 decoder envelope next hnext envelopes' error' final hdrain ih =>
    cases h
    rw [drain_of_some (next_push hnext bytes), ih hdrain]
    rfl

theorem drain_push_of_error {decoder rest : Decoder} {envelopes : List Envelope} {error : Error}
    (h : decoder.drain = (envelopes, some error, rest)) (bytes : Bytes) :
    (decoder.push bytes).drain = (envelopes, some error, rest.push bytes) := by
  fun_induction drain decoder generalizing envelopes with
  | case1 => cases h
  | case2 decoder error' hnext =>
    cases h
    exact drain_of_error (next_push_of_error hnext bytes)
  | case3 decoder envelope next hnext envelopes' error' final hdrain ih =>
    cases h
    rw [drain_of_some (next_push hnext bytes), ih hdrain]

theorem drain_error_ne_truncated {decoder rest : Decoder} {envelopes : List Envelope} {error : Error}
    (h : decoder.drain = (envelopes, some error, rest)) (bytes : Nat) : error ≠ .truncated bytes := by
  fun_induction drain decoder generalizing envelopes with
  | case1 => cases h
  | case2 decoder error' hnext =>
    cases h
    obtain ⟨_, _, _, ⟨_, rfl⟩ | ⟨_, _, _, rfl⟩⟩ := next_eq_error hnext <;> simp
  | case3 decoder envelope next hnext envelopes' error' final hdrain ih =>
    cases h
    exact ih hdrain

end Decoder
end RpcConformance.Envelope
