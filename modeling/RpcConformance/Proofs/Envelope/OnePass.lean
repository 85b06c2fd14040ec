import RpcConformance.Proofs.Envelope.Decoder
/-!
Envelopes read in one pass over all bytes, and the same from bytes that arrive in pieces: the items
of a stream of chunks are those of its bytes (`decode_eq_onePass`), wherever they are cut.
-/
namespace RpcConformance.Envelope

/-- What is wrong with a frame of which `here` bytes of payload are there: its declared length is
looked at first, then whether its payload is complete, then whether it is compressed. -/
def fault? (limit : Limit) (flags : UInt8) (length here : Nat) : Option Error :=
  match limit.maxBytes.filter (· < length) with
  | some max => some (.tooLarge length max)
  | none =>
    if here < length then some (.truncated (headerSize + here))
    else if isCompressed flags then some .compressed
    else none

/-- The items of a whole byte string: frame after frame, up to the first fault. -/
def onePass (limit : Limit) : Bytes → List (Except Error Envelope)
  | [] => []
  | flags :: a :: b :: c :: d :: rest =>
    let length := Bytes.bigEndian [a, b, c, d]
    match fault? limit flags length rest.length with
    | some error => [.error error]
    | none => .ok ⟨flags, rest.take length⟩ :: onePass limit (rest.drop length)
  | bytes => [.error (.truncated bytes.length)]
termination_by bytes => bytes.length
decreasing_by
  simp only [List.length_cons, List.length_drop]
  omega

/-- The items of a stream that fails for a reason after bytes with the given items: a frame that is
incomplete is no fault of its own then, and a fault that was found before ends the stream. -/
def brokenOff (reason : String) (items : List (Except Error Envelope)) : List (Except Error Envelope) :=
  match items.getLast? with
  | some (.error (.truncated _)) => items.dropLast ++ [.error (.read reason)]
  | some (.error _) => items
  | some (.ok _) | none => items ++ [.error (.read reason)]

theorem brokenOff_map_ok (reason : String) (envelopes : List Envelope) :
    brokenOff reason (envelopes.map .ok) = envelopes.map .ok ++ [.error (.read reason)] := by
  rw [brokenOff]
  rw [List.getLast?_map]
  cases envelopes.getLast? <;> rfl

theorem brokenOff_truncated (reason : String) (items : List (Except Error Envelope)) (bytes : Nat) :
    brokenOff reason (items ++ [.error (.truncated bytes)]) = items ++ [.error (.read reason)] := by
  simp [brokenOff]

theorem brokenOff_error {error : Error} (h : ∀ bytes, error ≠ .truncated bytes) (reason : String)
    (items : List (Except Error Envelope)) :
    brokenOff reason (items ++ [.error error]) = items ++ [.error error] := by
  cases error <;> simp_all [brokenOff]

theorem decodeFrom_nil (decoder : Decoder) :
    decodeFrom decoder [] =
      if decoder.buffer = [] then [] else [.error (.truncated decoder.buffer.length)] := by
  simp only [decodeFrom, Decoder.finish, List.isEmpty_iff]
  split <;> split <;> simp_all

theorem onePass_of_short {limit : Limit} {bytes : Bytes} (h : readHeader? bytes = none)
    (hne : bytes ≠ []) : onePass limit bytes = [.error (.truncated bytes.length)] := by
  unfold readHeader? at h
  split at h
  · cases h
  · rename_i hshort
    rw [onePass]
    · exact hne
    · exact hshort

theorem onePass_of_header {limit : Limit} {bytes : Bytes} {flags : UInt8} {length : Nat}
    (h : readHeader? bytes = some (flags, length)) :
    onePass limit bytes =
      match fault? limit flags length (bytes.length - headerSize) with
      | some error => [.error error]
      | none => .ok ⟨flags, (bytes.drop headerSize).take length⟩ ::
          onePass limit ((bytes.drop headerSize).drop length) := by
  unfold readHeader? at h
  split at h
  · cases h
    rw [onePass]
    rfl
  · cases h

theorem fault?_of_allows {limit : Limit} {flags : UInt8} {length here : Nat}
    (h : limit.allows length = true) :
    fault? limit flags length here =
      if here < length then some (.truncated (headerSize + here))
      else if isCompressed flags then some .compressed
      else none := by
  cases hmax : limit.maxBytes with
  | none => simp [fault?, hmax]
  | some max =>
    have hle : length ≤ max := by simpa [Limit.allows, hmax] using h
    simp [fault?, hmax, Option.filter, Nat.not_lt.2 hle]

theorem fault?_of_exceeds {limit : Limit} {flags : UInt8} {length here : Nat}
    (h : limit.allows length = false) :
    fault? limit flags length here = some (.tooLarge length limit.wordBound) := by
  cases hmax : limit.maxBytes with
  | none => simp [Limit.allows, hmax] at h
  | some max =>
    have hlt : max < length := by simpa [Limit.allows, hmax] using h
    simp [fault?, hmax, Option.filter, hlt, Limit.wordBound]

/-- Bytes from which nothing can be taken are the part of one frame, or there are none. -/
theorem onePass_of_next_none {decoder : Decoder} (h : decoder.next = .ok none) :
    onePass decoder.limit decoder.buffer = decodeFrom decoder [] := by
  rw [decodeFrom_nil]
  split
  · rename_i hnil
    rw [hnil, onePass]
  · rename_i hne
    rcases Decoder.next_eq_none h with hheader | ⟨flags, length, hheader, hallows, hshort⟩
    · exact onePass_of_short hheader hne
    · have hsize := headerSize_le_of_readHeader? hheader
      have hlt : decoder.buffer.length - headerSize < length := by omega
      have hsum : headerSize + (decoder.buffer.length - headerSize) = decoder.buffer.length := by omega
      rw [onePass_of_header hheader, fault?_of_allows hallows, if_pos hlt, hsum]

theorem onePass_of_next_error {decoder : Decoder} {error : Error} (h : decoder.next = .error error) :
    onePass decoder.limit decoder.buffer = [.error error] := by
  obtain ⟨flags, length, hheader, ⟨hallows, rfl⟩ | ⟨hallows, hlength, hflags, rfl⟩⟩ :=
    Decoder.next_eq_error h
  · rw [onePass_of_header hheader, fault?_of_exceeds hallows]
  · have hnot : ¬ decoder.buffer.length - headerSize < length := by omega
    rw [onePass_of_header hheader, fault?_of_allows hallows, if_neg hnot, if_pos hflags]

theorem onePass_of_next_some {decoder rest : Decoder} {envelope : Envelope}
    (h : decoder.next = .ok (some (envelope, rest))) :
    onePass decoder.limit decoder.buffer = .ok envelope :: onePass rest.limit rest.buffer := by
  obtain ⟨length, hheader, hallows, hlength, hflags, hpayload, rfl⟩ := Decoder.next_eq_some h
  have hnot : ¬ decoder.buffer.length - headerSize < length := by omega
  rw [onePass_of_header hheader, fault?_of_allows hallows, if_neg hnot, if_neg (by simp [hflags]),
    ← hpayload]

/-- Draining a decoder and then looking at what is left is one pass over its bytes. -/
theorem onePass_eq_drain (decoder : Decoder) :
    onePass decoder.limit decoder.buffer =
      decoder.drain.1.map .ok ++
        match decoder.drain.2 with
        | (some error, _) => [.error error]
        | (none, rest) => decodeFrom rest [] := by
  fun_induction Decoder.drain decoder with
  | case1 decoder hnext => simpa using onePass_of_next_none hnext
  | case2 decoder error hnext => simpa using onePass_of_next_error hnext
  | case3 decoder envelope rest hnext envelopes error final hdrain ih =>
    rw [onePass_of_next_some hnext, ih, hdrain]
    rfl

/-- Chunks give what draining all their bytes at once gives, and then the rest of the stream. -/
theorem decodeFrom_append {decoder : Decoder} (h : decoder.next = .ok none) (chunks : List Bytes)
    (later : List Chunk) :
    decodeFrom decoder (chunks.map .ok ++ later) =
      (decoder.push chunks.flatten).drain.1.map .ok ++
        match (decoder.push chunks.flatten).drain.2 with
        | (some error, _) => [.error error]
        | (none, rest) => decodeFrom rest later := by
  induction chunks generalizing decoder with
  | nil =>
    rw [List.flatten_nil, Decoder.push_nil, Decoder.drain_of_none h]
    rfl
  | cons chunk chunks ih =>
    rw [List.map_cons, List.cons_append, decodeFrom, List.flatten_cons, ← Decoder.push_push]
    cases hdrain : (decoder.push chunk).drain with
    | mk envelopes ending =>
      obtain ⟨_ | error, rest⟩ := ending
      · rw [Decoder.drain_push hdrain]
        simp only [ih (Decoder.next_of_drain hdrain), List.map_append, List.append_assoc]
      · rw [Decoder.drain_push_of_error hdrain]

theorem decode_append (limit : Limit) (chunks : List Bytes) (later : List Chunk) :
    decode limit (chunks.map .ok ++ later) =
      (Decoder.mk limit chunks.flatten).drain.1.map .ok ++
        match (Decoder.mk limit chunks.flatten).drain.2 with
        | (some error, _) => [.error error]
        | (none, rest) => decodeFrom rest later :=
  decodeFrom_append (Decoder.next_start limit) chunks later

theorem decode_eq (limit : Limit) (chunks : List Bytes) :
    decode limit (chunks.map .ok) = onePass limit chunks.flatten := by
  have h := decode_append limit chunks []
  rw [List.append_nil] at h
  rw [h, onePass_eq_drain ⟨limit, chunks.flatten⟩]

/-- A fault that is there, other than an incomplete frame, is there whatever comes later. -/
theorem decode_of_fault {limit : Limit} {chunks : List Bytes} {error : Error}
    (h : (onePass limit chunks.flatten).getLast? = some (.error error))
    (herror : ∀ bytes, error ≠ .truncated bytes) (later : List Chunk) :
    decode limit (chunks.map .ok ++ later) = onePass limit chunks.flatten := by
  have hpass := onePass_eq_drain ⟨limit, chunks.flatten⟩
  rw [decode_append]
  rcases hdrain : (Decoder.mk limit chunks.flatten).drain with ⟨envelopes, _ | found, rest⟩
  · rw [hdrain] at hpass
    simp only [decodeFrom_nil] at hpass
    rw [hpass] at h
    split at h
    · simp at h
    · have hlast : Error.truncated rest.buffer.length = error := by simpa using h
      exact absurd hlast.symm (herror _)
  · rw [hdrain] at hpass
    exact hpass.symm

theorem decode_of_failure (limit : Limit) (chunks : List Bytes) (reason : String) (later : List Chunk) :
    decode limit (chunks.map .ok ++ .error reason :: later) =
      brokenOff reason (onePass limit chunks.flatten) := by
  have hpass := onePass_eq_drain ⟨limit, chunks.flatten⟩
  rw [decode_append, hpass]
  rcases hdrain : (Decoder.mk limit chunks.flatten).drain with ⟨envelopes, _ | error, rest⟩
  · simp only [decodeFrom_nil]
    split
    · rw [List.append_nil, brokenOff_map_ok]
      rfl
    · rw [brokenOff_truncated]
      rfl
  · exact (brokenOff_error (Decoder.drain_error_ne_truncated hdrain) _ _).symm

/-- Envelopes are a function of the bytes: the items of a stream of chunks are those of one pass over
its bytes; a fault found on the way ends the stream, and so does a read that fails, which leaves
nothing to say about an incomplete frame. Cutting the same bytes elsewhere changes nothing. -/
theorem decode_eq_onePass (limit : Limit) (chunks : List Bytes) :
    decode limit (chunks.map .ok) = onePass limit chunks.flatten ∧
    (∀ reason later, decode limit (chunks.map .ok ++ .error reason :: later) =
      brokenOff reason (onePass limit chunks.flatten)) ∧
    (∀ error later, (onePass limit chunks.flatten).getLast? = some (.error error) →
      (∀ bytes, error ≠ .truncated bytes) →
      decode limit (chunks.map .ok ++ later) = onePass limit chunks.flatten) ∧
    ∀ other : List Bytes, other.flatten = chunks.flatten →
      decode limit (other.map .ok) = decode limit (chunks.map .ok) := by
  refine ⟨decode_eq limit chunks, decode_of_failure limit chunks, ?_, ?_⟩
  · intro error later hlast herror
    exact decode_of_fault hlast herror later
  · intro other hother
    rw [decode_eq, decode_eq, hother]

end RpcConformance.Envelope
