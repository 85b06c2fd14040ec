import RpcConformance.Proofs.Envelope.Framing
/-!
How much is held while a stream of chunks is decoded. Between chunks there is less than one frame left, and a frame whose
declared length exceeds the limit ends the stream, so the limit bounds what is held (`length_buffer_le`) and what is
yielded (`length_payload_le`).
-/
namespace RpcConformance.Envelope

/-- What happens while a stream of chunks is decoded: the next chunk is asked for, with a decoder in hand, or an item is
yielded. -/
inductive Happening
  | asks (held : Decoder)
  | yields (item : Except Error Envelope)

def Happening.item? : Happening → Option (Except Error Envelope)
  | asks _ => none
  | yields item => some item

def happenings (decoder : Decoder) : List Chunk → List Happening
  | [] =>
    .asks decoder ::
      match decoder.finish with
      | .ok () => []
      | .error error => [.yields (.error error)]
  | .error reason :: _ => [.asks decoder, .yields (.error (.read reason))]
  | .ok bytes :: chunks =>
    .asks decoder ::
      match (decoder.push bytes).drain with
      | (envelopes, some error, _) => envelopes.map (.yields <| .ok ·) ++ [.yields (.error error)]
      | (envelopes, none, rest) => envelopes.map (.yields <| .ok ·) ++ happenings rest chunks

theorem items_happenings (decoder : Decoder) (chunks : List Chunk) :
    (happenings decoder chunks).filterMap Happening.item? = decodeFrom decoder chunks := by
  have hitems (envelopes : List Envelope) :
      (envelopes.map fun envelope => Happening.yields (.ok envelope)).filterMap Happening.item? =
        envelopes.map .ok := by
    rw [List.filterMap_map, ← List.filterMap_eq_map]
    rfl
  induction chunks generalizing decoder with
  | nil =>
    rw [happenings, decodeFrom]
    cases decoder.finish <;> rfl
  | cons chunk chunks ih =>
    cases chunk with
    | error reason => rfl
    | ok bytes =>
      rw [happenings, decodeFrom]
      rcases (decoder.push bytes).drain with ⟨envelopes, _ | error, rest⟩
      · rw [List.filterMap_cons_none rfl, List.filterMap_append, hitems, ih]
      · rw [List.filterMap_cons_none rfl, List.filterMap_append, hitems]
        rfl

namespace Decoder

variable {decoder rest : Decoder} {max : Nat}

/-- A decoder from which nothing can be taken holds less than a frame, and a frame within the limit. -/
theorem length_buffer_le (hlimit : decoder.limit = ⟨some max⟩) (h : decoder.next = .ok none) :
    decoder.buffer.length ≤ max + 4 := by
  rcases next_eq_none h with hheader | ⟨flags, length, -, hallows, hlength⟩
  · have hshort := length_lt_of_readHeader?_eq_none hheader
    simp only [headerSize] at hshort
    omega
  · have hle : length ≤ max := by simpa [hlimit, Limit.allows] using hallows
    simp only [headerSize] at hlength
    omega

theorem length_payload_le (hlimit : decoder.limit = ⟨some max⟩) {envelopes : List Envelope} {error : Option Error}
    (h : decoder.drain = (envelopes, error, rest)) : ∀ envelope ∈ envelopes, envelope.payload.length ≤ max := by
  fun_induction drain decoder generalizing envelopes with
  | case1 | case2 =>
    cases h
    simp
  | case3 decoder envelope next hnext envelopes' error' final hdrain ih =>
    cases h
    obtain ⟨length, -, hallows, -, -, hpayload, hrest⟩ := next_eq_some hnext
    have hle : length ≤ max := by simpa [hlimit, Limit.allows] using hallows
    have hhead : envelope.payload.length ≤ max := by
      rw [hpayload]
      exact Nat.le_trans (List.length_take_le _ _) hle
    exact List.forall_mem_cons.2 ⟨hhead, ih (by rw [hrest, hlimit]) hdrain⟩

end Decoder

/-- Whether what happens keeps to a limit of `max` bytes: less than a frame of the limit's size is held when the next chunk
is asked for, and the payload of what is yielded is within the limit. -/
def Happening.Within (max : Nat) : Happening → Prop
  | asks held => held.buffer.length ≤ max + 4
  | yields (.ok envelope) => envelope.payload.length ≤ max
  | yields (.error _) => True

section Within

variable {decoder : Decoder} {max : Nat}

theorem within_of_drain (hlimit : decoder.limit = ⟨some max⟩) {envelopes : List Envelope} {error : Option Error}
    {rest : Decoder} (h : decoder.drain = (envelopes, error, rest)) :
    ∀ happening ∈ envelopes.map fun envelope => Happening.yields (.ok envelope), happening.Within max := by
  intro happening hmem
  obtain ⟨envelope, henvelope, rfl⟩ := List.mem_map.1 hmem
  exact Decoder.length_payload_le hlimit h envelope henvelope

/-- From a decoder from which nothing can be taken everything keeps to the limit. -/
theorem within_of_next_none (hlimit : decoder.limit = ⟨some max⟩)
    (hnext : decoder.next = .ok none) (chunks : List Chunk) :
    ∀ happening ∈ happenings decoder chunks, happening.Within max := by
  -- The decoder in hand when a chunk is asked for is always one from which nothing can be taken.
  induction chunks generalizing decoder with
  | nil =>
    have hasks : (Happening.asks decoder).Within max := Decoder.length_buffer_le hlimit hnext
    rw [happenings, List.forall_mem_cons]
    refine ⟨hasks, ?_⟩
    cases decoder.finish <;> simp [Happening.Within]
  | cons chunk chunks ih =>
    have hasks : (Happening.asks decoder).Within max := Decoder.length_buffer_le hlimit hnext
    cases chunk with
    | error reason => simpa [happenings, Happening.Within] using hasks
    | ok bytes =>
      rw [happenings, List.forall_mem_cons]
      refine ⟨hasks, ?_⟩
      have hpushed : (decoder.push bytes).limit = ⟨some max⟩ := hlimit
      rcases hdrain : (decoder.push bytes).drain with ⟨envelopes, _ | error, rest⟩
      · have hrest : rest.limit = ⟨some max⟩ := (Decoder.limit_of_drain hdrain).trans hpushed
        exact List.forall_mem_append.2 ⟨within_of_drain hpushed hdrain, ih hrest (Decoder.next_of_drain hdrain)⟩
      · exact List.forall_mem_append.2 ⟨within_of_drain hpushed hdrain, by simp [Happening.Within]⟩

end Within

/-- The limit bounds the memory of a receiver, whatever lengths its peer declares and however the bytes are cut: each
time the next chunk is asked for, at most four bytes more than the limit are held, and no envelope that is yielded has
a payload beyond it. What happens is told by the items themselves, with the moments at which a chunk is asked for
between them. -/
theorem decode_within (max : Nat) (chunks : List Chunk) :
    (happenings (.start ⟨some max⟩) chunks).filterMap Happening.item? = decode ⟨some max⟩ chunks ∧
    (∀ held, .asks held ∈ happenings (.start ⟨some max⟩) chunks → held.buffer.length ≤ max + 4) ∧
    ∀ envelope, .ok envelope ∈ decode ⟨some max⟩ chunks → envelope.payload.length ≤ max := by
  have hstart : (Decoder.start ⟨some max⟩).limit = ⟨some max⟩ := rfl
  have hwithin := within_of_next_none hstart (Decoder.next_start _) chunks
  have hitems := items_happenings (.start ⟨some max⟩) chunks
  refine ⟨hitems, fun held hmem => hwithin _ hmem, fun envelope hmem => ?_⟩
  rw [decode, ← hitems] at hmem
  obtain ⟨happening, hhappening, hitem⟩ := List.mem_filterMap.1 hmem
  cases happening with
  | asks held => cases hitem
  | yields item =>
    cases hitem
    exact hwithin _ hhappening

def brimming : List Chunk := [.ok [0x00, 0x00, 0x00, 0x00, 0x00, 0x02], .ok [0x00, 0x00, 0x00, 0x02, 0x07], .error "reset"]

theorem happenings_brimming :
    happenings (.start ⟨some 2⟩) brimming =
      [.asks ⟨⟨some 2⟩, []⟩, .yields (.ok ⟨0x00, []⟩), .asks ⟨⟨some 2⟩, [0x02]⟩,
        .asks ⟨⟨some 2⟩, [0x02, 0x00, 0x00, 0x00, 0x02, 0x07]⟩, .yields (.error (.read "reset"))] := by
  have hfirst : ((Decoder.start ⟨some 2⟩).push [0x00, 0x00, 0x00, 0x00, 0x00, 0x02]).drain =
      ([⟨0x00, []⟩], none, ⟨⟨some 2⟩, [0x02]⟩) := by
    have hnext : ((Decoder.start ⟨some 2⟩).push [0x00, 0x00, 0x00, 0x00, 0x00, 0x02]).next =
        .ok (some (⟨0x00, []⟩, ⟨⟨some 2⟩, [0x02]⟩)) := by cbv
    have hrest : (Decoder.mk ⟨some 2⟩ [0x02]).next = .ok none := by rfl
    rw [Decoder.drain_of_some hnext, Decoder.drain_of_none hrest]
  have hsecond : ((Decoder.mk ⟨some 2⟩ [0x02]).push [0x00, 0x00, 0x00, 0x02, 0x07]).drain =
      ([], none, ⟨⟨some 2⟩, [0x02, 0x00, 0x00, 0x00, 0x02, 0x07]⟩) :=
    Decoder.drain_of_none (by cbv)
  simp only [brimming, happenings, hfirst, hsecond]
  rfl

/-- The bound is reached: six bytes are held under a limit of two. -/
theorem decode_within_brimming :
    .asks ⟨⟨some 2⟩, [0x02, 0x00, 0x00, 0x00, 0x02, 0x07]⟩ ∈ happenings (.start ⟨some 2⟩) brimming ∧
      [0x02, 0x00, 0x00, 0x00, 0x02, 0x07].length ≤ 2 + 4 := by
  have hasks : .asks ⟨⟨some 2⟩, [0x02, 0x00, 0x00, 0x00, 0x02, 0x07]⟩ ∈ happenings (.start ⟨some 2⟩) brimming := by
    rw [happenings_brimming]
    simp
  exact ⟨hasks, (decode_within 2 brimming).2.1 _ hasks⟩

end RpcConformance.Envelope
