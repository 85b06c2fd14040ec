import RpcConformance.Envelope.Basic
import RpcConformance.Limit
/-!
Taking envelopes from bytes that arrive in pieces. A decoder holds what has arrived and not been
taken; a length beyond the limit is refused as soon as it is known.
-/
namespace RpcConformance.Envelope

/-- Bytes that have arrived, and the limit they are held to. -/
structure Decoder where
  limit : Limit
  buffer : Bytes

namespace Decoder

/-- Nothing has arrived yet; without a limit any length is accepted. -/
def start (limit : Limit := .unlimited) : Decoder := ⟨limit, []⟩

def push (decoder : Decoder) (chunk : Bytes) : Decoder :=
  { decoder with buffer := decoder.buffer ++ chunk }

/-- The first envelope, if all of it has arrived, and the decoder without it. -/
def next (decoder : Decoder) : Except Error (Option (Envelope × Decoder)) :=
  match readHeader? decoder.buffer with
  | none => .ok none
  | some (flags, length) =>
    if decoder.limit.allows length then
      if decoder.buffer.length < headerSize + length then .ok none
      else if isCompressed flags then .error .compressed
      else
        let body := decoder.buffer.drop headerSize
        .ok (some (⟨flags, body.take length⟩, { decoder with buffer := body.drop length }))
    else .error (.tooLarge length decoder.limit.wordBound)

theorem length_next {decoder decoder' : Decoder} {envelope : Envelope}
    (h : decoder.next = .ok (some (envelope, decoder'))) :
    decoder'.buffer.length + headerSize ≤ decoder.buffer.length := by
  unfold next at h
  split at h
  · simp at h
  · rename_i flags length heq
    split at h
    · split at h
      · simp at h
      · split at h
        · simp at h
        · rename_i hlen _
          simp only [Except.ok.injEq, Option.some.injEq, Prod.mk.injEq] at h
          obtain ⟨_, rfl⟩ := h
          simp only [List.length_drop]
          omega
    · simp at h

/-- Every envelope that has arrived in full, the error that stops the stream if there is one, and
the decoder after them. -/
def drain (decoder : Decoder) : List Envelope × Option Error × Decoder :=
  match _h : decoder.next with
  | .ok none => ([], none, decoder)
  | .error error => ([], some error, decoder)
  | .ok (some (envelope, rest)) =>
    let (envelopes, error, final) := rest.drain
    (envelope :: envelopes, error, final)
termination_by decoder.buffer.length
decreasing_by have := length_next _h; simp only [headerSize] at this; omega

/-- The end of the input; bytes that are left belong to a frame that was cut short. -/
def finish (decoder : Decoder) : Except Error Unit :=
  if decoder.buffer.isEmpty then .ok () else .error (.truncated decoder.buffer.length)

end Decoder

/-- What a byte stream delivers next: bytes, or the reason why it failed. -/
abbrev Chunk := Except String Bytes

/-- The items of a stream of chunks: envelopes, then perhaps the error that ended it. -/
def decodeFrom (decoder : Decoder) : List Chunk → List (Except Error Envelope)
  | [] =>
    match decoder.finish with
    | .ok () => []
    | .error error => [.error error]
  | .error reason :: _ => [.error (.read reason)]
  | .ok bytes :: chunks =>
    match (decoder.push bytes).drain with
    | (envelopes, some error, _) => envelopes.map .ok ++ [.error error]
    | (envelopes, none, rest) => envelopes.map .ok ++ decodeFrom rest chunks

def decode (limit : Limit) (chunks : List Chunk) : List (Except Error Envelope) :=
  decodeFrom (.start limit) chunks

end RpcConformance.Envelope
