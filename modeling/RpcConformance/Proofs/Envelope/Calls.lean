import RpcConformance.Proofs.Envelope.Framing
/-!
A decoder through any calls, pushing bytes and asking for envelopes in any order. The envelopes it returned, as they
are written, and the bytes it holds are the bytes that were pushed (`run_buffer`); an error it returned once it returns
for good (`run_of_error`).
-/
namespace RpcConformance.Envelope

abbrev Answer := Except Error (Option Envelope)

def returned (answers : List Answer) : List Envelope :=
  answers.filterMap fun answer =>
    match answer with
    | .ok envelope => envelope
    | .error _ => none

namespace Decoder

inductive Call
  | push (chunk : Bytes)
  | next
deriving DecidableEq, Repr

def pushed (calls : List Call) : Bytes :=
  calls.flatMap fun call =>
    match call with
    | .push chunk => chunk
    | .next => []

/-- One call: its answer, if it has one, and the decoder after it. A decoder from which nothing is taken stays as it
is. -/
def call (decoder : Decoder) : Call → List Answer × Decoder
  | .push chunk => ([], decoder.push chunk)
  | .next =>
    match decoder.next with
    | .ok (some (envelope, rest)) => ([.ok (some envelope)], rest)
    | .ok none => ([.ok none], decoder)
    | .error error => ([.error error], decoder)

def run (decoder : Decoder) : List Call → List Answer × Decoder
  | [] => ([], decoder)
  | first :: calls =>
    let (answers, after) := decoder.call first
    let (later, final) := after.run calls
    (answers ++ later, final)

theorem run_cons (decoder : Decoder) (first : Call) (calls : List Call) :
    decoder.run (first :: calls) =
      ((decoder.call first).1 ++ ((decoder.call first).2.run calls).1, ((decoder.call first).2.run calls).2) := rfl

theorem pushed_cons (first : Call) (calls : List Call) : pushed (first :: calls) = pushed [first] ++ pushed calls := by
  simp [pushed]

theorem returned_append (answers later : List Answer) :
    returned (answers ++ later) = returned answers ++ returned later := List.filterMap_append

/-- What a call returns and what is held after it is what was held before and what it pushes. -/
theorem call_buffer (decoder : Decoder) (first : Call) :
    (returned (decoder.call first).1).flatMap toBytes ++ (decoder.call first).2.buffer =
      decoder.buffer ++ pushed [first] := by
  cases first with
  | push chunk => simp [call, returned, pushed]
  | next =>
    rcases hnext : decoder.next with error | _ | ⟨envelope, rest⟩
    · simp [call, hnext, returned, pushed]
    · simp [call, hnext, returned, pushed]
    · simp [call, hnext, returned, pushed, (buffer_of_next hnext).1]

theorem run_buffer (decoder : Decoder) (calls : List Call) :
    (returned (decoder.run calls).1).flatMap toBytes ++ (decoder.run calls).2.buffer =
      decoder.buffer ++ pushed calls := by
  induction calls generalizing decoder with
  | nil => simp [run, returned, pushed]
  | cons first calls ih =>
    rw [run_cons, returned_append, List.flatMap_append, List.append_assoc, ih, ← List.append_assoc, call_buffer,
      List.append_assoc, ← pushed_cons]

theorem length_of_mem_call {decoder : Decoder} {first : Call} {envelope : Envelope}
    (h : envelope ∈ returned (decoder.call first).1) : envelope.payload.length < lengthBound := by
  cases first with
  | push chunk => simp [call, returned] at h
  | next =>
    rcases hnext : decoder.next with error | _ | ⟨found, rest⟩
    · simp [call, hnext, returned] at h
    · simp [call, hnext, returned] at h
    · have hself : envelope = found := by simpa [call, hnext, returned] using h
      exact hself ▸ (buffer_of_next hnext).2

theorem length_of_mem_run {decoder : Decoder} {calls : List Call} {envelope : Envelope}
    (h : envelope ∈ returned (decoder.run calls).1) : envelope.payload.length < lengthBound := by
  induction calls generalizing decoder with
  | nil => simp [run, returned] at h
  | cons first calls ih =>
    rw [run_cons, returned_append] at h
    rcases List.mem_append.1 h with hfirst | hlater
    · exact length_of_mem_call hfirst
    · exact ih hlater

section Error

variable {decoder : Decoder} {error : Error}

/-- Where the next envelope is an error, it is one after any call, and the call has no other answer. -/
theorem call_of_error (h : decoder.next = .error error) (first : Call) :
    (decoder.call first).2.next = .error error ∧ ∀ answer ∈ (decoder.call first).1, answer = .error error := by
  cases first with
  | push chunk => exact ⟨next_push_of_error h chunk, by simp [call]⟩
  | next => simp [call, h]

theorem run_of_error (h : decoder.next = .error error) (calls : List Call) :
    (decoder.run calls).2.next = .error error ∧ ∀ answer ∈ (decoder.run calls).1, answer = .error error := by
  induction calls generalizing decoder with
  | nil => exact ⟨h, by simp [run]⟩
  | cons first calls ih =>
    obtain ⟨hnext, hfirst⟩ := call_of_error h first
    obtain ⟨hfinal, hlater⟩ := ih hnext
    rw [run_cons]
    exact ⟨hfinal, List.forall_mem_append.2 ⟨hfirst, hlater⟩⟩

theorem next_of_mem_run {calls : List Call} (h : .error error ∈ (decoder.run calls).1) :
    (decoder.run calls).2.next = .error error := by
  induction calls generalizing decoder with
  | nil => simp [run] at h
  | cons first calls ih =>
    rw [run_cons] at h ⊢
    rcases List.mem_append.1 h with hfirst | hlater
    · have hnext : decoder.next = .error error := by
        cases first with
        | push chunk => simp [call] at hfirst
        | next => rcases hnext : decoder.next with found | _ | ⟨envelope, rest⟩ <;> simp_all [call]
      exact (run_of_error (call_of_error hnext first).1 calls).1
    · exact ih hlater

end Error

theorem finish_eq_ok_iff (decoder : Decoder) : decoder.finish = .ok () ↔ decoder.buffer = [] := by
  rw [finish]
  cases decoder.buffer <;> simp

/-- Nothing is lost and nothing is added, whatever the calls: the envelopes that were returned, as they are written,
and the bytes that are held are the bytes that were pushed. A call that returns no envelope takes nothing of what is
held; once an error was returned it is the only answer, whatever else is pushed; and the input can end here just when
it consists of complete envelopes and these were all returned. -/
theorem run_conserves {limit : Limit} {calls : List Call} {answers : List Answer} {decoder : Decoder}
    (h : (start limit).run calls = (answers, decoder)) :
    (returned answers).flatMap toBytes ++ decoder.buffer = pushed calls ∧
    (returned (decoder.call .next).1 = [] → (decoder.call .next).2.buffer = decoder.buffer) ∧
    (∀ error, .error error ∈ answers → ∀ more, ∀ answer ∈ (decoder.run more).1, answer = .error error) ∧
    (decoder.finish = .ok () ↔ ∃ envelopes : List Envelope,
      (∀ envelope ∈ envelopes, envelope.payload.length < lengthBound) ∧ pushed calls = envelopes.flatMap toBytes ∧
        returned answers = envelopes) := by
  have hstart : (start limit).buffer = [] := rfl
  have hbuffer := run_buffer (start limit) calls
  rw [h, hstart, List.nil_append] at hbuffer
  refine ⟨hbuffer, ?_, ?_, ?_⟩
  · intro hnone
    simpa [hnone, pushed] using call_buffer decoder .next
  · intro error herror more
    have hfound : .error error ∈ ((start limit).run calls).1 := by rwa [h]
    have hnext := next_of_mem_run hfound
    rw [h] at hnext
    exact (run_of_error hnext more).2
  · rw [finish_eq_ok_iff]
    constructor
    · intro hempty
      refine ⟨returned answers, fun envelope hmem => ?_, ?_, rfl⟩
      · have hfound : envelope ∈ returned ((start limit).run calls).1 := by rwa [h]
        exact length_of_mem_run hfound
      · rw [← hbuffer, hempty, List.append_nil]
    · rintro ⟨envelopes, -, hpushed, rfl⟩
      rw [hpushed] at hbuffer
      exact List.append_right_eq_self.1 hbuffer

def piecemeal : List Call :=
  [.push [0x00, 0x00, 0x00], .next, .push [0x00, 0x02, 0x07, 0x08, 0x02], .next, .push [0x00, 0x00, 0x00, 0x05], .next]

theorem run_conserves_piecemeal :
    (start ⟨some 4⟩).run piecemeal =
      ([.ok none, .ok (some ⟨0x00, [0x07, 0x08]⟩), .error (.tooLarge 5 4)],
        ⟨⟨some 4⟩, [0x02, 0x00, 0x00, 0x00, 0x05]⟩) ∧
    [0x00, 0x00, 0x00, 0x00, 0x02, 0x07, 0x08] ++ [0x02, 0x00, 0x00, 0x00, 0x05] = pushed piecemeal ∧
    ∀ more, ∀ answer ∈ ((Decoder.mk ⟨some 4⟩ [0x02, 0x00, 0x00, 0x00, 0x05]).run more).1,
      answer = .error (.tooLarge 5 4) := by
  have hrun : (start ⟨some 4⟩).run piecemeal =
      ([.ok none, .ok (some ⟨0x00, [0x07, 0x08]⟩), .error (.tooLarge 5 4)],
        ⟨⟨some 4⟩, [0x02, 0x00, 0x00, 0x00, 0x05]⟩) := by rfl
  obtain ⟨hbuffer, -, herror, -⟩ := run_conserves hrun
  exact ⟨hrun, hbuffer, herror _ (by simp)⟩

end Decoder
end RpcConformance.Envelope
