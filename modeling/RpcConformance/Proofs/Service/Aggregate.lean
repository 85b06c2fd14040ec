import Mathlib.Algebra.Ring.Nat
import RpcConformance.Proofs.Handler.Gathering
import RpcConformance.Proofs.Message.Codec
import RpcConformance.Proofs.Service.Duplex
/-!
The call of the reference service with a stream of requests and one response. It counts what the requests hold until
they end, and answers the sum; it answers nothing if one of them cannot be read (`aggregate_answers`). The response has
32 bits for the sum, with a sign: from two gibibytes on the sum is told wrong (`aggregate_negative`).
-/
namespace RpcConformance

open Session Wire

theorem Codec.exists_aggregate (codec : Codec) (size : Int32) :
    ∃ body, codec.encode (StreamingInputCallResponse.mk size) = .ok body ∧
      codec.decode body = .ok (StreamingInputCallResponse.mk size) := by
  cases codec with
  | proto =>
    have hlength : (int32Field 1 size).length < wordBound :=
      Nat.lt_of_le_of_lt (length_int32Field_le (by decide) size) (by decide)
    exact ⟨_, rfl, Codec.decode_write (StreamingInputCallResponse.updates_write ⟨size⟩) hlength⟩
  | json =>
    obtain ⟨document, hencode, hdecode⟩ := (StreamingInputCallResponse.spelled ⟨size⟩).decode
    exact ⟨_, hencode, hdecode⟩

namespace Reference

def totalSize (requests : List StreamingInputCallRequest) : Nat :=
  (requests.map fun request => Payload.bodySize request.payload).sum

theorem toInt_aggregate (requests : List StreamingInputCallRequest) :
    (aggregate requests).aggregatedPayloadSize.toInt = Int.bmod (totalSize requests) (2 ^ 32) :=
  Int32.toInt_ofNat

theorem bmod_eq_self_iff (total : Nat) : Int.bmod total (2 ^ 32) = total ↔ total < 2 ^ 31 := by
  rw [Int.bmod_def]
  split <;> omega

def bodyDeeds (body : Bytes) : List Deed :=
  [.headers .empty, .trailers .empty, .flush, .message body, .returned (.ok ())]

theorem account_bodyDeeds (body : Bytes) :
    Deed.account (bodyDeeds body) = [.headers .empty, .message body, .ended (.ok ()) .empty] := by
  rfl

section Calls

variable {call : Incoming} {now : Nat} {items : List (Except Status Bytes)}
  {requests : List StreamingInputCallRequest} {status : Status}

section Script

variable (hpath : call.path = Method.streamingInputCall.path) (hthere : call.inbound.dropped = false)

include hpath hthere

theorem script_streamingInput (heard : List Reading) :
    (service.dispatch call now).script heard =
      Plan.script streamingInputCall call.codec false false
        (.going [] [.gather [] fun requests => Plan.respond (.of (aggregate requests))]) heard := by
  rw [Service.script_dispatch service hpath, hthere]
  rfl

theorem exists_bodyDeeds (now : Nat) (hread : Plan.readAll call.codec items = .ok requests) :
    ∃ body, (service.dispatch call now).script (items.map .item ++ [.ended]) = bodyDeeds body ∧
      call.codec.decode body = .ok (aggregate requests) := by
  obtain ⟨body, hencode, hdecode⟩ := call.codec.exists_aggregate (aggregate requests).aggregatedPayloadSize
  refine ⟨body, ?_, hdecode⟩
  rw [script_streamingInput hpath hthere, Plan.script_gather hread, Plan.script_gather_end, List.nil_append,
    Plan.respond, Response.of, Plan.script_headers, Plan.script_trailers, Plan.script_send hencode, Plan.script_finish]
  rfl

theorem script_streamingInput_error
    (hread : (Plan.readAll call.codec items : Except Status (List StreamingInputCallRequest)) = .error status)
    (more : List Reading) :
    (service.dispatch call now).script (items.map .item ++ more) = [.returned (.error status)] := by
  rw [script_streamingInput hpath hthere, Plan.script_gather_error hread]

end Script

/-- A call with a stream of requests, whatever its metadata and deadline. After the end of its requests, if they can all
be read, it answers one message and returns well. The size in the message is the sum of the sizes of all payloads if
that is less than two gibibytes; from there on it is not, but only the same in 32 bits. If a request cannot be read,
the call returns with that, and answers nothing. These are the events of the call, whenever requests come and events are
taken, if it is not disturbed. -/
theorem aggregate_answers {call : Incoming} (hpath : call.path = Method.streamingInputCall.path)
    (hthere : call.inbound.dropped = false) (now : Nat) :
    (∀ (items : List (Except Status Bytes)) (requests : List StreamingInputCallRequest),
      Plan.readAll call.codec items = .ok requests →
      ∃ (body : Bytes) (size : Int32),
        (service.dispatch call now).script (items.map .item ++ [.ended]) = bodyDeeds body ∧
        call.codec.decode body = .ok (StreamingInputCallResponse.mk size) ∧
        size.toInt = Int.bmod (totalSize requests) (2 ^ 32) ∧
        (size.toInt = totalSize requests ↔ totalSize requests < 2 ^ 31) ∧
        (Undisturbed .streamingInputCall call → ∀ session taken,
          (service.dispatch call now).Reaches (items.map .item ++ [.ended]) session taken →
          session.Completes taken [.headers .empty, .message body, .ended (.ok ()) .empty])) ∧
    ∀ (items : List (Except Status Bytes)) (more : List Reading) (status : Status),
      (Plan.readAll call.codec items : Except Status (List StreamingInputCallRequest)) = .error status →
      (service.dispatch call now).script (items.map .item ++ more) = [.returned (.error status)] ∧
        (Undisturbed .streamingInputCall call → ∀ session taken,
          (service.dispatch call now).Reaches (items.map .item ++ more) session taken →
          session.Completes taken [.ended (.error status) .empty]) := by
  constructor
  · intro items requests hread
    obtain ⟨body, hscript, hdecode⟩ := exists_bodyDeeds hpath hthere now hread
    have hsize := toInt_aggregate requests
    refine ⟨body, (aggregate requests).aggregatedPayloadSize, hscript, hdecode, hsize, ?_, ?_⟩
    · rw [hsize, bmod_eq_self_iff]
    · intro h session taken hreaches
      rw [← account_bodyDeeds]
      exact h.completes_of_returned hscript rfl hreaches
  · intro items more status hread
    have hscript := @script_streamingInput_error call now items status hpath hthere hread more
    refine ⟨hscript, fun h session taken hreaches => ?_⟩
    exact h.completes_of_returned hscript rfl hreaches

def threeByteCall : Incoming where
  path := Method.streamingInputCall.path
  codec := .proto
  metadata := .empty
  timeout := none
  inbound := { arrivals := [.item (.ok [10, 5, 18, 3, 1, 2, 3]), .pause 2, .item (.ok [])], closed := false }

theorem aggregate_answers_threeBytes :
    (∃ (body : Bytes) (size : Int32) (session : Session (service.endpoint threeByteCall.path).handler),
      Codec.proto.decode body = .ok (StreamingInputCallResponse.mk size) ∧ size.toInt = 3 ∧
      (service.dispatch threeByteCall 0).Reaches
        [.item (.ok [10, 5, 18, 3, 1, 2, 3]), .item (.ok []), .ended] session [] ∧
      session.Completes [] [.headers .empty, .message body, .ended (.ok ()) .empty]) ∧
    ∃ session : Session (service.endpoint threeByteCall.path).handler,
      (service.dispatch threeByteCall 0).Reaches
        [.item (.ok [10, 5, 18, 3, 1, 2, 3]), .item (.ok []), .item (.error (.dataLoss "truncated"))] session [] ∧
      session.Completes [] [.ended (.error (.dataLoss "truncated")) .empty] := by
  have hundisturbed : Undisturbed .streamingInputCall threeByteCall := ⟨rfl, rfl, rfl, rfl⟩
  obtain ⟨hanswered, hrefused⟩ := @aggregate_answers threeByteCall rfl rfl 0
  constructor
  · obtain ⟨body, size, -, hdecode, hsize, -, hcompletes⟩ := hanswered [.ok [10, 5, 18, 3, 1, 2, 3], .ok []]
      [{ payload := some { body := [1, 2, 3] } }, {}] rfl
    have hreaches : (service.dispatch threeByteCall 0).Reaches
        [.item (.ok [10, 5, 18, 3, 1, 2, 3]), .item (.ok []), .ended] _ [] :=
      ⟨[], [], _, Run.start.close, fun _ => rfl, rfl⟩
    exact ⟨body, size, _, hdecode, hsize, hreaches, hcompletes hundisturbed _ _ hreaches⟩
  · obtain ⟨-, hcompletes⟩ := hrefused
      [.ok [10, 5, 18, 3, 1, 2, 3], .ok [], .error (.dataLoss "truncated")] [] (.dataLoss "truncated") rfl
    have hreaches : (service.dispatch threeByteCall 0).Reaches
        [.item (.ok [10, 5, 18, 3, 1, 2, 3]), .item (.ok []), .item (.error (.dataLoss "truncated"))] _ [] :=
      ⟨[], [], _, Run.start.send rfl, fun _ => rfl, rfl⟩
    exact ⟨_, hreaches, hcompletes hundisturbed _ _ hreaches⟩

def filled (size : Nat) : StreamingInputCallRequest := { payload := some { body := List.replicate size 0 } }

def filledItems (count size : Nat) : List (Except Status Bytes) :=
  List.replicate count (.ok (Message.write (filled size)))

def filledCall (count size : Nat) : Incoming where
  path := Method.streamingInputCall.path
  codec := .proto
  metadata := .empty
  timeout := none
  inbound := { arrivals := (filledItems count size).map .item, closed := true }

theorem readings_filledCall (count size : Nat) :
    (filledCall count size).inbound.readings = (filledItems count size).map .item ++ [.ended] := by
  have hitems : (filledCall count size).inbound.items = filledItems count size := by
    rw [Inbound.items, filledCall, List.filterMap_map]
    exact List.filterMap_some
  rw [Inbound.readings, hitems]
  rfl

theorem readAll_filledItems (count : Nat) {size : Nat} (h : size < 0x80000000) :
    Plan.readAll .proto (filledItems count size) = .ok (List.replicate count (filled size)) := by
  have hlength : (Message.write (filled size)).length < wordBound := by
    have hfield := @Payload.length_field_le (List.replicate size 0) (by simpa using h)
    rw [List.length_replicate] at hfield
    exact Nat.lt_of_le_of_lt hfield (by rw [wordBound]; omega)
  exact Plan.readAll_replicate
    (show Plan.readOne .proto (.ok (Message.write (filled size))) = .ok (filled size) from
      Codec.decode_write (StreamingInputCallRequest.updates_write (filled size)) hlength) count

theorem totalSize_filled (count size : Nat) : totalSize (List.replicate count (filled size)) = count * size := by
  have hsize : Payload.bodySize (filled size).payload = size := List.length_replicate
  rw [totalSize, List.map_replicate, List.sum_replicate_nat, hsize]

theorem completes_filledCall (count : Nat) {size : Nat} (h : size < 0x80000000) :
    ∃ (body : Bytes) (total : Int32), Codec.proto.decode body = .ok (StreamingInputCallResponse.mk total) ∧
      total.toInt = Int.bmod (count * size : Nat) (2 ^ 32) ∧
      (service.dispatch (filledCall count size) 0).Completes []
        [.headers .empty, .message body, .ended (.ok ()) .empty] := by
  have hread := readAll_filledItems count h
  obtain ⟨body, hscript, hdecode⟩ := @exists_bodyDeeds (filledCall count size) _ _ rfl rfl 0 hread
  have hreaches : (service.dispatch (filledCall count size) 0).Reaches
      ((filledItems count size).map .item ++ [.ended]) _ [] :=
    ⟨[], [], _, Run.start, fun _ => readings_filledCall count size, rfl⟩
  refine ⟨body, (aggregate (List.replicate count (filled size))).aggregatedPayloadSize, hdecode, ?_, ?_⟩
  · rw [toInt_aggregate, totalSize_filled]
  · rw [← account_bodyDeeds]
    exact Undisturbed.completes_of_returned ⟨rfl, rfl, rfl, rfl⟩ hscript rfl hreaches

/-- Two gibibytes in requests of four mebibytes are told as a number below zero. -/
theorem aggregate_negative :
    Plan.readAll .proto (filledItems 512 4194304) = .ok (List.replicate 512 (filled 4194304)) ∧
      totalSize (List.replicate 512 (filled 4194304)) = 2147483648 ∧
      ∃ (body : Bytes) (total : Int32), Codec.proto.decode body = .ok (StreamingInputCallResponse.mk total) ∧
        total.toInt = -2147483648 ∧
        (service.dispatch (filledCall 512 4194304) 0).Completes []
          [.headers .empty, .message body, .ended (.ok ()) .empty] := by
  have hread := @readAll_filledItems 512 4194304 (by decide)
  have hbmod : Int.bmod (512 * 4194304 : Nat) (2 ^ 32) = -2147483648 := by decide
  obtain ⟨body, total, hdecode, htotal, hcompletes⟩ := @completes_filledCall 512 4194304 (by decide)
  exact ⟨hread, totalSize_filled 512 4194304, body, total, hdecode, htotal.trans hbmod, hcompletes⟩

end Calls

end Reference
end RpcConformance
