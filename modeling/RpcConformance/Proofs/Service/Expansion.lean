import Mathlib.Algebra.Ring.Nat
import Mathlib.Data.List.Forall2
import Mathlib.Data.List.TakeWhile
import RpcConformance.Proofs.Handler.Pace
import RpcConformance.Proofs.Service.Duplex
/-!
The responses that a request asks for, one after the other. A handler that sends them sends those before the first that
cannot be made, each with as many zeros as it asks for and none before its time, and then goes on or fails with what
cannot be made (`expands`).
-/
namespace RpcConformance

open Session

namespace Payload

theorem eq_of_zeros {type size : Int32} {payload : Payload} (h : zeros type size = .ok payload) :
    payload = { type := 0, body := List.replicate size.toInt.toNat 0 } := by
  rw [zeros] at h
  split at h
  · cases h
  · split at h <;> cases h
    rfl

theorem code_of_zeros {type size : Int32} {status : Status} (h : zeros type size = .error status) :
    status.code = if size < 0 then .invalidArgument else .unimplemented := by
  rw [zeros] at h
  split at h
  · rename_i hnegative
    cases h
    rw [if_pos hnegative]
    rfl
  · rename_i hsize
    rw [if_neg hsize]
    split at h <;> cases h
    rfl

end Payload

namespace Reference

def isMakeable (type : Int32) (parameters : ResponseParameters) : Bool := (Payload.zeros type parameters.size).isOk

def makeable (request : StreamingOutputCallRequest) : List ResponseParameters :=
  request.responseParameters.takeWhile (isMakeable request.responseType)

/-- The parameters that ask for a payload that cannot be made, if there are such. -/
def refusal? (request : StreamingOutputCallRequest) : Option ResponseParameters :=
  request.responseParameters.find? (!isMakeable request.responseType ·)

def sendingOutcome (request : StreamingOutputCallRequest) : Outcome :=
  match refusal? request with
  | some parameters => (Payload.zeros request.responseType parameters.size).map fun _ => ()
  | none => .ok ()

def zerosResponse (size : Int32) : StreamingOutputCallResponse :=
  { payload := some { type := 0, body := List.replicate size.toInt.toNat 0 } }

/-- The deeds of a handler that sends some messages: it lets the headers out before the first. -/
def sending (sent : Bool) (bodies : List Bytes) : List Deed :=
  (if sent || bodies.isEmpty then [] else [.flush]) ++ bodies.map .message

/-- What a handler does after it was to send responses: it goes on, or it returns with what they failed with. -/
def afterwards (next : List Deed) : Outcome → List Deed
  | .ok () => next
  | .error status => [.returned (.error status)]

/-- A payload that can be made is made of zeros, and can be sent. -/
theorem exists_expanded {type : Int32} {parameters : ResponseParameters} (h : isMakeable type parameters = true)
    (codec : Codec) : ∃ body, expanded codec type parameters = .ok body ∧
      codec.encode (zerosResponse parameters.size) = .ok body := by
  cases hzeros : Payload.zeros type parameters.size with
  | error status =>
    rw [isMakeable, hzeros] at h
    cases h
  | ok payload =>
    obtain ⟨body, hbody⟩ := exists_encode codec hzeros
    refine ⟨body, ?_, ?_⟩
    · rw [expanded, hzeros]
      exact hbody
    · rw [Payload.eq_of_zeros hzeros] at hbody
      exact hbody

theorem exists_refused {type : Int32} {parameters : ResponseParameters} (h : isMakeable type parameters = false)
    (codec : Codec) : ∃ status, Payload.zeros type parameters.size = .error status ∧
      expanded codec type parameters = .error status := by
  cases hzeros : Payload.zeros type parameters.size with
  | error status =>
    refine ⟨status, rfl, ?_⟩
    rw [expanded, hzeros]
    rfl
  | ok payload =>
    rw [isMakeable, hzeros] at h
    cases h

/-- What a request asks for is sent up to the first payload that cannot be made. -/
theorem exists_sending (codec : Codec) (request : StreamingOutputCallRequest) :
    ∃ bodies, List.Forall₂ (fun parameters body => codec.encode (zerosResponse parameters.size) = .ok body)
        (makeable request) bodies ∧
      ∀ next sent, emitting next sent (expansion codec request) =
        sending sent bodies ++ afterwards (next (sent || !bodies.isEmpty)) (sendingOutcome request) := by
  obtain ⟨type, parameters, payload, status⟩ := request
  induction parameters with
  | nil => exact ⟨[], .nil, fun next sent => by cases sent <;> rfl⟩
  | cons first others ih =>
    cases hmakeable : isMakeable type first with
    | false =>
      obtain ⟨refused, hzeros, hexpanded⟩ := exists_refused hmakeable codec
      have hnone : makeable ⟨type, first :: others, payload, status⟩ = [] := by
        rw [makeable, List.takeWhile_cons_of_neg (Bool.not_eq_true _ ▸ hmakeable)]
      have houtcome : sendingOutcome ⟨type, first :: others, payload, status⟩ = .error refused := by
        simp [sendingOutcome, refusal?, hmakeable, hzeros, Except.map]
      refine ⟨[], hnone ▸ .nil, fun next sent => ?_⟩
      rw [expansion, List.map_cons, hexpanded, houtcome]
      cases sent <;> rfl
    | true =>
      obtain ⟨bodies, hbodies, hemitting⟩ := ih
      obtain ⟨body, hexpanded, hbody⟩ := exists_expanded hmakeable codec
      have hfirst : makeable ⟨type, first :: others, payload, status⟩ =
          first :: makeable ⟨type, others, payload, status⟩ := by
        rw [makeable, List.takeWhile_cons_of_pos hmakeable, makeable]
      have houtcome : sendingOutcome ⟨type, first :: others, payload, status⟩ =
          sendingOutcome ⟨type, others, payload, status⟩ := by
        simp [sendingOutcome, refusal?, hmakeable]
      refine ⟨body :: bodies, hfirst ▸ .cons hbody hbodies, fun next sent => ?_⟩
      have hrest := hemitting next true
      rw [expansion, List.map_cons, hexpanded, houtcome]
      rw [expansion] at hrest
      rw [emitting, hrest]
      cases sent <;> simp [sending]

theorem makeable_of_ok {request : StreamingOutputCallRequest} (h : sendingOutcome request = .ok ()) :
    makeable request = request.responseParameters := by
  refine List.takeWhile_eq_self_iff.2 ?_
  rw [sendingOutcome] at h
  split at h
  · rename_i refused hrefused
    have hnot : isMakeable request.responseType refused = false := by simpa using List.find?_some hrefused
    obtain ⟨status, hzeros, -⟩ := exists_refused hnot .proto
    rw [hzeros] at h
    cases h
  · rename_i hnone
    simpa using List.find?_eq_none.1 hnone

theorem refused_of_error {request : StreamingOutputCallRequest} {status : Status}
    (h : sendingOutcome request = .error status) :
    ∃ refused later, request.responseParameters = makeable request ++ refused :: later ∧
      Payload.zeros request.responseType refused.size = .error status ∧
      status.code = if refused.size < 0 then .invalidArgument else .unimplemented := by
  rw [sendingOutcome] at h
  split at h
  · rename_i refused hrefused
    obtain ⟨hnot, before, later, hsplit, hbefore⟩ := List.find?_eq_some_iff_append.1 hrefused
    have hmakeable : makeable request = before := by
      rw [makeable, hsplit, List.takeWhile_append_of_pos (by simpa using hbefore),
        List.takeWhile_cons_of_neg (by simpa using hnot), List.append_nil]
    obtain ⟨found, hzeros, -⟩ := exists_refused (by simpa using hnot) .proto
    rw [hzeros] at h
    cases h
    exact ⟨refused, later, hmakeable ▸ hsplit, hzeros, Payload.code_of_zeros hzeros⟩
  · cases h

/-- How long a handler waits at least before a response, in microseconds. -/
def waited (parameters : ResponseParameters) : Nat := parameters.intervalMicros.toInt.toNat

theorem le_ticks_ofMicros (micros : Nat) : micros ≤ 1000 * (Duration.ofMicros micros).ticks := by
  simp only [Duration.ofMicros, Duration.ticks]
  omega

theorem due_sendOne {type : Int32} {parameters : ResponseParameters} {steps : List (Step StreamingOutputCallResponse)}
    {count ticks : Nat} (h : Plan.due (sendOne type parameters ++ steps) (count + 1) = some ticks) :
    ∃ later, Plan.due steps count = some later ∧ waited parameters + 1000 * later ≤ 1000 * ticks := by
  have hwait {rest : List (Step StreamingOutputCallResponse)}
      (hdue : Plan.due ((if 0 < parameters.intervalMicros then
        [.sleep (.ofMicros parameters.intervalMicros.toInt.toNat)] else []) ++ rest) (count + 1) = some ticks) :
      ∃ later, Plan.due rest (count + 1) = some later ∧ waited parameters + 1000 * later ≤ 1000 * ticks := by
    split at hdue
    · obtain ⟨later, hlater, rfl⟩ := Option.map_eq_some_iff.1 hdue
      have hticks := le_ticks_ofMicros (waited parameters)
      refine ⟨later, hlater, ?_⟩
      rw [waited] at hticks ⊢
      omega
    · rename_i hnone
      have hzero : waited parameters = 0 := by
        rw [Int32.lt_iff_toInt_lt, Int.not_lt] at hnone
        exact Int.toNat_of_nonpos hnone
      exact ⟨ticks, hdue, by omega⟩
  rw [sendOne] at h
  split at h
  · rw [List.append_assoc] at h
    exact hwait h
  · rw [List.append_assoc] at h
    obtain ⟨later, hlater, -⟩ := hwait h
    cases hlater

theorem due_sendAll (request : StreamingOutputCallRequest) (steps : List (Step StreamingOutputCallResponse))
    {count ticks : Nat} (h : Plan.due (sendAll request ++ steps) count = some ticks) :
    ((request.responseParameters.take count).map waited).sum ≤ 1000 * ticks := by
  rw [sendAll] at h
  generalize request.responseParameters = parameters at h ⊢
  induction parameters generalizing count ticks with
  | nil => simp
  | cons first others ih =>
    cases count with
    | zero => simp
    | succ count =>
      rw [List.flatMap_cons, List.append_assoc] at h
      obtain ⟨later, hlater, hle⟩ := due_sendOne h
      have hothers := ih hlater
      rw [List.take_succ_cons, List.map_cons, List.sum_cons]
      omega

section Expanding

variable {plan : Context → Plan StreamingOutputCallRequest StreamingOutputCallResponse}
  {request : StreamingOutputCallRequest} {steps : List (Step StreamingOutputCallResponse)}
  {rest : Plan StreamingOutputCallRequest StreamingOutputCallResponse}

def continuing (session : Session (Plan.handler plan)) (bodies : List Bytes) (heard : List Reading)
    (progress : Plan.Progress StreamingOutputCallRequest StreamingOutputCallResponse) : List Deed :=
  Plan.script plan session.sink.codec (session.sink.headersSent || !bodies.isEmpty) session.inbound.dropped progress
    heard

/-- Before each message the intervals of all responses up to its own are over. -/
theorem waited_le {session last : Session (Plan.handler plan)}
    (hstage : session.stage = .running (Plan.Progress.going (sendAll request ++ steps) rest)) {heard : List Reading}
    {deeds : List Deed} {taken : List (Event Bytes)} (hrun : Run session last heard deeds taken) :
    ((request.responseParameters.take (Deed.messages deeds).length).map waited).sum ≤
      1000 * (last.now - session.now) := by
  obtain ⟨ticks, hticks, hnow⟩ := hrun.exists_due
  rw [due_of_running hstage] at hticks
  have hdue := due_sendAll request steps hticks
  omega

/-- A handler that nothing hinders and that is to send the responses to a request, whenever requests come and events are
taken. At every moment it has done the first part of this: it sends a message for each of the parameters before the first
that ask for a payload that cannot be made, each of type 0 and with as many zeros as asked for, and then goes on, or
returns with the error of that payload. The messages take at least as long as the intervals of their parameters. A peer
that takes what comes gets the events of all of it. -/
theorem expands {session : Session (Plan.handler plan)} (h : session.Unhindered) {before : List Deed}
    {before' : List (Event Bytes)} (haccounted : Accounted session before before')
    (hstage : session.stage = .running (Plan.Progress.going (sendAll request ++ steps) rest)) :
    (sendingOutcome request = .ok () → makeable request = request.responseParameters) ∧
    (∀ status, sendingOutcome request = .error status → ∃ refused later,
      request.responseParameters = makeable request ++ refused :: later ∧
        Payload.zeros request.responseType refused.size = .error status ∧
        status.code = if refused.size < 0 then .invalidArgument else .unimplemented) ∧
    ∃ bodies, List.Forall₂ (fun parameters body => session.sink.codec.encode (zerosResponse parameters.size) = .ok body)
        (makeable request) bodies ∧
      ∀ last heard deeds taken, Run session last heard deeds taken →
        (∀ future, deeds <+: sending session.sink.headersSent bodies ++
          afterwards (continuing session bodies (heard ++ future) (.going steps rest)) (sendingOutcome request)) ∧
        ((request.responseParameters.take (Deed.messages deeds).length).map waited).sum ≤
          1000 * (last.now - session.now) ∧
        last.Brings (before ++ (sending session.sink.headersSent bodies ++
          afterwards (continuing session bodies (heard ++ last.inbound.readings) (.going steps rest))
            (sendingOutcome request))) (before' ++ taken) := by
  refine ⟨makeable_of_ok, fun status => refused_of_error, ?_⟩
  obtain ⟨bodies, hbodies, hemitting⟩ := exists_sending session.sink.codec request
  refine ⟨bodies, hbodies, fun last heard deeds taken hrun => ?_⟩
  have hscript (found : List Reading) : session.script found = sending session.sink.headersSent bodies ++
      afterwards (continuing session bodies found (.going steps rest)) (sendingOutcome request) := by
    rw [script, hstage]
    exact (script_sendAll _ rest found _ request steps).trans (hemitting _ _)
  obtain ⟨hlast, hdone⟩ := h.run hrun
  simp only [← hscript]
  refine ⟨fun future => ⟨_, (hdone future).symm⟩, waited_le hstage hrun, ?_⟩
  rw [hdone, ← List.append_assoc]
  exact hlast.brings (haccounted.run hrun)

end Expanding

def oneThenLess : StreamingOutputCallRequest where
  responseParameters := [{ size := 1, intervalMicros := 1500 }, { size := -1 }, { size := 2 }]

def sendingOneThenLess : Session (Plan.handler streamingOutputCall) where
  context := { metadata := .empty }
  bound := none
  now := 0
  inbound := .gone
  sink := { codec := .proto, capacity := Service.outboundCapacity }
  stage := .running (Plan.Progress.going (sendAll oneThenLess ++ []) [])

theorem expands_oneThenLess :
    sendingOneThenLess.Unhindered ∧ Accounted sendingOneThenLess [] [] ∧
    ∃ body, Codec.proto.encode (zerosResponse 1) = .ok body ∧
      (∃ last, Run sendingOneThenLess last [] [.flush, .message body] [] ∧ 1500 ≤ 1000 * last.now) ∧
      sendingOneThenLess.Brings [.flush, .message body, .returned (.error
        (.invalidArgument "requested a response with negative size: -1"))] [] := by
  have hunhindered : sendingOneThenLess.Unhindered := ⟨rfl, rfl, rfl, rfl, rfl, fun _ => rfl⟩
  have haccounted : Accounted sendingOneThenLess [] [] :=
    ⟨rfl, by decide, rfl, fun _ => ⟨rfl, fun _ => rfl, rfl, rfl, List.not_mem_nil⟩, fun h => absurd h List.not_mem_nil⟩
  obtain ⟨-, -, bodies, hbodies, hexpands⟩ := expands hunhindered haccounted rfl
  have hmakeable : makeable oneThenLess = [{ size := 1, intervalMicros := 1500 }] := by decide
  rw [hmakeable] at hbodies
  obtain ⟨body, _, hbody, hnone, rfl⟩ := List.forall₂_cons_left_iff.1 hbodies
  obtain rfl := List.forall₂_nil_left_iff.1 hnone
  obtain rfl : Message.write (zerosResponse 1) = body := Except.ok.inj hbody
  have hslept : Run sendingOneThenLess _ _ _ _ := (Run.start.step rfl).wait (show 0 ≤ 2 by decide)
  have hover : 0 + (Duration.ofMicros (Int32.toInt 1500).toNat).ticks ≤ 2 := by decide +kernel
  have hsteps : Run sendingOneThenLess _ _ _ _ :=
    ((hslept.step ((step_of_asleep rfl).trans (if_pos hover))).step rfl).step rfl
  have hrun : Run sendingOneThenLess _ [] [.flush, .message (Message.write (zerosResponse 1))] [] := hsteps
  have houtcome : sendingOutcome oneThenLess = .error
      (.invalidArgument "requested a response with negative size: -1") := rfl
  obtain ⟨-, hwaited, -⟩ := hexpands _ _ _ _ hrun
  obtain ⟨-, -, hbrings⟩ := hexpands _ _ _ _ Run.start
  rw [houtcome] at hbrings
  exact ⟨hunhindered, haccounted, _, rfl, ⟨_, hrun, hwaited⟩, hbrings⟩

end Reference
end RpcConformance
