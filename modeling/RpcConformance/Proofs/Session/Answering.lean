import RpcConformance.Service.Basic
import RpcConformance.Session.Transcript
/-!
A handler that answers its only request does so at one instant: the headers, the message and a good end are
queued (`settle_answering`), or a bad end (`settle_failing`), and they are all the events of the call
(`Service.dispatch_answering`, `Service.dispatch_failing`).
-/
namespace RpcConformance.Session

section Rest

variable {Req Res : Type} {handler : Handler Req Res} [Message Req] [Message Res]

theorem settle_of_step {session next : Session handler} (h : session.step = some next) :
    session.settle = next.settle := by
  rw [settle]
  split
  · rename_i hstep
    rw [h] at hstep
    rw [Option.some.inj hstep]
  · rename_i hstep
    rw [h] at hstep
    cases hstep

theorem step_of_over {session : Session handler} (h : session.stage = .over) : session.step = none := by
  rw [step, h]

theorem settle_of_over {session : Session handler} (h : session.stage = .over) : session.settle = session := by
  rw [settle]
  split
  · rename_i hsome
    rw [step_of_over h] at hsome
    cases hsome
  · rfl

theorem transcript_of_step {session next : Session handler} (h : session.step = some next) (horizon : Nat) :
    session.transcript horizon = next.transcript horizon := by
  conv => lhs; rw [transcript]
  split
  · rename_i hsome
    rw [h] at hsome
    rw [Option.some.inj hsome]
  · rename_i hnone
    rw [h] at hnone
    cases hnone

theorem transcript_of_pop {session rest : Session handler} {event : Event Bytes} (hstep : session.step = none)
    (hpop : session.pop = some (event, rest)) (horizon : Nat) :
    session.transcript horizon =
      ((session.now, event) :: (rest.transcript horizon).1, (rest.transcript horizon).2) := by
  conv => lhs; rw [transcript]
  split
  · rename_i hsome
    rw [hstep] at hsome
    cases hsome
  · split
    · rename_i hsome
      rw [hpop] at hsome
      cases hsome
      rfl
    · rename_i hnone
      rw [hpop] at hnone
      cases hnone

/-- When nothing can happen now and nothing is there to be taken, only the clock can bring more. -/
theorem transcript_of_quiet {session : Session handler} (hstep : session.step = none) (hpop : session.pop = none)
    (horizon : Nat) :
    session.transcript horizon =
      if session.isOver then ([], true)
      else
        match session.wake? with
        | some wake =>
          if session.now < wake ∧ wake ≤ horizon then Session.transcript horizon { session with now := wake }
          else ([], false)
        | none => ([], false) := by
  conv => lhs; rw [transcript]
  split
  · rename_i hsome
    rw [hstep] at hsome
    cases hsome
  · split
    · rename_i hsome
      rw [hpop] at hsome
      cases hsome
    · rfl

theorem transcript_settle (horizon : Nat) (session : Session handler) :
    session.settle.transcript horizon = session.transcript horizon := by
  fun_induction settle session with
  | case1 session next hstep ih => rw [ih, transcript_of_step hstep]
  | case2 => rfl

theorem transcript_of_over (horizon : Nat) {session : Session handler} (h : session.stage = .over) :
    session.transcript horizon = (session.sink.queue.map (session.now, ·), true) := by
  have hidle : session.isOver = true := by
    rw [isOver, h]
  generalize hqueue : session.sink.queue = queue
  induction queue generalizing session with
  | nil =>
    have hpop : session.pop = none := by
      rw [pop, hqueue]
    rw [transcript_of_quiet (step_of_over h) hpop, if_pos hidle]
    rfl
  | cons event queue ih =>
    have hpop : session.pop = some (event, { session with sink := { session.sink with queue } }) := by
      rw [pop, hqueue]
    have hrest := @ih { session with sink := { session.sink with queue } } h hidle rfl
    rw [transcript_of_pop (step_of_over h) hpop, hrest]
    rfl

/-- Of a call that comes to its end at this instant its peer gets what is queued then. -/
theorem completeEvents?_of_settle {session : Session handler} (h : session.settle.stage = .over) (horizon : Nat) :
    session.completeEvents? horizon = some session.settle.sink.queue := by
  rw [completeEvents?, ← transcript_settle, transcript_of_over horizon h]
  simp only [List.map_map]
  exact congrArg some (List.map_id _)

def Gives (codec : Codec) : Session handler → List (Event Bytes) → Prop
  | _, [] => True
  | session, event :: events =>
    ∃ rest, (∀ time, session.receive time = (.event event, rest)) ∧ rest.sink.codec = codec ∧
      Gives codec rest events

theorem receive_of_pop {session rest : Session handler} {event : Event Bytes}
    (h : session.settle.pop = some (event, rest)) (time : Nat) : session.receive time = (.event event, rest) := by
  rw [receive, runUntil]
  simp only [nextEvent, h]

theorem gives_of_settle {session : Session handler} (h : session.settle.stage = .over) :
    session.Gives session.settle.sink.codec session.settle.sink.queue := by
  generalize hqueue : session.settle.sink.queue = queue
  induction queue generalizing session with
  | nil => exact trivial
  | cons event queue ih =>
    let rest : Session handler := { session.settle with sink := { session.settle.sink with queue } }
    have hpop : session.settle.pop = some (event, rest) := by
      rw [pop, hqueue]
    have hsettle : rest.settle = rest := settle_of_over h
    have hrest := @ih rest (by rw [hsettle]; exact h) (by rw [hsettle])
    rw [hsettle] at hrest
    exact ⟨rest, receive_of_pop hpop, rfl, hrest⟩

/-- A call that comes to its end at this instant gives what is queued then, and no more. -/
theorem brings_of_settle {session last : Session handler} (h : session.settle = last) (hover : last.stage = .over) :
    session.Gives last.sink.codec last.sink.queue ∧
      ∀ horizon, session.completeEvents? horizon = some last.sink.queue := by
  subst h
  exact ⟨gives_of_settle hover, completeEvents?_of_settle hover⟩

end Rest

section Answering

variable {Req Res : Type} [Message Req] [Message Res] {answer : Context → Req → Except Status (Response Res)}

def answered (answer : Context → Req → Except Status (Response Res)) (context : Context) (bound : Option Nat)
    (now : Nat) (sink : Sink) : Session (Plan.handler (Plan.answering answer)) where
  context := context
  bound := bound
  now := now
  inbound := .gone
  sink := sink
  stage := .over

section Settle

variable {codec : Codec} {context : Context} (bound : Option Nat) {now : Nat} {inbound rest : Inbound} {bytes : Bytes}
  {request : Req} (hpoll : inbound.poll now = .item (.ok bytes) rest) (hrequest : codec.decode bytes = .ok request)

include hpoll hrequest

variable (answer context) in
theorem settle_deliver :
    (Session.start (Plan.handler (Plan.answering answer)) codec Service.outboundCapacity context bound inbound
      now).settle =
      ({ answered answer context bound now { codec, capacity := Service.outboundCapacity } with
          stage := .running (.going (Plan.deliver (answer context request)) []) } :
        Session (Plan.handler (Plan.answering answer))).settle := by
  let opened : Sink := { codec, capacity := Service.outboundCapacity }
  let running (inbound : Inbound) (steps : List (Step Res)) (plan : Plan Req Res) :
      Session (Plan.handler (Plan.answering answer)) :=
    { context, bound, now, inbound, sink := opened, stage := .running (.going steps plan) }
  have hreceive : (running inbound [] (Plan.answering answer context)).step =
      some (running rest (.release :: Plan.deliver (answer context request)) []) := by
    simp [running, opened, step, act, Plan.handler, Plan.act, Plan.phaseAction, Plan.answering, hpoll, decoded,
      Except.bind, Except.map, hrequest, Plan.reading]
  have hrelease : (running rest (.release :: Plan.deliver (answer context request)) []).step =
      some (running .gone (Plan.deliver (answer context request)) []) := rfl
  exact (settle_of_step hreceive).trans (settle_of_step hrelease)

theorem settle_answering {body : Bytes} {response : Response Res} (hanswer : answer context request = .ok response)
    (hbody : codec.encode response.message = .ok body) :
    (Session.start (Plan.handler (Plan.answering answer)) codec Service.outboundCapacity context bound inbound
      now).settle =
      answered answer context bound now
        { codec, capacity := Service.outboundCapacity, trailers := response.trailers, headersSent := true
          queue := [.headers response.headers, .message body, .ended (.ok ()) response.trailers] } := by
  let running (sink : Sink) (steps : List (Step Res)) : Session (Plan.handler (Plan.answering answer)) :=
    { answered answer context bound now sink with stage := .running (.going steps []) }
  let opened : Sink := { codec, capacity := Service.outboundCapacity }
  let headed : Sink := { opened with headers := response.headers }
  let flushed : Sink :=
    { opened with trailers := response.trailers, headersSent := true, queue := [.headers response.headers] }
  let sent : Sink := { flushed with queue := [.headers response.headers, .message body] }
  have hdeliver := settle_deliver answer context bound hpoll hrequest
  rw [hanswer, Plan.deliver] at hdeliver
  have hheaders : (running opened (Plan.respond response)).step =
      some (running headed [.trailers response.trailers, .send response.message]) := rfl
  have htrailers : (running headed [.trailers response.trailers, .send response.message]).step =
      some (running { headed with trailers := response.trailers } [.send response.message]) := rfl
  have hflush : (running { headed with trailers := response.trailers } [.send response.message]).step =
      some (running flushed [.send response.message]) := rfl
  have hsend : (running flushed [.send response.message]).step = some (running sent []) := by
    simp [running, answered, opened, flushed, sent, step, act, Plan.handler, Plan.act, Plan.stepAction,
      Sink.sendMessage, hbody, Sink.push, afterSink, Service.outboundCapacity, Plan.Progress.unless]
  have hclose : (running sent []).step =
      some { running sent [] with stage := .closing [.ended (.ok ()) response.trailers] } := rfl
  have hend : (running sent []).settle =
      answered answer context bound now { sent with queue := sent.queue ++ [.ended (.ok ()) response.trailers] } := by
    rw [settle_of_step hclose, settle_of_step rfl, settle_of_step rfl]
    exact settle_of_over rfl
  exact hdeliver.trans <| (settle_of_step hheaders).trans <| (settle_of_step htrailers).trans <|
    (settle_of_step hflush).trans <| (settle_of_step hsend).trans hend

theorem settle_failing {status : Status} (hanswer : answer context request = .error status) :
    (Session.start (Plan.handler (Plan.answering answer)) codec Service.outboundCapacity context bound inbound
      now).settle =
      answered answer context bound now
        { codec, capacity := Service.outboundCapacity, queue := [.ended (.error status) .empty] } := by
  let running : Session (Plan.handler (Plan.answering answer)) :=
    { answered answer context bound now { codec, capacity := Service.outboundCapacity } with
      stage := .running (.going [.fail status] []) }
  have hdeliver := settle_deliver answer context bound hpoll hrequest
  rw [hanswer, Plan.deliver] at hdeliver
  have hclose : running.step = some { running with stage := .closing [.ended (.error status) .empty] } := rfl
  rw [hdeliver, settle_of_step hclose, settle_of_step rfl, settle_of_step rfl]
  exact settle_of_over rfl

end Settle

end Answering

end RpcConformance.Session

namespace RpcConformance.Service

open Session

theorem endpoint_path (service : Service) (method : Method) :
    service.endpoint method.path = ⟨method.Request, method.Response, service method⟩ := by
  rw [endpoint, Method.ofPath?_path]

section Dispatch

variable {service : Service} (call : Incoming) {Req Res : Type} [Message Req] [Message Res]
  {answer : Context → Req → Except Status (Response Res)}
  (hendpoint : service.endpoint call.path = ⟨Req, Res, Plan.handler (Plan.answering answer)⟩) (now : Nat)
  {rest : Inbound} {bytes : Bytes} {request : Req} (hpoll : call.inbound.poll now = .item (.ok bytes) rest)
  (hrequest : call.codec.decode bytes = .ok request)

include hendpoint hpoll hrequest

/-- A call of a method that answers its only request brings the headers, the message and a good end. -/
theorem dispatch_answering {body : Bytes} {response : Response Res}
    (hanswer : answer { metadata := call.metadata, deadline := Context.deadlineAfter call.timeout now } request =
      .ok response)
    (hbody : call.codec.encode response.message = .ok body) :
    (service.dispatch call now).Gives call.codec
        [.headers response.headers, .message body, .ended (.ok ()) response.trailers] ∧
      ∀ horizon, (service.dispatch call now).completeEvents? horizon =
        some [.headers response.headers, .message body, .ended (.ok ()) response.trailers] := by
  rw [dispatch]
  generalize service.endpoint call.path = endpoint at hendpoint ⊢
  subst hendpoint
  exact brings_of_settle (settle_answering _ hpoll hrequest hanswer hbody) rfl

/-- A call of a method that refuses its only request brings nothing but a bad end. -/
theorem dispatch_failing {status : Status}
    (hanswer : answer { metadata := call.metadata, deadline := Context.deadlineAfter call.timeout now } request =
      .error status) :
    (service.dispatch call now).Gives call.codec [.ended (.error status) .empty] ∧
      ∀ horizon, (service.dispatch call now).completeEvents? horizon = some [.ended (.error status) .empty] := by
  rw [dispatch]
  generalize service.endpoint call.path = endpoint at hendpoint ⊢
  subst hendpoint
  exact brings_of_settle (settle_failing _ hpoll hrequest hanswer) rfl

end Dispatch

end RpcConformance.Service
