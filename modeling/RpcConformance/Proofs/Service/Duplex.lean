import RpcConformance.Proofs.Handler.Gathering
import RpcConformance.Proofs.Session.Answering
import RpcConformance.Proofs.Session.Completion
import RpcConformance.Service.Reference
/-!
The two calls of the reference service with a stream each way. One answers each request as it comes, the other keeps
all requests until they end. Both do the same `emitting` of what the requests ask for (`script_serving`,
`script_gathering_end`), so that they differ in when they answer and in the failures that are asked for, and in nothing
else (`duplex_answers`).
-/
namespace RpcConformance

open Session

/-- What a call of a method does is up to the handler of the method. -/
theorem Service.script_dispatch (service : Service) {call : Incoming} {method : Method}
    (hpath : call.path = method.path) (now : Nat) (heard : List Reading) :
    (service.dispatch call now).script heard =
      (service method).script call.codec false call.inbound.dropped
        ((service method).start { metadata := call.metadata, deadline := Context.deadlineAfter call.timeout now })
        heard := by
  have hendpoint : service.endpoint call.path = ⟨method.Request, method.Response, service method⟩ := by
    rw [hpath, endpoint_path]
  rw [dispatch]
  generalize service.endpoint call.path = endpoint at hendpoint ⊢
  subst hendpoint
  rfl

namespace Reference

def readOne (codec : Codec) (item : Except Status Bytes) : Except Status StreamingOutputCallRequest :=
  item.bind codec.decode

def readAll (codec : Codec) (items : List (Except Status Bytes)) : Except Status (List StreamingOutputCallRequest) :=
  items.mapM (readOne codec)

/-- The message that one set of parameters asks for, if there is such a message. -/
def expanded (codec : Codec) (type : Int32) (parameters : ResponseParameters) : Except Status Bytes :=
  (Payload.zeros type parameters.size).bind fun payload =>
    codec.encode ({ payload := some payload } : StreamingOutputCallResponse)

def expansion (codec : Codec) (request : StreamingOutputCallRequest) : List (Except Status Bytes) :=
  request.responseParameters.map (expanded codec request.responseType)

/-- The deeds of a handler that sends messages in order and then does what `next` says, unless it has to give up. -/
def emitting (next : Bool → List Deed) : Bool → List (Except Status Bytes) → List Deed
  | sent, [] => next sent
  | _, .error status :: _ => [.returned (.error status)]
  | sent, .ok bytes :: messages =>
    (if sent then [] else [.flush]) ++ .message bytes :: emitting next true messages

theorem emitting_append (next : Bool → List Deed) (sent : Bool) (first second : List (Except Status Bytes)) :
    emitting next sent (first ++ second) = emitting (fun sent => emitting next sent second) sent first := by
  induction first generalizing sent with
  | nil => rfl
  | cons message first ih =>
    cases message with
    | error status => rfl
    | ok bytes =>
      show _ ++ _ :: emitting next true (first ++ second) = _
      rw [ih]
      rfl

theorem exists_of_emitting {next : Bool → List Deed} {sent : Bool} {messages : List (Except Status Bytes)}
    (h : Deed.returned? (emitting next sent messages) = none) :
    ∃ (bodies : List Bytes) (sent' : Bool), messages = bodies.map .ok ∧ Deed.returned? (next sent') = none := by
  induction messages generalizing sent with
  | nil => exact ⟨[], sent, rfl, h⟩
  | cons message messages ih =>
    cases message with
    | error status => cases h
    | ok bytes =>
      have hrest : Deed.returned? (emitting next true messages) = none := by
        cases sent <;> exact h
      obtain ⟨bodies, sent', rfl, hnext⟩ := ih hrest
      exact ⟨bytes :: bodies, sent', rfl, hnext⟩

theorem returned_emitting {next : Bool → List Deed}
    (hnext : ∀ sent, ∃ outcome, Deed.returned? (next sent) = some outcome) (sent : Bool) (messages : List (Except Status Bytes)) :
    ∃ outcome, Deed.returned? (emitting next sent messages) = some outcome := by
  induction messages generalizing sent with
  | nil => exact hnext sent
  | cons message messages ih =>
    cases message with
    | error status => exact ⟨_, rfl⟩
    | ok bytes =>
      obtain ⟨outcome, houtcome⟩ := ih true
      refine ⟨outcome, ?_⟩
      cases sent <;> exact houtcome

theorem emitting_bodies (bodies : List Bytes) :
    emitting (fun _ => []) true (bodies.map .ok) = bodies.map .message := by
  induction bodies with
  | nil => rfl
  | cons body bodies ih => exact congrArg (List.cons _) ih

theorem exists_encode (codec : Codec) {type size : Int32} {payload : Payload}
    (h : Payload.zeros type size = .ok payload) :
    ∃ bytes, codec.encode ({ payload := some payload } : StreamingOutputCallResponse) = .ok bytes := by
  have htype : payload.type = 0 := by
    rw [Payload.zeros] at h
    split at h
    · cases h
    · split at h
      · cases h
        rfl
      · cases h
  obtain ⟨type, body⟩ := payload
  obtain rfl : type = 0 := htype
  cases codec with
  | proto => exact ⟨_, rfl⟩
  | json => exact ⟨_, rfl⟩

section Steps

variable {plan : Context → Plan StreamingOutputCallRequest StreamingOutputCallResponse} {codec : Codec} (gone : Bool)
  (rest : Plan StreamingOutputCallRequest StreamingOutputCallResponse) (heard : List Reading)

theorem script_sendOne (sent : Bool) (type : Int32) (parameters : ResponseParameters)
    (steps : List (Step StreamingOutputCallResponse)) :
    Plan.script plan codec sent gone (.going (sendOne type parameters ++ steps) rest) heard =
      emitting (fun sent => Plan.script plan codec sent gone (.going steps rest) heard) sent
        [expanded codec type parameters] := by
  have hwait (step : Step StreamingOutputCallResponse) :
      Plan.script plan codec sent gone (.going ((if 0 < parameters.intervalMicros then
        [.sleep (.ofMicros parameters.intervalMicros.toInt.toNat)] else []) ++ [step] ++ steps) rest) heard =
      Plan.script plan codec sent gone (.going (step :: steps) rest) heard := by
    split
    · exact Plan.script_sleep _
    · rfl
  -- the time that a message waits for is nothing to be seen of in the deeds
  rw [sendOne, expanded]
  cases hzeros : Payload.zeros type parameters.size with
  | error status => exact (hwait _).trans (Plan.script_fail status)
  | ok payload =>
    obtain ⟨bytes, hbytes⟩ := exists_encode codec hzeros
    have hexpanded : (Except.ok payload : Except Status Payload).bind (fun payload =>
        codec.encode ({ payload := some payload } : StreamingOutputCallResponse)) = .ok bytes := hbytes
    rw [hexpanded]
    exact (hwait _).trans (Plan.script_send hbytes)

theorem script_sendAll (sent : Bool) (request : StreamingOutputCallRequest)
    (steps : List (Step StreamingOutputCallResponse)) :
    Plan.script plan codec sent gone (.going (sendAll request ++ steps) rest) heard =
      emitting (fun sent => Plan.script plan codec sent gone (.going steps rest) heard) sent
        (expansion codec request) := by
  rw [sendAll, expansion]
  induction request.responseParameters generalizing sent with
  | nil => rfl
  | cons parameters others ih =>
    have hfirst := emitting_append (fun sent => Plan.script plan codec sent gone (.going steps rest) heard) sent
      [expanded codec request.responseType parameters] (others.map (expanded codec request.responseType))
    rw [List.flatMap_cons, List.append_assoc, script_sendOne, List.map_cons]
    simp only [ih]
    exact hfirst.symm

theorem script_replay (sent : Bool) (requests : List StreamingOutputCallRequest) :
    Plan.script plan codec sent gone (.going (requests.flatMap fun request => .check :: sendAll request) rest) heard =
      emitting (fun sent => Plan.script plan codec sent gone (.going [] rest) heard) sent
        (requests.flatMap (expansion codec)) := by
  induction requests generalizing sent with
  | nil => rfl
  | cons request requests ih =>
    rw [List.flatMap_cons, List.cons_append, Plan.script_check, script_sendAll, List.flatMap_cons, emitting_append]
    simp only [ih]

end Steps

section Plans

variable {plan : Context → Plan StreamingOutputCallRequest StreamingOutputCallResponse} {codec : Codec}

def serving : Plan.Progress StreamingOutputCallRequest StreamingOutputCallResponse := .going [] [.serve answer]

/-- The answer to requests that were kept. -/
def replay (requests : List StreamingOutputCallRequest) : List (Step StreamingOutputCallResponse) :=
  requests.flatMap fun request => .check :: sendAll request

def gathering (kept : List StreamingOutputCallRequest) :
    Plan.Progress StreamingOutputCallRequest StreamingOutputCallResponse := .going [] [.gather kept replay]

theorem script_serving_item {item : Except Status Bytes} {request : StreamingOutputCallRequest}
    (hread : readOne codec item = .ok request) (hgranted : requested request.responseStatus = .ok ())
    (sent : Bool) (heard : List Reading) :
    Plan.script plan codec sent false serving (.item item :: heard) =
      emitting (fun sent => Plan.script plan codec sent false serving heard) sent (expansion codec request) := by
  have hanswer : answer request = sendAll request ++ [.check] := by
    rw [answer, hgranted]
  rw [Plan.script_of_read rfl hread, hanswer, script_sendAll]
  simp only [Plan.script_check]
  rfl

theorem script_serving {items : List (Except Status Bytes)} {requests : List StreamingOutputCallRequest}
    (hread : readAll codec items = .ok requests)
    (hgranted : ∀ request ∈ requests, requested request.responseStatus = .ok ()) (sent : Bool)
    (heard : List Reading) :
    Plan.script plan codec sent false serving (items.map .item ++ heard) =
      emitting (fun sent => Plan.script plan codec sent false serving heard) sent
        (requests.flatMap (expansion codec)) := by
  induction items generalizing requests sent with
  | nil =>
    cases hread
    rfl
  | cons item items ih =>
    obtain ⟨request, others, hitem, hothers, rfl⟩ := Plan.readAll_cons_ok hread
    obtain ⟨hfirst, hrest⟩ := List.forall_mem_cons.1 hgranted
    rw [List.map_cons, List.cons_append, script_serving_item hitem hfirst, List.flatMap_cons, emitting_append]
    simp only [ih hothers hrest]

theorem exists_of_serving {sent : Bool} {heard : List Reading}
    (h : Deed.returned? (Plan.script plan codec sent false serving heard) = none) :
    ∃ (items : List (Except Status Bytes)) (requests : List StreamingOutputCallRequest) (bodies : List Bytes),
      heard = items.map .item ∧ readAll codec items = .ok requests ∧
      (∀ request ∈ requests, requested request.responseStatus = .ok ()) ∧
      requests.flatMap (expansion codec) = bodies.map .ok := by
  induction heard generalizing sent with
  | nil => exact ⟨[], [], [], rfl, rfl, nofun, rfl⟩
  | cons reading heard ih =>
    -- the end, a request that cannot be read and one that asks for a failure would each have made it return
    cases reading with
    | ended =>
      rw [Plan.script_of_end rfl, Plan.script_finish] at h
      cases h
    | item item =>
      cases hitem : readOne codec item with
      | error status =>
        rw [Plan.script_of_unreadable rfl hitem] at h
        cases h
      | ok request =>
        cases hrequested : requested request.responseStatus with
        | error status =>
          have hanswer : answer request = [.fail status] := by
            rw [answer, hrequested]
          rw [Plan.script_of_read rfl hitem, hanswer, Plan.script_fail] at h
          cases h
        | ok =>
          rw [script_serving_item hitem hrequested] at h
          obtain ⟨first, sent', hfirst, hnext⟩ := exists_of_emitting h
          obtain ⟨items, requests, bodies, rfl, hread, hgranted, hbodies⟩ := ih hnext
          refine ⟨item :: items, request :: requests, first ++ bodies, rfl, ?_, ?_, ?_⟩
          · exact (Plan.readAll_of_read hitem).trans (congrArg (Except.map (request :: ·)) hread)
          · exact List.forall_mem_cons.2 ⟨hrequested, hgranted⟩
          · rw [List.flatMap_cons, hfirst, hbodies, List.map_append]

theorem script_gathering_end (kept : List StreamingOutputCallRequest) (sent : Bool) (heard : List Reading) :
    Plan.script plan codec sent false (gathering kept) (.ended :: heard) =
      emitting (fun _ => [.returned (.ok ())]) sent (kept.flatMap (expansion codec)) := by
  have hreplay := @script_replay plan codec true [] heard sent kept
  simp only [Plan.script_finish] at hreplay
  rw [Plan.script_of_end rfl]
  exact hreplay

end Plans

section Calls

/-- A call of a method without a deadline that nobody has given up. -/
structure Undisturbed (method : Method) (call : Incoming) : Prop where
  path : call.path = method.path
  timeout : call.timeout = none
  kept : call.inbound.canceled = false
  there : call.inbound.dropped = false

def echoDeeds (metadata : Metadata) : List Deed :=
  [.headers (echo echoInitialKey metadata), .trailers (echo echoTrailingKey metadata)]

section Undisturbed

variable {method : Method} {call : Incoming} (h : Undisturbed method call) (now : Nat)

include h

theorem Undisturbed.unhindered : (service.dispatch call now).Unhindered where
  bound := by
    show Context.deadlineAfter call.timeout now = none
    rw [h.timeout]
    rfl
  deadline := by
    show Context.deadlineAfter call.timeout now = none
    rw [h.timeout]
    rfl
  canceled := rfl
  present := rfl
  kept := h.kept
  gone hdropped := absurd (h.there.symm.trans hdropped) nofun

end Undisturbed

/-- A call that nothing disturbs brings the events of what its handler does until it returns. -/
theorem Undisturbed.completes_of_returned {method : Method} {call : Incoming} (h : Undisturbed method call) {now : Nat}
    {inputs : List Reading} {deeds : List Deed} {outcome : Outcome}
    (hscript : (service.dispatch call now).script inputs = deeds) (hreturned : Deed.returned? deeds = some outcome)
    {session : Session (service.endpoint call.path).handler} {taken : List (Event Bytes)}
    (hreaches : (service.dispatch call now).Reaches inputs session taken) :
    session.Completes taken (Deed.account deeds) := by
  subst hscript
  exact (h.unhindered now).completes (Service.accounted_dispatch service call now) hreaches hreturned

/-- The events of a call that has sent these messages and has not returned. -/
theorem account_bodies (metadata : Metadata) (bodies : List Bytes) :
    Deed.account (echoDeeds metadata ++ emitting (fun _ => []) false (bodies.map .ok)) =
      if bodies = [] then [] else .headers (echo echoInitialKey metadata) :: bodies.map .message := by
  cases bodies with
  | nil => rfl
  | cons body bodies =>
    have hsent : emitting (fun _ => []) false ((body :: bodies).map .ok) =
        .flush :: (body :: bodies).map .message := by
      show .flush :: .message body :: emitting _ true (bodies.map .ok) = _
      rw [emitting_bodies]
      rfl
    have hmessages : Deed.messages ((body :: bodies).map .message) = body :: bodies := by
      rw [Deed.messages, List.filterMap_map]
      exact List.filterMap_some
    have hreturned : Deed.returned? ((body :: bodies).map .message) = none := by
      rw [Deed.returned?, List.findSome?_map]
      exact List.findSome?_eq_none_iff.2 fun _ _ => rfl
    have hflushed : Deed.letOut (echoDeeds metadata ++ [.flush]) = [.headers (echo echoInitialKey metadata)] := by
      simp [echoDeeds, Deed.letOut, Deed.opened, Deed.opens, Deed.earlyHeaders, Deed.headerEntries, Deed.messages,
        Deed.message?]
    rw [hsent, Deed.account_of_pending (by rw [Deed.returned?_append]; exact hreturned), List.append_cons,
      Deed.letOut_append_of_opened rfl, hflushed, hmessages]
    rfl

theorem account_refused (metadata : Metadata) (status : Status) :
    Deed.account (echoDeeds metadata ++ [.returned (.error status)]) =
      [.ended (.error status) ((echo echoInitialKey metadata).extend (echo echoTrailingKey metadata))] := by
  rw [Deed.account_append_returned rfl, Deed.account_of_pending rfl]
  simp [echoDeeds, Deed.letOut, Deed.ending, Deed.opened, Deed.opens, Deed.earlyHeaders, Deed.allTrailers,
    Deed.headerEntries, Deed.trailerEntries]

/-- What both calls do once their requests have ended, if none of them asks for a failure. -/
def answers (codec : Codec) (metadata : Metadata) (requests : List StreamingOutputCallRequest) : List Deed :=
  echoDeeds metadata ++ emitting (fun _ => [.returned (.ok ())]) false (requests.flatMap (expansion codec))

theorem returned_answers (codec : Codec) (metadata : Metadata) (requests : List StreamingOutputCallRequest) :
    ∃ outcome, Deed.returned? (answers codec metadata requests) = some outcome :=
  returned_emitting (fun _ => ⟨_, rfl⟩) false (requests.flatMap (expansion codec))

namespace Undisturbed

variable {call : Incoming} {now : Nat} {items : List (Except Status Bytes)}
  {requests : List StreamingOutputCallRequest}

section Full

variable (h : Undisturbed .fullDuplexCall call)

include h

theorem script_full (heard : List Reading) :
    (service.dispatch call now).script heard =
      echoDeeds call.metadata ++ Plan.script fullDuplexCall call.codec false false serving heard := by
  rw [Service.script_dispatch service h.path, h.there]
  show Plan.script fullDuplexCall _ _ _ (.going [] (fullDuplexCall _)) _ = _
  rw [fullDuplexCall, echoSteps, List.cons_append, List.cons_append, List.nil_append, Plan.script_step,
    Plan.script_headers, Plan.script_step, Plan.script_trailers, Plan.script_step, Plan.script_check]
  rfl

/-- While it waits for a request, it has sent all that the requests before ask for. -/
theorem answered {session : Session (service.endpoint call.path).handler} {heard : List Reading} {deeds : List Deed}
    {taken : List (Event Bytes)} (hrun : Run (service.dispatch call now) session heard deeds taken)
    (hawaits : session.Awaits) :
    ∃ (items : List (Except Status Bytes)) (requests : List StreamingOutputCallRequest) (bodies : List Bytes),
      heard = items.map .item ∧ readAll call.codec items = .ok requests ∧
      requests.flatMap (expansion call.codec) = bodies.map .ok ∧
      taken ++ session.sink.queue =
        if bodies = [] then [] else .headers (echo echoInitialKey call.metadata) :: bodies.map .message := by
  obtain ⟨hreturned, hevents⟩ :=
    (h.unhindered now).awaiting (Service.accounted_dispatch service call now) hrun hawaits
  rw [h.script_full, Deed.returned?_append, Option.or_eq_none_iff] at hreturned
  obtain ⟨items, requests, bodies, rfl, hread, hgranted, hbodies⟩ := exists_of_serving hreturned.2
  have hidle : (fun sent => Plan.script fullDuplexCall call.codec sent false serving []) = fun _ => [] :=
    funext fun sent => Plan.script_of_nothing rfl
  have hserved := @script_serving fullDuplexCall call.codec items requests hread hgranted false []
  rw [List.append_nil, hbodies, hidle] at hserved
  refine ⟨items, requests, bodies, rfl, hread, hbodies, ?_⟩
  rw [hevents, h.script_full, hserved, account_bodies]

theorem script_full_end (hread : readAll call.codec items = .ok requests)
    (hgranted : ∀ request ∈ requests, requested request.responseStatus = .ok ()) :
    (service.dispatch call now).script (items.map .item ++ [.ended]) = answers call.codec call.metadata requests := by
  have hend : (fun sent => Plan.script fullDuplexCall call.codec sent false serving [.ended]) =
      fun _ => [.returned (.ok ())] :=
    funext fun sent => (Plan.script_of_end rfl).trans Plan.script_finish
  rw [h.script_full, script_serving hread hgranted, hend, answers]

end Full

section Half

variable (h : Undisturbed .halfDuplexCall call)

include h

theorem script_half (heard : List Reading) :
    (service.dispatch call now).script heard =
      echoDeeds call.metadata ++ Plan.script halfDuplexCall call.codec false false (gathering []) heard := by
  rw [Service.script_dispatch service h.path, h.there]
  show Plan.script halfDuplexCall _ _ _ (.going [] (halfDuplexCall _)) _ = _
  rw [halfDuplexCall, echoSteps, List.cons_append, List.cons_append, List.nil_append, Plan.script_step,
    Plan.script_headers, Plan.script_step, Plan.script_trailers]
  rfl

theorem unanswered {session : Session (service.endpoint call.path).handler} {deeds : List Deed}
    {taken : List (Event Bytes)} (hrun : Run (service.dispatch call now) session (items.map .item) deeds taken)
    (hread : readAll call.codec items = .ok requests) : taken = [] ∧ session.sink.queue = [] := by
  have hkept : Plan.script halfDuplexCall call.codec false false (gathering []) (items.map .item ++ []) = [] :=
    (Plan.script_gather hread [] false []).trans (Plan.script_of_nothing rfl)
  rw [List.append_nil] at hkept
  have hscript : (service.dispatch call now).script (items.map .item) = echoDeeds call.metadata := by
    rw [h.script_half, hkept, List.append_nil]
  apply (h.unhindered now).silent (Service.accounted_dispatch service call now) hrun
  · rw [hscript]
    rfl
  · rw [hscript]
    rfl

theorem refused {more : List Reading} {status : Status} {session : Session (service.endpoint call.path).handler}
    {taken : List (Event Bytes)}
    (hreaches : (service.dispatch call now).Reaches (items.map .item ++ more) session taken)
    (hread : readAll call.codec items = .error status) :
    session.Completes taken [.ended (.error status)
      ((echo echoInitialKey call.metadata).extend (echo echoTrailingKey call.metadata))] := by
  have hscript : (service.dispatch call now).script (items.map .item ++ more) =
      echoDeeds call.metadata ++ [.returned (.error status)] := by
    rw [h.script_half, gathering, Plan.script_gather_error hread]
  rw [← account_refused]
  exact h.completes_of_returned hscript rfl hreaches

theorem script_half_end (hread : readAll call.codec items = .ok requests) :
    (service.dispatch call now).script (items.map .item ++ [.ended]) = answers call.codec call.metadata requests := by
  have hkept : Plan.script halfDuplexCall call.codec false false (gathering []) (items.map .item ++ [.ended]) =
      Plan.script halfDuplexCall call.codec false false (gathering requests) [.ended] :=
    Plan.script_gather hread [] false [.ended]
  rw [h.script_half, hkept, script_gathering_end, answers]

end Half

theorem completes {method : Method} (h : Undisturbed method call) {inputs : List Reading}
    {session : Session (service.endpoint call.path).handler} {taken : List (Event Bytes)}
    (hreaches : (service.dispatch call now).Reaches inputs session taken)
    (hscript : (service.dispatch call now).script inputs = answers call.codec call.metadata requests) :
    session.Completes taken (Deed.account (answers call.codec call.metadata requests)) := by
  obtain ⟨outcome, hreturned⟩ := returned_answers call.codec call.metadata requests
  exact h.completes_of_returned hscript hreturned hreaches

end Undisturbed

/-- The two calls with a stream each way, without a deadline, whenever requests come and events are taken. While the one
that answers each request as it comes waits for the next, it has sent just the messages that the requests before ask
for, in order, after the headers. Of the other one there is nothing to be seen before its requests have ended; if one
of them cannot be read, then it sends no message and fails with that. Of the same requests, if they can all be read and
none asks for a failure, both make the same events to their end, also where some parameters cannot be met. -/
theorem duplex_answers {full half : Incoming} (hfull : Undisturbed .fullDuplexCall full)
    (hhalf : Undisturbed .halfDuplexCall half) (now now' : Nat) :
    (∀ session heard deeds taken, Run (service.dispatch full now) session heard deeds taken → session.Awaits →
      ∃ (items : List (Except Status Bytes)) (requests : List StreamingOutputCallRequest) (bodies : List Bytes),
        heard = items.map .item ∧ readAll full.codec items = .ok requests ∧
        requests.flatMap (expansion full.codec) = bodies.map .ok ∧
        taken ++ session.sink.queue =
          if bodies = [] then [] else .headers (echo echoInitialKey full.metadata) :: bodies.map .message) ∧
    (∀ items requests session deeds taken,
      Run (service.dispatch half now') session (items.map .item) deeds taken →
      readAll half.codec items = .ok requests → taken = [] ∧ session.sink.queue = []) ∧
    (∀ items more status session taken,
      (service.dispatch half now').Reaches (items.map .item ++ more) session taken →
      readAll half.codec items = .error status →
      session.Completes taken [.ended (.error status)
        ((echo echoInitialKey half.metadata).extend (echo echoTrailingKey half.metadata))]) ∧
    (full.codec = half.codec → full.metadata = half.metadata → ∀ requests : List StreamingOutputCallRequest,
      (∀ request ∈ requests, ∀ status, request.responseStatus = some status → status.code = 0) → ∃ events,
        (∀ items session taken, (service.dispatch full now).Reaches (items.map .item ++ [.ended]) session taken →
          readAll full.codec items = .ok requests → session.Completes taken events) ∧
        (∀ items session taken, (service.dispatch half now').Reaches (items.map .item ++ [.ended]) session taken →
          readAll half.codec items = .ok requests → session.Completes taken events)) := by
  refine ⟨?_, ?_, ?_, ?_⟩
  · intro session heard deeds taken hrun hawaits
    exact hfull.answered hrun hawaits
  · intro items requests session deeds taken hrun hread
    exact hhalf.unanswered hrun hread
  · intro items more status session taken hreaches hread
    exact hhalf.refused hreaches hread
  · intro hcodec hmetadata requests hgranted
    have hrequested : ∀ request ∈ requests, requested request.responseStatus = .ok () :=
      fun request hmem => requested_ok (hgranted request hmem)
    refine ⟨Deed.account (answers full.codec full.metadata requests), ?_, ?_⟩
    · intro items session taken hreaches hread
      exact hfull.completes hreaches (hfull.script_full_end hread hrequested)
    · intro items session taken hreaches hread
      rw [hcodec, hmetadata]
      exact hhalf.completes hreaches (hhalf.script_half_end hread)

def askOne : Bytes := [18, 2, 8, 1]

def askLess : Bytes := [18, 2, 8, 1, 18, 11, 8, 255, 255, 255, 255, 255, 255, 255, 255, 255, 1]

def lateCall (method : Method) : Incoming where
  path := method.path
  codec := .proto
  metadata := .single echoInitialKey [65]
  timeout := none
  inbound := { arrivals := [.due 5, .item (.ok askOne), .pause 3, .item (.ok askLess)], closed := false }

theorem undisturbed_lateCall (method : Method) : Undisturbed method (lateCall method) := ⟨rfl, rfl, rfl, rfl⟩

theorem duplex_answers_late :
    (∃ session deeds taken,
      Run (service.dispatch (lateCall .fullDuplexCall) 0) session [.item (.ok askOne)] deeds taken ∧ session.Awaits ∧
      ∃ items requests bodies,
        [Reading.item (.ok askOne)] = items.map .item ∧ readAll .proto items = .ok requests ∧
        requests.flatMap (expansion .proto) = bodies.map .ok ∧
        taken ++ session.sink.queue =
          if bodies = [] then [] else .headers (.single echoInitialKey [65]) :: bodies.map .message) ∧
    (∃ session deeds taken,
      Run (service.dispatch (lateCall .halfDuplexCall) 0) session [.item (.ok askOne)] deeds taken ∧
      taken = [] ∧ session.sink.queue = []) ∧
    (∃ session, (service.dispatch (lateCall .halfDuplexCall) 0).Reaches
        [.item (.ok askOne), .item (.ok askLess), .item (.error (.dataLoss "truncated"))] session [] ∧
      session.Completes [] [.ended (.error (.dataLoss "truncated")) (.single echoInitialKey [65])]) ∧
    ∃ full half events,
      (service.dispatch (lateCall .fullDuplexCall) 0).Reaches
        [.item (.ok askOne), .item (.ok askLess), .ended] full [] ∧ full.Completes [] events ∧
      (service.dispatch (lateCall .halfDuplexCall) 0).Reaches
        [.item (.ok askOne), .item (.ok askLess), .ended] half [] ∧ half.Completes [] events := by
  obtain ⟨hwaits, hsilent, hrefused, hagree⟩ :=
    duplex_answers (undisturbed_lateCall .fullDuplexCall) (undisturbed_lateCall .halfDuplexCall) 0 0
  have hread : readAll .proto [.ok askOne, .ok askLess] =
      .ok [{ responseParameters := [{ size := 1 }] }, { responseParameters := [{ size := 1 }, { size := -1 }] }] := rfl
  refine ⟨?_, ?_, ?_, ?_⟩
  · have hrun : Run (service.dispatch (lateCall .fullDuplexCall) 0) _ _ _ _ :=
      (((((((((Run.start.step rfl).step rfl).step rfl).wait (show 0 ≤ 5 by decide)).step rfl).step rfl).step
        rfl).step rfl).take rfl).step rfl
    exact ⟨_, _, _, hrun, ⟨rfl, _, _, rfl, rfl⟩, hwaits _ _ _ _ hrun ⟨rfl, _, _, rfl, rfl⟩⟩
  · have hrun : Run (service.dispatch (lateCall .halfDuplexCall) 0) _ _ _ _ :=
      ((((Run.start.step rfl).step rfl).wait (show 0 ≤ 5 by decide)).step rfl).step rfl
    exact ⟨_, _, _, hrun, hsilent [.ok askOne] _ _ _ _ hrun rfl⟩
  · have hreaches : (service.dispatch (lateCall .halfDuplexCall) 0).Reaches
        [.item (.ok askOne), .item (.ok askLess), .item (.error (.dataLoss "truncated"))] _ [] :=
      ⟨[], [], _, Run.start.send rfl, fun _ => rfl, rfl⟩
    exact ⟨_, hreaches, hrefused [.ok askOne, .ok askLess, .error (.dataLoss "truncated")] [] _ _ _ hreaches rfl⟩
  · obtain ⟨events, hfull, hhalf⟩ := hagree rfl rfl
      [{ responseParameters := [{ size := 1 }] }, { responseParameters := [{ size := 1 }, { size := -1 }] }]
      (List.forall_mem_cons.2 ⟨nofun, List.forall_mem_cons.2 ⟨nofun, nofun⟩⟩)
    have hfullReaches : (service.dispatch (lateCall .fullDuplexCall) 0).Reaches
        [.item (.ok askOne), .item (.ok askLess), .ended] _ [] := ⟨[], [], _, Run.start.close, fun _ => rfl, rfl⟩
    have hhalfReaches : (service.dispatch (lateCall .halfDuplexCall) 0).Reaches
        [.item (.ok askOne), .item (.ok askLess), .ended] _ [] := ⟨[], [], _, Run.start.close, fun _ => rfl, rfl⟩
    exact ⟨_, _, events, hfullReaches, hfull [.ok askOne, .ok askLess] _ _ hfullReaches hread, hhalfReaches,
      hhalf [.ok askOne, .ok askLess] _ _ hhalfReaches hread⟩

end Calls

end Reference
end RpcConformance
