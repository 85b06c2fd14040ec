import RpcConformance.Proofs.Client.Head
import RpcConformance.Proofs.Client.Transparency
import RpcConformance.Proofs.Metadata.Marked
/-!
A unary Connect call, whose response is one document. When the call ended well, the caller gets its message, and its
headers and trailers apart from each other although they traveled among the same fields (`connectResult_ok`); when it
failed, just its status, which the document holds because several codes share an HTTP status (`connectResult_error`).
-/
namespace RpcConformance

theorem Code.httpStatus_ne_ok {code : Code} (h : code ≠ .ok) : code.httpStatus ≠ 200 := by
  cases code with
  | ok => exact absurd rfl h
  | _ => decide

theorem Status.Body.parse?_render (body : Body) : parse? body.toJson.render = some body := by
  rw [parse?, Json.parse?_render body.written_toJson, Option.bind_some, body.ofJson?_toJson]

namespace Http

theorem flatMap_of_content {read : Frame → Bytes} (hread : ∀ bytes, read (.data bytes) = bytes) {frames : List Frame}
    {bytes : Bytes} (h : content frames = (bytes, none)) : frames.flatMap read = bytes := by
  induction frames generalizing bytes with
  | nil => exact (Prod.mk.inj h).1
  | cons frame frames ih =>
    cases frame with
    | data head =>
      obtain ⟨hbytes, hnone⟩ := Prod.mk.inj h
      rw [List.flatMap_cons, ih (Prod.ext rfl hnone), hread]
      exact hbytes
    | trailers headers => cases h

end Http

namespace Client

open Http Server

/-- The end that is collected from the events of an answer is its own. -/
theorem collect_events (answer : Answer Bytes) :
    ∃ headers message, collect .empty [] answer.events = (headers, message, (answer.outcome, answer.trailers)) := by
  have hmessages (headers : Metadata) (message : Bytes) (messages : List Bytes) :
      ∃ last, collect headers message (messages.map .message ++ [.ended answer.outcome answer.trailers]) =
        (headers, last, (answer.outcome, answer.trailers)) := by
    induction messages generalizing message with
    | nil => exact ⟨message, rfl⟩
    | cons next messages ih => exact ih next
  rw [Answer.events]
  cases answer.headers with
  | none => exact ⟨_, hmessages _ _ answer.messages⟩
  | some headers => exact ⟨_, hmessages _ _ answer.messages⟩

namespace Remote

section Responses

variable {Res : Type} [Message Res] {codec : Codec} {contentType : ContentType} {received : Http.Response}

theorem connectResult_ok {headers trailers : Metadata} (hheaders : headers.Sendable) (htrailers : trailers.Sendable)
    {body : Bytes} {message : Res} (hmessage : codec.decode body = .ok message)
    (hcarried : Carried
      (unaryResponse contentType [.headers headers, .message body, .ended (.ok ()) trailers]) received) :
    ∃ response : RpcConformance.Response Res, connectResult codec received = .ok response ∧
      response.message = message ∧ response.headers.SameValues headers ∧
      response.trailers.SameValues trailers.shortPart := by
  obtain ⟨hdistinct, hvalues⟩ := responseHeaders_spec HeaderMap.distinct_empty contentType.render hheaders
  obtain ⟨written, hwritten, hdistinct', hmarked, hothers⟩ :=
    Metadata.writeMarked_of_sendable (Metadata.markable_shortPart htrailers) htrailers.shortPart hdistinct
  have hsent : unaryResponse contentType [.headers headers, .message body, .ended (.ok ()) trailers] =
      { status := 200, headers := written, body := [.data body] } := by
    have hself : unaryResponse contentType [.headers headers, .message body, .ended (.ok ()) trailers] =
        { status := 200, body := [.data body]
          headers := (trailers.writeMarked (responseHeaders .empty contentType.render headers)
            Metadata.trailerMark).1 } := rfl
    rw [hself, (Metadata.writeMarked_shortPart htrailers _).1, hwritten]
  rw [hsent] at hcarried
  have hbody : content received.body = (body, none) := by
    rw [hcarried.content, content, content, List.append_nil]
  have hread : connectResult codec received =
      .ok ⟨message, .ofHeaders written, .ofMarkedHeaders written Metadata.trailerMark⟩ := by
    rw [connectResult, flatMap_of_content (fun _ => rfl) hbody, hcarried.failure, hcarried.headers]
    simp only [hcarried.status, if_true, hmessage]
    rfl
  refine ⟨_, hread, rfl, ?_, ?_⟩
  · refine Metadata.sameValues_ofHeaders hheaders hdistinct' fun key hkey => ?_
    rw [hothers key, hvalues key (ne_contentTypeField hkey)]
    · rfl
    · rintro key' rfl
      rw [Metadata.isReserved_marked] at hkey
      cases hkey
  · refine Metadata.sameValues_ofMarkedHeaders htrailers.shortPart hdistinct' fun key => ?_
    have hnone : (responseHeaders .empty contentType.render headers).getAll (Metadata.trailerMark ++ key) = [] := by
      rw [hvalues, hheaders.under_reserved (Metadata.isReserved_marked key)]
      · rfl
      · intro hsame
        have hstarts := Metadata.afterMark?_eq_some_iff.2 hsame
        cases hstarts
    rw [hmarked, hnone, List.nil_append]

/-- The response of a unary Connect call that failed, whatever it had brought before. -/
theorem connectResult_error {answer : Answer Bytes} {status : Status} (houtcome : answer.outcome = .error status)
    (hcode : status.code ≠ .ok) (hcarried : Carried (unaryResponse contentType answer.events) received) :
    (connectResult codec received : Except Status (RpcConformance.Response Res)) = .error status := by
  obtain ⟨headers, message, hcollect⟩ := collect_events answer
  rw [unaryResponse, hcollect, houtcome] at hcarried
  have hbody : content received.body = (status.toBody.toJson.render, none) := by
    rw [hcarried.content, content, content, List.append_nil]
  have hstatus : received.status = status.code.httpStatus := hcarried.status
  rw [connectResult, flatMap_of_content (fun _ => rfl) hbody, hcarried.failure]
  simp only [hstatus, Code.httpStatus_ne_ok hcode, if_false, connectFailure, Status.Body.parse?_render,
    Status.ofBody_toBody]

end Responses

/-- Whether the request of a unary Connect call is posted and answered with a response. -/
def Answered (remote : Remote) (path : String) {Req : Type} [Message Req] (request : Req) (options : CallOptions)
    (received : Http.Response) : Prop :=
  ∃ bytes uri head respond, remote.codec.encode request = .ok bytes ∧ remote.head path false options = .ok (uri, head) ∧
    remote.reach uri head = .ok respond ∧ respond [.data bytes] = some received

section Calls

variable {remote : Remote} {path : String} {Req Res : Type} [Message Req] [Message Res] {request : Req}
  {options : CallOptions} {received : Http.Response} (h : remote.Answered path request options received)

include h

theorem connectUnary_eq (now limit : Nat) :
    ((remote.connectUnary path request options now limit).1 : Except Halt (RpcConformance.Response Res)) =
      (connectResult remote.codec received).mapError .failed := by
  obtain ⟨bytes, uri, head, respond, hbytes, hhead, hreach, hrespond⟩ := h
  have hunary : (remote.connectUnary? path request options : Except Status (Option (RpcConformance.Response Res))) =
      (connectResult remote.codec received).map some := by
    rw [connectUnary?, hbytes]
    simp only [bind, Except.bind, hhead, hreach, hrespond]
  rw [connectUnary, hunary]
  cases (connectResult remote.codec received : Except Status (RpcConformance.Response Res)) with
  | ok response => rfl
  | error status => rfl

/-- What a service answered a unary Connect call with is what the caller gets: of a good end the message, under every
key the values of the headers and apart from them those of the trailers, up to the first trailer whose key has no room
behind the mark; of a bad end the status, whatever came before it. -/
theorem connectUnary_answer {contentType : ContentType} {answer : Answer Bytes}
    (hcarried : Carried (unaryResponse contentType answer.events) received)
    (hheaders : ∀ headers, answer.headers = some headers → headers.Sendable) (htrailers : answer.trailers.Sendable)
    (now limit : Nat) :
    (∀ (message : Res) (body : Bytes), answer.outcome = .ok () → answer.messages = [body] →
      remote.codec.encode message = .ok body → remote.codec.decode body = .ok message →
      ∃ response, (remote.connectUnary path request options now limit).1 = .ok response ∧ response.message = message ∧
        (∀ key, response.headers.getAll key = (answer.headers.getD .empty).getAll key) ∧
        (∀ key, response.trailers.getAll key = answer.trailers.shortPart.getAll key) ∧
        ((∀ entry ∈ answer.trailers.entries, Metadata.isShort entry.1 = true) →
          ∀ key, response.trailers.getAll key = answer.trailers.getAll key)) ∧
    ∀ status, answer.outcome = .error status → status.code ≠ .ok →
      ((remote.connectUnary path request options now limit).1 : Except Halt (RpcConformance.Response Res)) =
        .error (.failed status) := by
  refine ⟨fun message body houtcome hmessages hencode hdecode => ?_, fun status houtcome hcode => ?_⟩
  · cases hsome : answer.headers with
    | none => exact absurd houtcome (answer.alone hsome).2
    | some headers =>
      have hevents : answer.events = [.headers headers, .message body, .ended (.ok ()) answer.trailers] := by
        rw [Answer.events, hsome, hmessages, houtcome]
        rfl
      rw [hevents] at hcarried
      obtain ⟨response, hresult, hmessage, hsame, hsame'⟩ :=
        connectResult_ok (hheaders headers hsome) htrailers hdecode hcarried
      refine ⟨response, ?_, hmessage, hsame.getAll, hsame'.getAll, fun hshort => ?_⟩
      · rw [connectUnary_eq h, hresult]
        rfl
      · rw [← Metadata.shortPart_eq_self_iff.2 hshort]
        exact hsame'.getAll
  · rw [connectUnary_eq h, connectResult_error houtcome hcode hcarried]
    rfl

end Calls

def fixed (answer : Answer Bytes) : Remote where
  baseUrl := "http://localhost:8080"
  protocol := .connect
  codec := .json
  network := fun _ _ => .ok fun _ => some (unaryResponse (.forCall .connect .json false) answer.events)

def granting : Answer Bytes where
  headers := some ⟨[("x-key", [0x61]), ("x-key", [0x62])]⟩
  messages := [[0x7b, 0x7d]]
  outcome := .ok ()
  trailers := ⟨[("x-key", [0x63]), ("x-key-bin", [0xff])]⟩
  alone := nofun

def revoking : Answer Bytes := { granting with outcome := .error ⟨.aborted, "soirée\n"⟩, alone := nofun }

theorem answered_fixed (answer : Answer Bytes) :
    (fixed answer).Answered "/a" ({} : SimpleRequest) {}
      (unaryResponse (.forCall .connect .json false) answer.events) := by
  have hencode : Codec.json.encode ({} : SimpleRequest) = .ok [0x7b, 0x7d] := by decide +kernel
  have huri : Uri.parse? ("http://localhost:8080" ++ "/a") = some ⟨some "http", "localhost:8080", "/a"⟩ := by
    decide +kernel
  obtain ⟨headers, hhead, -⟩ := @head_eq (fixed answer) false _ _ huri {} nofun
  exact ⟨_, _, _, _, hencode, hhead, rfl, rfl⟩

theorem connectUnary_answer_fixed :
    (∃ response : RpcConformance.Response SimpleResponse,
      ((fixed granting).connectUnary "/a" ({} : SimpleRequest) {} 0 0).1 = .ok response ∧ response.message = {} ∧
        response.headers.getAll "x-key" = [[0x61], [0x62]] ∧ response.trailers.getAll "X-Key" = [[0x63]]) ∧
    (((fixed revoking).connectUnary "/a" ({} : SimpleRequest) {} 0 0).1 :
      Except Halt (RpcConformance.Response SimpleResponse)) = .error (.failed ⟨.aborted, "soirée\n"⟩) := by
  have hheaders : ∀ headers, granting.headers = some headers → headers.Sendable := by
    rintro headers ⟨⟩
    decide +kernel
  have htrailers : granting.trailers.Sendable := by decide +kernel
  have hgranting := @connectUnary_answer _ _ _ SimpleResponse _ _ _ _ _ (answered_fixed granting) _ _ (Carried.refl rfl)
    hheaders htrailers 0 0
  have hrevoking := @connectUnary_answer _ _ _ SimpleResponse _ _ _ _ _ (answered_fixed revoking) _ revoking
    (Carried.refl rfl) hheaders htrailers 0 0
  obtain ⟨response, hresponse, hmessage, hfirst, -, hsecond⟩ :=
    hgranting.1 {} [0x7b, 0x7d] rfl rfl (by decide +kernel) (by decide +kernel)
  refine ⟨⟨response, hresponse, hmessage, ?_, ?_⟩, hrevoking.2 _ rfl nofun⟩
  · rw [hfirst]
    decide +kernel
  · rw [hsecond (by decide +kernel)]
    decide +kernel

/-- A trailer whose key is the name of a field, but leaves no room for the mark, does not reach the caller. -/
theorem connectUnary_long :
    Metadata.long.Sendable ∧ Metadata.long.getAll (Metadata.repeated 65528) = [[0x76]] ∧
      ∃ response : RpcConformance.Response SimpleResponse,
        ((fixed { granting with trailers := .long, alone := nofun }).connectUnary "/a" ({} : SimpleRequest) {} 0 0).1 =
          .ok response ∧ response.trailers.getAll (Metadata.repeated 65528) = [] := by
  have hheaders : Metadata.Sendable ⟨[("x-key", [0x61]), ("x-key", [0x62])]⟩ := by decide +kernel
  obtain ⟨response, hresponse, -, -, htrailers⟩ :=
    @connectResult_ok SimpleResponse _ .json (.forCall .connect .json false) _ _ _ hheaders Metadata.sendable_long
      [0x7b, 0x7d] {} (by decide +kernel) (Carried.refl rfl)
  refine ⟨Metadata.sendable_long, ?_, response, ?_, ?_⟩
  · have hlower := Metadata.lowerCase_of_name (Metadata.sendable_long _ List.mem_cons_self).name
    have hkey : Metadata.long.getAll (Metadata.repeated 65528) =
        under (Metadata.lowerCase (Metadata.repeated 65528)) [(Metadata.repeated 65528, [0x76])] := rfl
    rw [hkey, hlower, under_cons_self, under_nil]
  · exact (connectUnary_eq (answered_fixed _) 0 0).trans (congrArg _ hresponse)
  · rw [htrailers.getAll, Metadata.shortPart_long]
    rfl

end Remote

end Client

end RpcConformance
