import RpcConformance.Proofs.Client.Answered
import RpcConformance.Proofs.Client.BreakOff
import RpcConformance.Proofs.Client.Surfaced
import RpcConformance.Proofs.Message.Codec
import RpcConformance.Proofs.Server.Messages
/-!
Calls whose handler dies: their events stop without an end. The server reports such a call as failed at whatever place
it stops (`Server.response_unfinished`), and every protocol tells the client so (`Exchange.last_unfinished`). The client
gets the messages that were sent and then a failure with the code for internal errors, over a network and in the same
process alike, and no call with one response goes well (`interrupted_fails`).
-/
namespace RpcConformance

open Envelope Http

/-- Events without an end. -/
def Event.Endless {α : Type} (events : List (Event α)) : Prop := ∀ outcome trailers, .ended outcome trailers ∉ events

namespace Event

variable {α : Type} {event : Event α} {events : List (Event α)}

theorem Endless.of_cons (h : Endless (event :: events)) : Endless events := fun outcome trailers hmem =>
  h outcome trailers (List.mem_cons_of_mem _ hmem)

theorem Endless.not_ended {outcome : Outcome} {trailers : Metadata} (h : Endless (.ended outcome trailers :: events)) :
    False := h outcome trailers List.mem_cons_self

theorem Endless.before_end {whole : List (Event α)} {outcome : Outcome} {trailers : Metadata} (h : Endless events)
    (hbegins : events <+: whole ++ [.ended outcome trailers]) : events <+: whole := by
  rcases List.prefix_concat_iff.1 hbegins with rfl | hwhole
  · exact absurd (List.mem_append_right _ List.mem_cons_self) (h outcome trailers)
  · exact hwhole

end Event

namespace Answer

variable {α : Type}

/-- The answer to a call that stops after its headers and messages, or before it had any. Its end is the one that the
server puts in the place of the missing one. -/
def stopped (headers : Option Metadata) (bodies : List α) (h : headers = none → bodies = []) : Answer α where
  headers := headers
  messages := bodies
  outcome := Server.unfinished.1
  trailers := Server.unfinished.2
  alone hnone := ⟨h hnone, nofun⟩

theorem messages_events (answer : Answer α) : Event.messages answer.events = answer.messages := by
  obtain ⟨headers, bodies, outcome, trailers, halone⟩ := answer
  cases headers with
  | some headers => exact Event.messages_answer headers bodies outcome trailers
  | none =>
    obtain ⟨rfl, -⟩ := halone rfl
    rfl

end Answer

namespace Service

open Session

/-- What the peer of a call has taken is the beginning of what its handler did. -/
theorem prefix_account {service : Service} {call : Incoming} {now : Nat}
    {session : Session (service.endpoint call.path).handler} {deeds : List Deed} {taken : List (Event Bytes)}
    (h : Course (service.serve call now) session deeds taken) : taken <+: Deed.account deeds := by
  rcases accounted_of_course (accounted_serve service call now) h with hthere | hgone
  · rw [← hthere.events, List.append_assoc]
    exact List.prefix_append _ _
  · exact hgone.events

theorem events_of_endless {service : Service} {call : Incoming} {now : Nat}
    {session : Session (service.endpoint call.path).handler} {deeds : List Deed} {events : List (Event Bytes)}
    (h : Course (service.serve call now) session deeds events) (hendless : Event.Endless events) :
    ∃ headers bodies hnone,
      (Answer.stopped headers bodies hnone).events = events ++ [.ended Server.unfinished.1 Server.unfinished.2] := by
  obtain ⟨more, outcome, whole, -, hanswers, hwhole⟩ := answer_of_account (prefix_account h)
  cases events with
  | nil => exact ⟨none, [], fun _ => rfl, rfl⟩
  | cons event events =>
    rcases hanswers with ⟨-, rfl⟩ | ⟨status, -, -, rfl⟩
    · obtain ⟨rfl, hmessages⟩ := List.cons_prefix_cons.1 (hendless.before_end hwhole)
      obtain ⟨bodies, -, rfl⟩ := List.prefix_map_iff.1 hmessages
      exact ⟨some _, bodies, nofun, rfl⟩
    · have hwhole' : event :: events <+: [] ++ [.ended (.error status) _] := hwhole
      cases List.prefix_nil.1 (hendless.before_end hwhole')

end Service

namespace Server

variable {events : List (Event Bytes)} (h : Event.Endless events)

include h

theorem collect_unfinished (headers : Metadata) (message : Bytes) :
    collect headers message (events ++ [.ended unfinished.1 unfinished.2]) = collect headers message events := by
  induction events generalizing headers message with
  | nil => rfl
  | cons event events ih =>
    cases event with
    | headers metadata => exact ih h.of_cons _ _
    | message bytes => exact ih h.of_cons _ _
    | ended => exact h.not_ended.elim

theorem responseFrames_unfinished (protocol : Protocol) :
    responseFrames protocol (events ++ [.ended unfinished.1 unfinished.2]) = responseFrames protocol events := by
  induction events with
  | nil => rfl
  | cons event events ih =>
    cases event with
    | headers metadata => exact ih h.of_cons
    | message bytes => exact congrArg (List.cons (.data (wrap messageFlags bytes))) (ih h.of_cons)
    | ended => exact h.not_ended.elim

theorem response_unfinished (contentType : ContentType) :
    response contentType (events ++ [.ended unfinished.1 unfinished.2]) = response contentType events := by
  rw [response, response, unaryResponse, unaryResponse, collect_unfinished h]
  congr 1
  cases events with
  | nil => rfl
  | cons event events =>
    cases event with
    | headers metadata =>
      rw [List.cons_append, streamingResponse, streamingResponse, responseFrames_unfinished h.of_cons]
    | message bytes => rfl
    | ended => exact h.not_ended.elim

end Server

namespace Client

open Server

namespace Exchange

variable {Res : Type} [Message Res]

omit [Message Res] in
theorem tellable_unfinished : Trailers.Tellable Server.unfinished.1 := tellable_error (by decide)

omit [Message Res] in
theorem sendable_unfinished : Server.unfinished.2.Sendable := nofun

variable (Res) in
/-- Where the messages stop, every protocol has an end that is read as an internal failure. -/
theorem last_unfinished (protocol : Protocol) (codec : Codec) :
    ∃ status rest fields trailers, status.code = .internal ∧
      content [endFrame protocol Server.unfinished] = (rest, fields) ∧
      Last Res protocol codec none rest fields (.ended (.error status) trailers) := by
  have hsendable := sendable_unfinished
  cases protocol with
  | connect =>
    obtain ⟨ending, hparse, houtcome, -⟩ := EndStream.parse?_endStreamMessage Server.unfinished.1 Server.unfinished.2
    have hends : (ofEnvelope .connect codec ⟨endStreamFlags, (endStreamMessage Server.unfinished).render⟩ : Event Res) =
        .ended Server.unfinished.1 ending.metadata := by
      change endOfStream (endStreamMessage Server.unfinished).render = _
      rw [endOfStream, hparse]
      simp only [houtcome]
    have hlength : (endStreamMessage Server.unfinished).render.length < lengthBound := by decide +kernel
    have hcontent : content [endFrame .connect Server.unfinished] =
        ((⟨endStreamFlags, (endStreamMessage Server.unfinished).render⟩ : Envelope).toBytes ++ [], none) := rfl
    refine ⟨_, _, _, _, ?_, hcontent, .envelope [] none rfl hlength hends⟩
    rfl
  | grpc =>
    obtain ⟨trailers, hread, -⟩ := @endOfTrailers_ofEnd Res _ tellable_unfinished _ hsendable
    have hlast : Last Res .grpc codec none [] (some (Trailers.ofEnd Server.unfinished.1 Server.unfinished.2))
        (.ended Server.unfinished.1 trailers) := hread ▸ .trailers _ rfl
    refine ⟨_, _, _, _, ?_, rfl, hlast⟩
    rfl
  | grpcWeb =>
    obtain ⟨trailers, hends, -⟩ := @ofEnvelope_ofEnd Res _ codec _ tellable_unfinished _ hsendable
      fun _ hentry => absurd hentry List.not_mem_nil
    let fields := Trailers.ofEnd Server.unfinished.1 Server.unfinished.2
    have hcompressed : isCompressed trailerFlags = false := rfl
    have hlength : (Trailers.encodeBlock fields).length < lengthBound := by decide +kernel
    have hcontent : content [endFrame .grpcWeb Server.unfinished] =
        ((⟨trailerFlags, Trailers.encodeBlock fields⟩ : Envelope).toBytes ++ [], none) := rfl
    refine ⟨_, _, _, _, ?_, hcontent, .envelope [] none hcompressed hlength hends⟩
    rfl

section Events

variable {codec : Codec} {sent : List (Res × Bytes)} (hholds : Holds codec sent)
  (hlengths : ∀ body ∈ sent.map Prod.snd, body.length < lengthBound) {received : Http.Response}

include hholds hlengths

/-- A response with headers that stops after some messages is read as these messages and a failure. -/
theorem fails_of_open (protocol : Protocol) {contentType : String} {headers : Metadata} (hheaders : headers.Sendable)
    (hcarried : Carried ⟨200, responseHeaders .empty contentType headers, responseFrames protocol
      ((sent.map Prod.snd).map .message ++ [.ended Server.unfinished.1 Server.unfinished.2]), none⟩ received) :
    ∃ status, status.code = .internal ∧ Event.Fails status (sent.map Prod.fst) (events protocol codec received) := by
  obtain ⟨status, rest, fields, trailers, hcode, hcontent, hlast⟩ := last_unfinished Res protocol codec
  exact ⟨status, hcode, fails_of_last hholds hlengths hheaders hcontent hlast hcarried⟩

theorem fails_of_stopped {contentType : ContentType} {headers : Option Metadata} {hnone}
    (hheaders : ∀ metadata, headers = some metadata → metadata.Sendable)
    (hcarried : Carried (streamingResponse contentType (Answer.stopped headers (sent.map Prod.snd) hnone).events)
      received) :
    ∃ status, status.code = .internal ∧
      Event.Fails status (sent.map Prod.fst) (events contentType.protocol codec received) := by
  obtain ⟨protocol, format, enveloped⟩ := contentType
  cases headers with
  | some headers => exact fails_of_open hholds hlengths protocol (hheaders headers rfl) hcarried
  | none =>
    obtain rfl : sent = [] := List.map_eq_nil_iff.1 (hnone rfl)
    by_cases hconnect : protocol = .connect
    · subst hconnect
      exact fails_of_open hholds hlengths .connect Metadata.portable_empty.sendable hcarried
    · have hearly : streamingResponse ⟨protocol, format, enveloped⟩ (Answer.stopped none [] hnone).events =
          ⟨200, responseHeaders (Trailers.ofEnd Server.unfinished.1 Server.unfinished.2)
            (ContentType.mk protocol format enveloped).render .empty, [], none⟩ := by
        cases protocol with
        | connect => exact absurd rfl hconnect
        | grpc | grpcWeb => rfl
      have hcarried' : Carried _ received := hearly ▸ hcarried
      obtain ⟨trailers, -, hevents⟩ := @events_of_early_end Res _ protocol hconnect codec _ _ tellable_unfinished _
        sendable_unfinished _ hcarried'
      rw [hevents]
      exact ⟨_, rfl, .ended _ trailers⟩

end Events

end Exchange

/-- A call in the same process that stops is read as its messages, and then there is no end. -/
theorem Served.exists_read {Res : Type} [Message Res] {codec : Codec} {events : List (Event Bytes)}
    (hendless : Event.Endless events) {sent : List (Res × Bytes)} (hholds : Exchange.Holds codec sent)
    (hmessages : Event.messages events = sent.map Prod.snd) :
    ∃ read : List (Event Res), List.Forall₂ (fun event event' => readEvent codec event = .ok event') events read ∧
      Event.Fails Call.unfinished (sent.map Prod.fst) read := by
  induction events generalizing sent with
  | nil =>
    obtain rfl : sent = [] := List.map_eq_nil_iff.1 hmessages.symm
    exact ⟨[], .nil, .closed⟩
  | cons event events ih =>
    cases event with
    | headers metadata =>
      obtain ⟨read, hread, hfails⟩ := ih hendless.of_cons hholds hmessages
      exact ⟨.headers metadata :: read, .cons rfl hread, hfails.headers metadata⟩
    | message bytes =>
      cases sent with
      | nil => cases hmessages
      | cons pair sent =>
        obtain ⟨hfirst, hothers⟩ := List.forall_mem_cons.1 hholds
        obtain ⟨rfl, hrest⟩ : bytes = pair.2 ∧ Event.messages events = sent.map Prod.snd := List.cons.inj hmessages
        obtain ⟨read, hread, hfails⟩ := ih hendless.of_cons hothers hrest
        have hevent : readEvent codec (.message pair.2) = .ok (.message pair.1) := by
          rw [readEvent, hfirst]
          rfl
        exact ⟨.message pair.1 :: read, .cons hevent hread, hfails.message pair.1⟩
    | ended => exact hendless.not_ended.elim

/-- Some events of a call of a service, without an end, and the messages they are read as. -/
structure Interrupted {Res : Type} [Message Res] (service : Service) (codec : Codec) (events : List (Event Bytes))
    (sent : List (Res × Bytes)) : Prop where
  taken : ∃ (call : Incoming) (now : Nat) (session : Session (service.endpoint call.path).handler) (deeds : List Deed),
    Session.Course (service.serve call now) session deeds events
  endless : Event.Endless events
  messages : Event.messages events = sent.map Prod.snd
  holds : Exchange.Holds codec sent

namespace Interrupted

variable {Res : Type} [Message Res] {service : Service} {codec : Codec} {events : List (Event Bytes)}
  {sent : List (Res × Bytes)} (h : Interrupted service codec events sent)

include h

/-- The response to such a call is the one to the answer that says that the call stopped. -/
theorem exists_answer :
    ∃ headers hnone, (∀ metadata, headers = some metadata → .headers metadata ∈ events) ∧ ∀ contentType,
      response contentType (Answer.stopped headers (sent.map Prod.snd) hnone).events = response contentType events := by
  obtain ⟨call, now, session, deeds, hcourse⟩ := h.taken
  obtain ⟨headers, bodies, hnone, hevents⟩ := Service.events_of_endless hcourse h.endless
  have hbodies : bodies = sent.map Prod.snd := by
    have hmessages := (Answer.stopped headers bodies hnone).messages_events
    rw [hevents, Event.messages, List.filterMap_append] at hmessages
    rw [← h.messages]
    exact (hmessages.symm.trans (List.append_nil _))
  subst hbodies
  refine ⟨headers, hnone, ?_, fun contentType => ?_⟩
  · rintro metadata rfl
    have hmem : .headers metadata ∈ events ++ [.ended Server.unfinished.1 Server.unfinished.2] :=
      hevents ▸ List.mem_cons_self
    simpa using hmem
  · rw [hevents, response_unfinished h.endless]

theorem bare {contentType : ContentType} (hbare : contentType.enveloped = false) {received : Http.Response}
    (hcarried : Carried (response contentType events) received) :
    ∃ status, status.code = .internal ∧ ∀ format,
      (Remote.connectResult format received : Except Status (RpcConformance.Response Res)) = .error status := by
  obtain ⟨headers, hnone, -, hanswer⟩ := h.exists_answer
  rw [← hanswer, response, hbare] at hcarried
  refine ⟨_, ?_, fun format => Remote.connectResult_error rfl ?_ hcarried⟩
  · rfl
  · decide

theorem enveloped {contentType : ContentType} (henveloped : contentType.enveloped = true)
    (hheaders : ∀ metadata, .headers metadata ∈ events → metadata.Sendable)
    (hlengths : ∀ body ∈ sent.map Prod.snd, body.length < lengthBound) {received : Http.Response}
    (hcarried : Carried (response contentType events) received) :
    ∃ status, status.code = .internal ∧
      Event.Fails status (sent.map Prod.fst) (Exchange.events contentType.protocol codec received) := by
  obtain ⟨headers, hnone, hmem, hanswer⟩ := h.exists_answer
  rw [← hanswer, response, henveloped] at hcarried
  have hsendable (metadata : Metadata) (hsome : headers = some metadata) : metadata.Sendable :=
    hheaders metadata (hmem metadata hsome)
  exact Exchange.fails_of_stopped h.holds hlengths hsendable hcarried

/-- In the same process the session of the call gives its messages, and then it is closed. -/
theorem left {path : String} {Req : Type} {horizon latest : Nat} {served : Served service path Req Res}
    (hcodec : served.session.sink.codec = codec) (hcomplete : served.session.completeEvents? horizon = some events)
    (hnow : served.session.now ≤ latest) :
    ∃ read, Served.Left codec horizon latest served read ∧ Event.Fails Call.unfinished (sent.map Prod.fst) read := by
  obtain ⟨read, hread, hfails⟩ := Served.exists_read h.endless h.holds h.messages
  exact ⟨read, ⟨events, hcomplete, hread, hnow, hcodec⟩, hfails⟩

end Interrupted

/-- What becomes of a call whose events stop without an end, wherever they do. A unary Connect call fails. Every other
call over a network, and every call in the same process, brings the messages that were sent, in order, and then a
failure, but never a good end; if it should have one response only, then it has none. All these failures have the code
for internal errors. An envelope writes the length of its message in 32 bits, so messages in envelopes are taken to be
shorter than that. -/
theorem interrupted_fails {Req Res : Type} [Message Req] [Message Res] {service : Service} {codec : Codec}
    {events : List (Event Bytes)} {sent : List (Res × Bytes)} (h : Interrupted service codec events sent) :
    (∀ {contentType : ContentType} {received : Http.Response}, Carried (response contentType events) received →
      (contentType.enveloped = false → ∃ status, status.code = .internal ∧
        ∀ {remote : Remote} {path : String} {request : Req} {options : CallOptions}, remote.protocol = .connect →
          remote.Answered path request options received → ∀ now limit,
            ((remote.unary path request options now limit).1 : Except Halt (RpcConformance.Response Res)) =
              .error (.failed status)) ∧
      (contentType.enveloped = true → (∀ metadata, .headers metadata ∈ events → metadata.Sendable) →
        (∀ body ∈ sent.map Prod.snd, body.length < lengthBound) →
        (∃ status, status.code = .internal ∧ ∀ link : Feed Req Res,
          link.source = .ready (Exchange.events contentType.protocol codec received) true →
            Link.Dies 0 status (sent.map Prod.fst) link) ∧
        ∀ {remote : Remote} {path : String} {request : Req} {options : CallOptions},
          remote.protocol = contentType.protocol → remote.protocol ≠ .connect → remote.codec = codec →
          remote.Replied path request options received → ∀ now limit (response : RpcConformance.Response Res),
            (remote.unary path request options now limit).1 ≠ .ok response)) ∧
    (∀ {path : String} {horizon : Nat} (link : Served service path Req Res), link.session.sink.codec = codec →
      link.session.completeEvents? horizon = some events →
        Link.Dies horizon Call.unfinished (sent.map Prod.fst) link) ∧
    ∀ {path : String} {request : Req} {options : CallOptions} {now horizon : Nat},
      (service.serve { path, codec, metadata := options.metadata, timeout := options.timeout
                       inbound := .ofItems [codec.encode request] } now).completeEvents? horizon = some events →
      ∀ limit (response : RpcConformance.Response Res),
        ((InProcess.mk service codec).unary path request options now limit).1 ≠ .ok response := by
  refine ⟨fun {contentType received} hcarried => ⟨?_, ?_⟩, ?_, ?_⟩
  · intro hbare
    obtain ⟨status, hcode, hresult⟩ := h.bare hbare hcarried
    refine ⟨status, hcode, ?_⟩
    rintro remote path request options hprotocol hanswered now limit
    have hconnect := @Remote.connectUnary_eq remote path Req Res _ _ request options received hanswered now limit
    rw [Remote.unary, hprotocol, hconnect, hresult]
    rfl
  · intro henveloped hheaders hlengths
    obtain ⟨status, hcode, hfails⟩ := h.enveloped henveloped hheaders hlengths hcarried
    refine ⟨⟨status, hcode, fun link hsource => ?_⟩, ?_⟩
    · exact Link.dies_of_unfolds (Feed.unfolds Req Res _) ⟨hsource, Nat.le_max_left _ _⟩ hfails
    · rintro remote path request options hprotocol hother rfl hreplied now limit response
      rw [← hprotocol] at hfails
      exact Remote.unary_ne_ok hother hreplied hfails now limit response
  · intro path horizon link hcodec hcomplete
    obtain ⟨read, hleft, hfails⟩ := h.left hcodec hcomplete (Nat.le_max_left _ horizon)
    exact Link.dies_of_unfolds (Served.unfolds codec (Nat.le_max_right _ _)) hleft hfails
  · intro path request options now horizon hcomplete limit response hresponse
    cases htold : Context.isTold options.timeout now with
    | false =>
      rw [InProcess.unary, if_neg (Bool.eq_false_iff.1 htold)] at hresponse
      cases hresponse
    | true =>
    obtain ⟨taken, hsend, hclosed⟩ := @InProcess.exists_taken ⟨service, codec⟩ path Req Res _ _ request _ _ htold
    rw [Service.serve_of_told service htold, ← hclosed] at hcomplete
    rw [InProcess.unary, if_pos htold] at hresponse
    obtain ⟨read, hleft, hfails⟩ := h.left (by rw [hclosed]; rfl) hcomplete (Nat.le_max_left _ horizon)
    exact Call.unary_ne_ok (Served.unfolds codec (Nat.le_max_right _ _)) hsend hleft hfails (Prod.ext hresponse rfl)

/-- A service that sends headers and a message and then dies. -/
def crashing : Service
  | .emptyCall => Plan.handler fun _ => [.step (.headers (.single "a" [0x78])), .step (.send {}), .step .panic]
  | _ => .refuse ⟨.unimplemented, ""⟩

def crashingCall : Incoming where
  path := Method.emptyCall.path
  codec := .proto
  metadata := .empty
  timeout := none
  inbound := .ofItems [.ok []]

def crashedEvents : List (Event Bytes) := [.headers (.single "a" [0x78]), .message []]

theorem interrupted_crashing : Interrupted crashing .proto crashedEvents [(({} : Empty), [])] where
  taken := ⟨crashingCall, 0, _, _, .take (.take (.step (.step (.step (.step .start rfl) rfl) rfl) rfl) rfl) rfl⟩
  endless outcome trailers := by simp [crashedEvents]
  messages := rfl
  holds := by
    simp only [Exchange.Holds, List.mem_singleton, forall_eq]
    rfl

theorem completeEvents?_crashingCall (horizon : Nat) :
    (crashing.dispatch crashingCall 0).completeEvents? horizon = some crashedEvents := by
  have hsettle : (crashing.dispatch crashingCall 0).settle = _ :=
    (Session.settle_of_step rfl).trans <| (Session.settle_of_step rfl).trans <|
      (Session.settle_of_step rfl).trans <| (Session.settle_of_step rfl).trans (Session.settle_of_over rfl)
  exact (Session.brings_of_settle hsettle rfl).2 horizon

def crashedLink : Feed Empty Empty where
  codec := .proto
  now := 0
  source := .ready (Exchange.events .grpc .proto (response (.forCall .grpc .proto true) crashedEvents)) true

def crashedSession : Served crashing Method.emptyCall.path Empty Empty := ⟨crashing.dispatch crashingCall 0⟩

/-- Over unary Connect, over gRPC and in the same process. -/
theorem interrupted_fails_crashing :
    (∃ status, status.code = .internal ∧ ∀ now limit,
      (((replaying (response (.forCall .connect .proto false) crashedEvents)).unary "/a" ({} : Empty) {} now limit).1 :
        Except Halt (RpcConformance.Response Empty)) = .error (.failed status)) ∧
    (∃ status, status.code = .internal ∧ (Call.opened crashedLink none).receiveAll [0, 5, 0] =
      [.ok (some ({} : Empty)), .error (.failed status), .error (.failed status)]) ∧
    (Call.opened crashedSession (some 2)).receiveAll [1, 1] =
      [.ok (some ({} : Empty)), .error (.failed Call.unfinished)] ∧
    ∀ limit (response : RpcConformance.Response Empty),
      ((InProcess.mk crashing .proto).unary Method.emptyCall.path ({} : Empty) {} 0 limit).1 ≠ .ok response := by
  obtain ⟨hremote, hserved, hunary⟩ := @interrupted_fails Empty Empty _ _ _ _ _ _ interrupted_crashing
  have hgrpc := (@hremote (.forCall .grpc .proto true) _ (Carried.refl rfl)).2 rfl
  have hconnect := (@hremote (.forCall .connect .proto false) _ (Carried.refl rfl)).1 rfl
  refine ⟨?_, ?_, ?_, ?_⟩
  · obtain ⟨status, hcode, hbare⟩ := hconnect
    have huri : Uri.parse? ("http://localhost:8080" ++ "/a") = some ⟨some "http", "localhost:8080", "/a"⟩ := by
      decide +kernel
    obtain ⟨headers, hhead, -⟩ := @Remote.head_eq
      (replaying (response (.forCall .connect .proto false) crashedEvents)) false _ _ huri {} nofun
    have hanswered : (replaying (response (.forCall .connect .proto false) crashedEvents)).Answered "/a" ({} : Empty) {}
        (response (.forCall .connect .proto false) crashedEvents) := ⟨_, _, _, _, rfl, hhead, rfl, rfl⟩
    exact ⟨status, hcode, hbare rfl hanswered⟩
  · have hsendable : ∀ metadata, .headers metadata ∈ crashedEvents → metadata.Sendable := by
      intro metadata hmem
      obtain rfl : metadata = .single "a" [0x78] := by simpa [crashedEvents] using hmem
      decide +kernel
    obtain ⟨status, hcode, hlinks⟩ := (hgrpc hsendable (by decide)).1
    have hdies := hlinks crashedLink rfl (Call.opened crashedLink none) rfl rfl rfl
    exact ⟨status, hcode, hdies.tells nofun [0, 5, 0] 2 (by simp) rfl⟩
  · have hdies := hserved crashedSession rfl (completeEvents?_crashingCall 1) (Call.opened crashedSession (some 2))
      rfl rfl rfl
    exact hdies.tells (by rintro _ ⟨⟩; decide) [1, 1] 1 (by simp) rfl
  · exact hunary (completeEvents?_crashingCall 0)

/-- A service that sends a message and then dies. -/
def spilling (message : StreamingOutputCallResponse) : Service
  | .streamingOutputCall => Plan.handler fun _ => [.step (.send message), .step .panic]
  | _ => .refuse ⟨.unimplemented, ""⟩

def spillingCall : Incoming := { crashingCall with path := Method.streamingOutputCall.path }

def spilledEvents (message : StreamingOutputCallResponse) : List (Event Bytes) :=
  [.headers .empty, .message message.write]

def spilledLink (message : StreamingOutputCallResponse) : Feed Empty StreamingOutputCallResponse where
  codec := .proto
  now := 0
  source := .ready (Exchange.events .grpc .proto (response (.forCall .grpc .proto true) (spilledEvents message))) true

section Spilled

variable {message : StreamingOutputCallResponse}

theorem interrupted_spilling (h : message.write.length < Wire.wordBound) :
    Interrupted (spilling message) .proto (spilledEvents message) [(message, message.write)] where
  taken := ⟨spillingCall, 0, _, _, .take (.take (.step (.step (.step .start rfl) rfl) rfl) rfl) rfl⟩
  endless outcome trailers := by simp [spilledEvents]
  messages := rfl
  holds := by
    simp only [Exchange.Holds, List.mem_singleton, forall_eq]
    exact Codec.decode_write message.updates_write h

/-- A message whose length is declared to be nothing is read as an empty one. -/
theorem receiveAll_spilledLink (h : covered message.write = []) :
    (Call.opened (spilledLink message) none).receiveAll [0] = [.ok (some ({} : StreamingOutputCallResponse))] := by
  let received := response (.forCall .grpc .proto true) (spilledEvents message)
  have hcontent : (content received.body).1 = wrap messageFlags message.write ++ [] := rfl
  have hdecode : Codec.proto.decode (covered message.write) = .ok ({} : StreamingOutputCallResponse) := by
    rw [h]
    rfl
  obtain ⟨more, hmore⟩ := Exchange.exists_ofDrained_wrap hdecode received.failure (content received.body).2 []
  have hevents := @Exchange.events_of_open StreamingOutputCallResponse _ .grpc .proto received rfl rfl
  rw [hcontent, hmore] at hevents
  have hsource : (spilledLink message).source =
      .ready (.headers (.ofHeaders received.headers) :: .message {} :: more) true := by
    rw [spilledLink, hevents]
  obtain ⟨afterHeaders, hheaders, afterMessage, hmessage, -⟩ := Feed.gives hsource
  rw [Call.receiveAll, Call.receive_of_endless rfl, Call.listen_of_headers rfl rfl (hheaders _),
    Call.listen_of_message rfl rfl (hmessage _)]
  rfl

end Spilled

/-- A message of 2 ^ 32 bytes. -/
def overfull : StreamingOutputCallResponse := { payload := some { body := List.replicate 4294967284 0 } }

theorem length_overfull : overfull.write.length = lengthBound := by
  obtain ⟨body, hself, hbody⟩ : ∃ body : Bytes, overfull = { payload := some { body } } ∧ body.length = 4294967284 :=
    ⟨_, rfl, List.length_replicate⟩
  have hinner : (Payload.write { body }).length = 4294967290 := by
    have hfield : Payload.write { body } = Wire.bytesField 2 body := rfl
    have hfilled : body.isEmpty = false := by
      rw [List.isEmpty_eq_false_iff]
      rintro rfl
      cases hbody
    have hnumber : (Wire.writeVarint 4294967284).length = 5 := by decide +kernel
    rw [hfield, Wire.bytesField, hfilled, if_neg Bool.false_ne_true, Wire.length_delimitedField (by decide), hbody,
      hnumber]
  have houter : overfull.write = Wire.delimitedField 1 (Payload.write { body }) := by
    rw [hself]
    rfl
  have hnumber : (Wire.writeVarint 4294967290).length = 5 := by decide +kernel
  rw [houter, Wire.length_delimitedField (by decide), hinner, hnumber]
  rfl

/-- Such a message is declared to be empty, so over gRPC the client gets one that was never sent. -/
theorem interrupted_misread :
    Interrupted (spilling overfull) .proto (spilledEvents overfull) [(overfull, overfull.write)] ∧
      (Call.opened (spilledLink overfull) none).receiveAll [0] = [.ok (some ({} : StreamingOutputCallResponse))] ∧
      ∀ status, ¬Link.Dies 0 status [overfull] (spilledLink overfull) := by
  have hcovered : covered overfull.write = [] := by
    rw [covered, length_overfull, Nat.mod_self, List.take_zero]
  have hreceived := receiveAll_spilledLink hcovered
  refine ⟨interrupted_spilling (length_overfull ▸ by decide), hreceived, fun status hdies => ?_⟩
  have hunbounded : ∀ time, (Call.opened (spilledLink overfull) none).deadline = some time → 0 < time := by
    intro time htime
    cases htime
  have htold := (hdies (Call.opened (spilledLink overfull) none) rfl rfl rfl).tells hunbounded [0] 0 (by simp) rfl
  have hsame := hreceived.symm.trans htold
  cases hsame

end Client
end RpcConformance
