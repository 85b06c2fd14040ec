import RpcConformance.Proofs.Client.BreakOff
import RpcConformance.Proofs.Client.CleanEnd
import RpcConformance.Proofs.Client.ConnectUnary
import RpcConformance.Proofs.Client.Head
import RpcConformance.Proofs.Client.Unary
import RpcConformance.Proofs.Client.WebEnd
import RpcConformance.Proofs.Server.Response
import RpcConformance.Proofs.Server.Route
/-!
A service over HTTP that answers the only request of a call: in every protocol the client gets the message of the
answer and metadata with its values (`unary_answering`).
-/
namespace RpcConformance.Client

open Http Envelope Server

/-- What a service answers with, as far as responses can carry it: the metadata can be sent, also behind the mark of
trailers, and nothing that gRPC-Web puts on a line has blanks at its ends. -/
structure Carriable {Res : Type} (response : RpcConformance.Response Res) : Prop where
  headers : response.headers.Sendable
  trailers : response.trailers.Sendable
  short : ∀ entry ∈ response.trailers.entries, Metadata.isShort entry.1 = true
  tight : ∀ entry ∈ response.trailers.entries, Metadata.isBinaryKey entry.1 = false → Trailers.Tight entry.2

def answerEvents {Res : Type} (response : RpcConformance.Response Res) (body : Bytes) : List (Event Bytes) :=
  [.headers response.headers, .message body, .ended (.ok ()) response.trailers]

structure Matches {Res : Type} (answer response : RpcConformance.Response Res) : Prop where
  message : response.message = answer.message
  headers : response.headers.SameValues answer.headers
  trailers : response.trailers.SameValues answer.trailers

/-- Whether the end of a response fits what it travels in: over gRPC-Web its fields are a block in a frame, whose length
is told in 32 bits. -/
def EndFits (protocol : Protocol) (trailers : Metadata) : Prop :=
  protocol = .grpcWeb → (Trailers.encodeBlock (Trailers.ofEnd (.ok ()) trailers)).length < lengthBound

/-- A response with headers whose last event is a bad end is read as its messages and that failure. -/
theorem Exchange.fails_of_last {Res : Type} [Message Res] {protocol : Protocol} {codec : Codec}
    {sent : List (Res × Bytes)} (hholds : Holds codec sent)
    (hlengths : ∀ body ∈ sent.map Prod.snd, body.length < lengthBound) {contentType : String} {headers : Metadata}
    (hheaders : headers.Sendable) {outcome : Outcome} {trailers read : Metadata} {rest : Bytes}
    {fields : Option HeaderMap} {status : Status}
    (hcontent : content [endFrame protocol (outcome, trailers)] = (rest, fields))
    (hlast : Last Res protocol codec none rest fields (.ended (.error status) read)) {received : Http.Response}
    (hcarried : Carried ⟨200, responseHeaders .empty contentType headers,
      responseFrames protocol ((sent.map Prod.snd).map .message ++ [.ended outcome trailers]), none⟩ received) :
    Event.Fails status (sent.map Prod.fst) (events protocol codec received) := by
  have hopen : endOfHeaders? protocol received.headers = none := by
    rw [hcarried.headers, endOfHeaders?, readStatus?_responseHeaders contentType hheaders, ite_self]
  have hbody : content received.body = ((sent.map Prod.snd).flatMap (wrap messageFlags) ++ rest, fields) := by
    rw [hcarried.content, responseFrames_messages, content_data, hcontent, List.flatMap_def]
  have hevents := @events_of_open Res _ protocol codec received hcarried.status hopen
  rw [hbody, hcarried.failure, ofDrained_of_last hholds hlengths hlast] at hevents
  rw [hevents]
  exact (Event.fails_messages (sent.map Prod.fst) status read).headers _

section Responses

variable {Res : Type} [Message Res] {codec : Codec} {response : RpcConformance.Response Res} {body : Bytes}
  (hcarriable : Carriable response) (hmessage : codec.decode body = .ok response.message)

/-- A response over gRPC-Web whose last frame is declared to be empty does not say how its call ended. -/
theorem fails_of_uncovered (contentType : ContentType) (hprotocol : contentType.protocol = .grpcWeb)
    (hheaders : response.headers.Sendable) (hmessage : codec.decode body = .ok response.message)
    (hlength : body.length < lengthBound)
    (hblock : covered (Trailers.encodeBlock (Trailers.ofEnd (.ok ()) response.trailers)) = []) :
    Event.Fails Exchange.withoutStatus [response.message] (Exchange.events .grpcWeb codec
      (streamingResponse contentType (answerEvents response body))) := by
  obtain ⟨protocol, format, enveloped⟩ := contentType
  obtain rfl : protocol = .grpcWeb := hprotocol
  generalize hself : Trailers.encodeBlock (Trailers.ofEnd (.ok ()) response.trailers) = block at hblock
  have hempty : isCompressed (⟨trailerFlags, []⟩ : Envelope).flags = false := rfl
  have hends : (Exchange.ofEnvelope .grpcWeb codec ⟨trailerFlags, []⟩ : Event Res) =
      .ended (.error Exchange.withoutStatus) (.ofHeaders .empty) := rfl
  have hcontent : content [endFrame .grpcWeb (.ok (), response.trailers)] =
      ((⟨trailerFlags, []⟩ : Envelope).toBytes ++ block.drop (block.length % lengthBound), none) := by
    rw [toBytes, ← hblock, ← wrap_eq_covered, ← hself]
    simp [content, endFrame]
  have hholds : Exchange.Holds codec [(response.message, body)] := by simpa [Exchange.Holds] using hmessage
  exact Exchange.fails_of_last hholds (by simpa using hlength) hheaders hcontent
    (.envelope _ none hempty (by decide) hends) (Carried.refl rfl)

include hcarriable hmessage

theorem connectResult_answer (contentType : ContentType) :
    ∃ result, Remote.connectResult codec (unaryResponse contentType (answerEvents response body)) = .ok result ∧
      Matches response result := by
  obtain ⟨result, hresult, hsame, hheaders, htrailers⟩ := @Remote.connectResult_ok _ _ _ contentType _ _ _
    hcarriable.headers hcarriable.trailers _ _ hmessage (Carried.refl rfl)
  rw [Metadata.shortPart_eq_self_iff.2 hcarriable.short] at htrailers
  exact ⟨result, hresult, hsame, hheaders, htrailers⟩

variable (codec body) in
omit hmessage in
/-- The end of such a response tells the good end of the call and its trailers. -/
theorem closing_answer {protocol : Protocol} (hprotocol : protocol ≠ .connect)
    (hend : EndFits protocol response.trailers) :
    ∃ rest fields trailers, trailers.SameValues response.trailers ∧
      Exchange.Closing Res protocol codec trailers rest fields ∧
      content (responseFrames protocol ([body].map .message ++ [.ended (.ok ()) response.trailers])) =
        (wrap messageFlags body ++ rest, fields) := by
  have htellable : Trailers.Tellable (.ok ()) := nofun
  rw [responseFrames_messages, content_data]
  cases protocol with
  | connect => exact absurd rfl hprotocol
  | grpc =>
    obtain ⟨trailers, hread, hsame⟩ := @Exchange.endOfTrailers_ofEnd Res _ htellable _ hcarriable.trailers
    exact ⟨[], some _, trailers, hsame, .trailers rfl hread, by simp [content, endFrame]⟩
  | grpcWeb =>
    obtain ⟨trailers, hread, hsame⟩ :=
      @Exchange.ofEnvelope_ofEnd Res _ codec _ htellable _ hcarriable.trailers hcarriable.tight
    exact ⟨_, none, trailers, hsame, .envelope [] none (hend rfl) hread, by simp [content, endFrame, toBytes]⟩

theorem events_answer (contentType : ContentType) (hprotocol : contentType.protocol ≠ .connect)
    (hlength : body.length < lengthBound) (hend : EndFits contentType.protocol response.trailers) :
    ∃ result, Matches response result ∧
      Exchange.events contentType.protocol codec (streamingResponse contentType (answerEvents response body)) =
        [.headers result.headers, .message result.message, .ended (.ok ()) result.trailers] := by
  obtain ⟨rest, fields, trailers, htrailers, hclosing, hcontent⟩ :=
    closing_answer codec body hcarriable hprotocol hend
  have hopen : Exchange.endOfHeaders? contentType.protocol
      (responseHeaders .empty contentType.render response.headers) = none := by
    rw [Exchange.endOfHeaders?, readStatus?_responseHeaders contentType.render hcarriable.headers, ite_self]
  have hevents := @Exchange.events_of_open Res _ contentType.protocol codec
    (streamingResponse contentType (answerEvents response body)) rfl hopen
  have hbody : content (streamingResponse contentType (answerEvents response body)).body =
      (([(response.message, body)].map Prod.snd).flatMap (wrap messageFlags) ++ rest, fields) := by
    rw [List.map_singleton, List.flatMap_singleton, ← hcontent]
    rfl
  rw [hbody, Exchange.ofDrained_of_closing _ (by simpa [Exchange.Holds] using hmessage) (by simpa using hlength)
    hclosing] at hevents
  exact ⟨⟨response.message, _, trailers⟩,
    ⟨rfl, sameValues_responseHeaders contentType.render hcarriable.headers, htrailers⟩, hevents⟩

end Responses

namespace Remote

/-- A path under the address of a server is a full address of just that path. -/
def Addresses (remote : Remote) (path : String) : Prop :=
  ∃ uri, Uri.parse? (remote.baseUrl ++ path) = some uri ∧ uri.scheme.isNone = false ∧ uri.path = path

/-- Whether the only request of a call is posted in an envelope and answered with a response. -/
def Replied (remote : Remote) (path : String) {Req : Type} [Message Req] (request : Req) (options : CallOptions)
    (received : Http.Response) : Prop :=
  ∃ bytes uri head respond, remote.codec.encode request = .ok bytes ∧ remote.head path true options = .ok (uri, head) ∧
    remote.reach uri head = .ok respond ∧ respond [.data (wrap messageFlags bytes)] = some received

/-- A call of such a server takes the request, and then the events of the response are there. -/
theorem exists_taken {Req : Type} (Res : Type) [Message Req] [Message Res] {remote : Remote} {path : String}
    {request : Req} {options : CallOptions} {received : Http.Response}
    (h : remote.Replied path request options received) (now : Nat) :
    ∃ taken : Feed Req Res,
      (∀ time, Link.send (remote.start path Req Res options now) request time = (.accepted, taken)) ∧
        Link.closeSend taken = { taken with
          inbound := .gone, source := .ready (Exchange.events remote.protocol remote.codec received) true } ∧
        taken.now = now := by
  obtain ⟨bytes, uri, head, respond, hbytes, hhead, hreach, hrespond⟩ := h
  let opened : Feed Req Res := remote.start path Req Res options now
  let taken : Feed Req Res := { opened with source := .reply [.ok bytes] (remote.answer respond) }
  have hsource : opened.source = .reply [] (remote.answer respond) := by
    simp only [opened, start, source, hhead, hreach]
  have hanswered : (remote.answer respond [.ok bytes] : List (Event Res) × Bool) =
      (Exchange.events remote.protocol remote.codec received, true) := by
    have henvelopes : envelopes [.ok bytes] = .ok [.data (wrap messageFlags bytes)] := rfl
    rw [Remote.answer, henvelopes]
    simp only [hrespond]
  refine ⟨taken, fun time => ?_, ?_, rfl⟩
  · show opened.send request time = _
    have hcodec : opened.codec = remote.codec := rfl
    rw [Feed.send, hcodec, hbytes, hsource]
    rfl
  · show taken.closeSend = _
    simp only [Feed.closeSend, taken, hanswered]

/-- A call with one request, to a server whose response fails, does not go well. -/
theorem unary_ne_ok {Req Res : Type} [Message Req] [Message Res] {remote : Remote} {path : String}
    {request : Req} {options : CallOptions} {received : Http.Response} (hprotocol : remote.protocol ≠ .connect)
    (h : remote.Replied path request options received) {status : Status} {messages : List Res}
    (hfails : Event.Fails status messages (Exchange.events remote.protocol remote.codec received)) (now limit : Nat)
    (response : RpcConformance.Response Res) : (remote.unary path request options now limit).1 ≠ .ok response := by
  obtain ⟨taken, hsend, hclosed, hnow⟩ := exists_taken Res h now
  have hleft : (Link.closeSend taken).source = .ready (Exchange.events remote.protocol remote.codec received) true ∧
      (Link.closeSend taken).now ≤ now := by
    rw [hclosed]
    exact ⟨rfl, Nat.le_of_eq hnow⟩
  intro hresponse
  cases htold : Context.isTold options.timeout now with
  | false =>
    rw [unary_of_untold hprotocol path request limit htold] at hresponse
    cases hresponse
  | true =>
    rw [unary_of_told hprotocol path request limit htold] at hresponse
    exact Call.unary_ne_ok (Feed.unfolds Req Res now) hsend hleft hfails (Prod.ext hresponse rfl)

section Answering

variable {Req Res : Type} [Message Req] [Message Res] {service : Service} {serverLimit : Limit} {horizon : Nat}
  {remote : Remote} {path : String} {answer : Context → Req → Except Status (RpcConformance.Response Res)}
  {request : Req} {bytes body : Bytes} {metadata : Metadata} {response : RpcConformance.Response Res}
  (hnetwork : remote.network = Server.network service serverLimit horizon) (haddress : remote.Addresses path)
  (hendpoint : service.endpoint path = ⟨Req, Res, Plan.handler (Plan.answering answer)⟩)
  (hrequest : remote.codec.decode bytes = .ok request) (hlimit : serverLimit.allows bytes.length = true)
  (hlength : remote.protocol ≠ .connect → bytes.length < lengthBound) (hmetadata : metadata.Sendable)
  (hanswer : ∀ read : Metadata, read.SameValues ((marker remote.protocol).extend metadata) →
    answer { metadata := read } request = .ok response)
  (hbody : remote.codec.encode response.message = .ok body)

include hnetwork haddress hendpoint hrequest hlimit hmetadata hanswer hbody

theorem exists_respond (streaming : Bool)
    (hlength : (ContentType.forCall remote.protocol remote.codec streaming).enveloped = true →
      bytes.length < lengthBound) :
    ∃ uri head respond, remote.head path streaming { metadata } = .ok (uri, head) ∧
      remote.reach uri head = .ok respond ∧
      respond [.data (if (ContentType.forCall remote.protocol remote.codec streaming).enveloped then
          wrap messageFlags bytes else bytes)] =
        some (Server.response (.forCall remote.protocol remote.codec streaming) (answerEvents response body)) := by
  obtain ⟨uri, huri, hscheme, hpath⟩ := haddress
  obtain ⟨headers, hhead, hasks⟩ := @head_eq remote streaming path uri huri { metadata } hmetadata
  have hreach : remote.reach uri ⟨"POST", uri.path, headers⟩ = .ok fun parts =>
      respond? service serverLimit { method := "POST", path := uri.path, headers, body := parts } horizon := by
    rw [reach, hscheme, hnetwork]
    rfl
  refine ⟨uri, _, _, hhead, hreach, ?_⟩
  rw [hpath]
  exact respond?_answering { method := "POST", path, headers, body := _ } hendpoint rfl hasks.contentType
    hasks.timeout (inbound_eq hlimit hlength) hrequest (hanswer _ (hasks.sameValues hmetadata)) hbody horizon

variable (hbytes : remote.codec.encode request = .ok bytes)
  (hmessage : remote.codec.decode body = .ok response.message)

include hbytes hmessage

omit hmessage in
theorem replied_answering (hlength : bytes.length < lengthBound) :
    remote.Replied path request { metadata }
      (streamingResponse (.forCall remote.protocol remote.codec true) (answerEvents response body)) := by
  have henveloped : (ContentType.forCall remote.protocol remote.codec true).enveloped = true := Bool.or_true _
  obtain ⟨uri, head, respond, hhead, hreach, hrespond⟩ :=
    exists_respond hnetwork haddress hendpoint hrequest hlimit hmetadata hanswer hbody true fun _ => hlength
  simp only [henveloped, Server.response, if_true] at hrespond
  exact ⟨bytes, uri, head, respond, hbytes, hhead, hreach, hrespond⟩

/-- Where the last frame over gRPC-Web is declared to be empty, the client does not get the answer. -/
theorem unary_ne_ok_of_uncovered (hprotocol : remote.protocol = .grpcWeb) (hheaders : response.headers.Sendable)
    (hlength : bytes.length < lengthBound) (hbodyLength : body.length < lengthBound)
    (hblock : covered (Trailers.encodeBlock (Trailers.ofEnd (.ok ()) response.trailers)) = []) (now limit : Nat)
    (result : RpcConformance.Response Res) : (remote.unary path request { metadata } now limit).1 ≠ .ok result := by
  have hconnect : remote.protocol ≠ .connect := by
    rw [hprotocol]
    decide
  have hreplied :=
    replied_answering hnetwork haddress hendpoint hrequest hlimit hmetadata hanswer hbody hbytes hlength
  have hfails := fails_of_uncovered (.forCall remote.protocol remote.codec true) hprotocol hheaders hmessage hbodyLength
    hblock
  rw [← hprotocol] at hfails
  exact unary_ne_ok hconnect hreplied hfails now limit result

variable (hcarriable : Carriable response)

include hcarriable

theorem connectUnary_answering (hprotocol : remote.protocol = .connect) (now limit : Nat) :
    ∃ result, (remote.connectUnary path request { metadata } now limit).1 = .ok result ∧ Matches response result := by
  have hbare : (ContentType.forCall remote.protocol remote.codec false).enveloped = false := by
    rw [hprotocol]
    rfl
  obtain ⟨uri, head, respond, hhead, hreach, hrespond⟩ :=
    exists_respond hnetwork haddress hendpoint hrequest hlimit hmetadata hanswer hbody false
      (fun h => absurd (hbare.symm.trans h) Bool.false_ne_true)
  obtain ⟨result, hresult, hmatches⟩ :=
    connectResult_answer hcarriable hmessage (.forCall remote.protocol remote.codec false)
  simp only [hbare, Server.response, Bool.false_eq_true, if_false] at hrespond
  have hanswered : remote.Answered path request { metadata } _ :=
    ⟨bytes, uri, head, respond, hbytes, hhead, hreach, hrespond⟩
  refine ⟨result, ?_, hmatches⟩
  rw [connectUnary_eq hanswered, hresult]
  rfl

/-- Over the protocols that put every message into an envelope the client gets the answer. -/
theorem feed_answering (hprotocol : remote.protocol ≠ .connect) (hlength : bytes.length < lengthBound)
    (hbodyLength : body.length < lengthBound) (hend : EndFits remote.protocol response.trailers) (now limit : Nat) :
    ∃ result, (({ link := remote.start path Req Res { metadata } now } : Call (Feed Req Res)).unary request
      limit).1 = .ok result ∧ Matches response result := by
  have hreplied :=
    replied_answering hnetwork haddress hendpoint hrequest hlimit hmetadata hanswer hbody hbytes hlength
  obtain ⟨result, hmatches, hevents⟩ :=
    events_answer hcarriable hmessage (.forCall remote.protocol remote.codec true) hprotocol hbodyLength hend
  obtain ⟨taken, hsend, hclosed, -⟩ := exists_taken Res hreplied now
  have hsource : (Link.closeSend taken).source =
      .ready [.headers result.headers, .message result.message, .ended (.ok ()) result.trailers] true := by
    rw [hclosed, ← hevents]
    rfl
  exact ⟨result, Call.unary_of_gives hsend (Feed.gives hsource) limit, hmatches⟩

/-- A call with one request to a service that answers it: the client gets the message of the answer, and metadata
with the same values. -/
theorem unary_answering (hlength : remote.protocol ≠ .connect → bytes.length < lengthBound)
    (hbodyLength : body.length < lengthBound) (hend : EndFits remote.protocol response.trailers) (now limit : Nat) :
    ∃ result, (remote.unary path request { metadata } now limit).1 = .ok result ∧ Matches response result := by
  by_cases hprotocol : remote.protocol = .connect
  · obtain ⟨result, hresult, hmatches⟩ := connectUnary_answering hnetwork haddress hendpoint hrequest hlimit hmetadata
      hanswer hbody hbytes hmessage hcarriable hprotocol now limit
    exact ⟨result, by rw [unary, hprotocol]; exact hresult, hmatches⟩
  · obtain ⟨result, hresult, hmatches⟩ := feed_answering hnetwork haddress hendpoint hrequest hlimit hmetadata
      hanswer hbody hbytes hmessage hcarriable hprotocol (hlength hprotocol) hbodyLength hend now limit
    refine ⟨result, ?_, hmatches⟩
    rw [unary]
    split
    · rename_i hconnect
      exact absurd hconnect hprotocol
    · exact hresult
    · exact hresult

end Answering

end Remote

end RpcConformance.Client
