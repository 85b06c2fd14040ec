import RpcConformance.Proofs.Envelope.Framing
import RpcConformance.Proofs.Session.Answering
import RpcConformance.Proofs.Timeout.Grammar
import RpcConformance.Server.Router
/-!
A request that a client wrote is routed as the call it was made for (`route_eq_call`), its body holding the message
that was sent (`inbound_eq`), and a method that answers its only request is responded to with that answer
(`respond?_answering`). Nothing else among its fields counts but as metadata (`route_congr`).
-/
namespace RpcConformance.Server

open Http Envelope

/-- A body of one message is that message, if it is not too large for the receiver and, in an envelope, its length
can be told. -/
theorem inbound_eq {enveloped : Bool} {limit : Limit} {message : Bytes} (hlimit : limit.allows message.length = true)
    (hlength : enveloped = true → message.length < lengthBound) :
    inbound enveloped limit [.data (if enveloped then wrap messageFlags message else message)] =
      .ofItems [.ok message] := by
  cases enveloped with
  | false => simp [inbound, wholeBody, hlimit, Inbound.ofItems]
  | true =>
    have hcompressed : isCompressed messageFlags = false := rfl
    have hnext := Decoder.next_wrap_of_lt hcompressed (hlength rfl) hlimit []
    have hempty : Decoder.drain ⟨limit, []⟩ = ([], none, ⟨limit, []⟩) := Decoder.drain_of_none rfl
    rw [List.append_nil] at hnext
    have hdrain : (Decoder.push (.start limit) (wrap messageFlags message)).drain =
        ([⟨messageFlags, message⟩], none, ⟨limit, []⟩) := by
      rw [Decoder.start, Decoder.push, List.nil_append, Decoder.drain_of_some hnext, hempty]
    simp only [inbound, if_true, envelopedMessages, hdrain]
    rfl

theorem asciiText?_render (contentType : ContentType) :
    HeaderMap.asciiText? (Bytes.ofString contentType.render) = some contentType.render := by
  obtain ⟨protocol, codec, enveloped⟩ := contentType
  cases protocol <;> cases codec <;> cases enveloped <;> decide +kernel

/-- Posted fields that name a content type and ask for a timeout that is understood begin a call in it. -/
theorem route_eq_call {limit : Limit} {request : Request} (hmethod : request.method = "POST") {protocol : Protocol}
    {codec : Codec} {streaming : Bool}
    (htype : request.headers.get? contentTypeField =
      some (Bytes.ofString (ContentType.forCall protocol codec streaming).render))
    {timeout : Option Duration} (htimeout : Timeout.ofHeaders request.headers protocol = .ok timeout) :
    route limit request =
      .call (.forCall protocol codec streaming)
        { path := request.path, codec, metadata := .ofHeaders request.headers, timeout
          inbound := inbound (ContentType.forCall protocol codec streaming).enveloped limit request.body } := by
  have hread : contentType? request.headers = some (.forCall protocol codec streaming) := by
    rw [contentType?, htype]
    simp [asciiText?_render, ContentType.ofString?_render]
  have hprotocol : (ContentType.forCall protocol codec streaming).protocol = protocol := rfl
  rw [route, if_neg (fun h => h hmethod), hread]
  simp only [hprotocol, htimeout]
  rfl

/-- A call that came in a request has a deadline that the clock can tell, so its task does not die over it. -/
theorem respond?_of_call (service : Service) {limit : Limit} {request : Request} {contentType : ContentType}
    {call : Incoming} (hroute : route limit request = .call contentType call) (horizon : Nat) :
    respond? service limit request horizon =
      ((service.dispatch call 0).completeEvents? horizon).map (response contentType) := by
  have htold : Context.isTold call.timeout 0 = true := by
    unfold route at hroute
    split at hroute
    · cases hroute
    · split at hroute
      · cases hroute
      · split at hroute
        · cases hroute
        · rename_i htimeout
          cases hroute
          exact Timeout.isTold_of_ofHeaders htimeout
  rw [respond?, hroute, ← Service.serve_of_told service htold]

/-- A request as it was routed, but for the metadata of its call. -/
def Routed.withoutMetadata : Routed → Routed
  | refused response => refused response
  | call contentType incoming => call contentType { incoming with metadata := .empty }

/-- Requests to one path that name the same content type and ask for the same timeout are routed alike. -/
theorem route_congr {head other : Head} (hmethod : head.method = other.method) (hpath : head.path = other.path)
    (htype : contentType? head.headers = contentType? other.headers)
    (htimeout : ∀ contentType, contentType? head.headers = some contentType →
      Timeout.ofHeaders head.headers contentType.protocol = Timeout.ofHeaders other.headers contentType.protocol)
    (limit : Limit) (body : List Part) :
    (route limit { head with body }).withoutMetadata = (route limit { other with body }).withoutMetadata := by
  simp only [route, hmethod, ← htype]
  split
  · rfl
  · split
    · rfl
    · rename_i contentType hcontent
      rw [← htimeout contentType hcontent]
      split
      · rfl
      · simp [Routed.withoutMetadata, hpath]

/-- The response to a request for a method that answers its only request: that answer, as the protocol lays it
out. -/
theorem respond?_answering {service : Service} (request : Request) {Req Res : Type} [Message Req] [Message Res]
    {answer : Context → Req → Except Status (RpcConformance.Response Res)}
    (hendpoint : service.endpoint request.path = ⟨Req, Res, Plan.handler (Plan.answering answer)⟩)
    (hmethod : request.method = "POST") {protocol : Protocol} {codec : Codec} {streaming : Bool}
    (htype : request.headers.get? contentTypeField =
      some (Bytes.ofString (ContentType.forCall protocol codec streaming).render))
    (htimeout : request.headers.getAll (Timeout.header protocol) = []) {limit : Limit} {message body : Bytes}
    (hinbound : inbound (ContentType.forCall protocol codec streaming).enveloped limit request.body =
      .ofItems [.ok message])
    {question : Req} {response : RpcConformance.Response Res} (hquestion : codec.decode message = .ok question)
    (hanswer : answer { metadata := .ofHeaders request.headers } question = .ok response)
    (hbody : codec.encode response.message = .ok body) (horizon : Nat) :
    respond? service limit request horizon =
      some (Server.response (.forCall protocol codec streaming)
        [.headers response.headers, .message body, .ended (.ok ()) response.trailers]) := by
  let call : Incoming :=
    { path := request.path, codec, metadata := .ofHeaders request.headers, timeout := none
      inbound := .ofItems [.ok message] }
  have hnone : Timeout.ofHeaders request.headers protocol = .ok none := by
    rw [Timeout.ofHeaders, HeaderMap.get?, htimeout]
    rfl
  have hevents := (Service.dispatch_answering call hendpoint 0 rfl hquestion hanswer hbody).2
  have hroute : route limit request = _ := route_eq_call hmethod htype hnone
  rw [hinbound] at hroute
  rw [respond?_of_call service hroute]
  exact congrArg (Option.map (Server.response (.forCall protocol codec streaming))) (hevents horizon)

end RpcConformance.Server
