import RpcConformance.Client.Remote
import RpcConformance.Proofs.Client.CleanEnd
import RpcConformance.Proofs.Client.Shown
import RpcConformance.Proofs.Metadata.Reserved
/-!
The metadata of responses that a client shows its caller. What is read from header fields has no key that a protocol
owns, before a body and after it. Only the document at the end of a Connect stream can bring such a key
(`reserved_only_from_endOfStream`), and there it is shown (`reserved_from_endOfStream`).
-/
namespace RpcConformance

theorem Metadata.gathered_unreserved : Gathered Unreserved := ⟨unreserved_empty, Unreserved.extend⟩

namespace Client

namespace EndStream

def objectMembers : List Json → List (Bytes × Json)
  | [.object members] => members
  | _ => []

def metadataMembers : Json → List (Bytes × Json)
  | .object members => objectMembers (Status.fieldsNamed "metadata" members)
  | .array (_ :: metadata) => objectMembers metadata
  | _ => []

def keys (document : Bytes) : List String :=
  match Json.parse? document with
  | some json => Metadata.keysOf (metadataMembers json)
  | none => []

theorem metadata_of_metadata? {json : Json} {metadata : Metadata} (h : metadata? json = some metadata) :
    metadata = .ofJsonMembers (objectMembers [json]) := by
  unfold metadata? at h
  split at h
  · split at h
    · cases h
      rfl
    · cases h
  · cases h

def metadataOf? : List Json → Option Metadata
  | [] => some .empty
  | [json] => metadata? json
  | _ => none

theorem metadataOf?_of_ofFields? {errors metadata : List Json} {ending : EndStream}
    (h : ofFields? errors metadata = some ending) : metadataOf? metadata = some ending.metadata := by
  match errors, metadata with
  | [], [] | [_], [] | [], [_] | [_], [_] | [], _ :: _ :: _ | [_], _ :: _ :: _ | _ :: _ :: _, _ =>
    simp [ofFields?, Option.bind_eq_some_iff] at h <;> grind [metadataOf?]

theorem metadata_of_ofFields? {errors metadata : List Json} {ending : EndStream}
    (h : ofFields? errors metadata = some ending) : ending.metadata = .ofJsonMembers (objectMembers metadata) := by
  have hread := metadataOf?_of_ofFields? h
  match metadata, hread with
  | [], hread => exact (Option.some.inj hread).symm
  | [json], hread => exact metadata_of_metadata? hread

theorem metadata_of_ofJson? {json : Json} {ending : EndStream} (h : ofJson? json = some ending) :
    ending.metadata = .ofJsonMembers (metadataMembers json) := by
  unfold ofJson? at h
  split at h
  · split at h
    · exact metadata_of_ofFields? h
    · cases h
  · exact metadata_of_ofFields? h
  · exact metadata_of_ofFields? h
  · cases h

/-- The metadata at the end of a stream has keys that the document spells. -/
theorem key_mem_keys {document : Bytes} {ending : EndStream} (h : parse? document = some ending)
    {entry : String × Bytes} (hentry : entry ∈ ending.metadata.entries) : entry.1 ∈ keys document := by
  obtain ⟨json, hjson, hread⟩ := Option.bind_eq_some_iff.1 h
  rw [metadata_of_ofJson? hread] at hentry
  rw [keys, hjson]
  exact Metadata.key_mem_keysOf hentry

end EndStream

namespace Exchange

open Http Envelope

variable {Res : Type}

/-- The names of the fields of a response stand in lower case, before its body and after it. -/
structure Named (response : Http.Response) : Prop where
  headers : response.headers.Lower
  trailers : ∀ fields, (content response.body).2 = some fields → fields.Lower

def EndsWith (property : Metadata → Prop) (response : Http.Response) : Prop :=
  ∀ envelope ∈ (Decoder.drain ⟨.unlimited, (content response.body).1⟩).1, envelope.flags = endStreamFlags →
    ∀ ending, EndStream.parse? envelope.payload = some ending → property ending.metadata

/-- No end of a stream in the body of a response spells a key that a protocol owns. -/
def EndsFree (response : Http.Response) : Prop :=
  ∀ envelope ∈ (Decoder.drain ⟨.unlimited, (content response.body).1⟩).1, envelope.flags = endStreamFlags →
    ∀ key ∈ EndStream.keys envelope.payload, Metadata.isReserved key = false

theorem EndsFree.endsWith {response : Http.Response} (h : EndsFree response) :
    EndsWith Metadata.Unreserved response := fun envelope hmem hflags _ hending entry hentry =>
  h envelope hmem hflags entry.1 (EndStream.key_mem_keys hending hentry)

section Events

variable {trailers : Metadata → Prop} (hunreserved : ∀ metadata : Metadata, metadata.Unreserved → trailers metadata)

include hunreserved

theorem shows_failed (status : Status) : (failed status : Event Res).Shows Metadata.Unreserved trailers :=
  hunreserved _ Metadata.unreserved_empty

theorem shows_endOfTrailers {headers : HeaderMap} (h : headers.Lower) :
    (endOfTrailers headers : Event Res).Shows Metadata.Unreserved trailers :=
  hunreserved _ (Metadata.unreserved_ofHeaders h)

theorem shows_endOfBlock (block : Bytes) : (endOfBlock block : Event Res).Shows Metadata.Unreserved trailers := by
  rw [endOfBlock]
  split
  · rename_i hblock
    exact shows_endOfTrailers hunreserved (Trailers.lower_decodeBlock hblock)
  · exact shows_failed hunreserved _

theorem shows_endOfStream {document : Bytes}
    (h : ∀ ending, EndStream.parse? document = some ending → trailers ending.metadata) :
    (endOfStream document : Event Res).Shows Metadata.Unreserved trailers := by
  rw [endOfStream]
  split
  · rename_i ending hending
    exact h ending hending
  · exact shows_failed hunreserved _

theorem shows_endOfBody (decoder : Decoder) (failure : Option String) :
    (endOfBody decoder failure : Event Res).Shows Metadata.Unreserved trailers := by
  unfold endOfBody
  split <;> exact shows_failed hunreserved _

variable [Message Res]

/-- Only the end of a Connect stream can bring a key of a protocol. -/
theorem shows_ofEnvelope {protocol : Protocol} {codec : Codec} {envelope : Envelope}
    (h : protocol = .connect → envelope.flags = endStreamFlags →
      ∀ ending, EndStream.parse? envelope.payload = some ending → trailers ending.metadata) :
    (ofEnvelope protocol codec envelope : Event Res).Shows Metadata.Unreserved trailers := by
  rw [ofEnvelope]
  split
  · split
    · exact trivial
    · exact shows_failed hunreserved _
  · split
    · rename_i hstream
      exact shows_endOfStream hunreserved (h hstream.1 hstream.2)
    · split
      · exact shows_endOfBlock hunreserved _
      · exact shows_failed hunreserved _

omit hunreserved in
theorem mem_ofEnvelopes {protocol : Protocol} {codec : Codec} {envelopes : List Envelope} {event : Event Res}
    (h : event ∈ (ofEnvelopes protocol codec envelopes).1) :
    ∃ envelope ∈ envelopes, ofEnvelope protocol codec envelope = event := by
  induction envelopes with
  | nil => cases h
  | cons envelope envelopes ih =>
    rw [ofEnvelopes] at h
    split at h
    · rename_i hended
      rw [List.mem_singleton.1 h]
      exact ⟨envelope, List.mem_cons_self, hended⟩
    · rcases List.mem_cons.1 h with rfl | hrest
      · exact ⟨envelope, List.mem_cons_self, rfl⟩
      · obtain ⟨found, hfound, heq⟩ := ih hrest
        exact ⟨found, List.mem_cons_of_mem _ hfound, heq⟩

theorem shows_ofDrained {protocol : Protocol} {codec : Codec} {failure : Option String}
    {fields : Option HeaderMap} {drained : List Envelope × Option Envelope.Error × Decoder}
    (hfields : ∀ headers, fields = some headers → headers.Lower)
    (hends : protocol = .connect → ∀ envelope ∈ drained.1, envelope.flags = endStreamFlags →
      ∀ ending, EndStream.parse? envelope.payload = some ending → trailers ending.metadata) {event : Event Res}
    (h : event ∈ ofDrained protocol codec failure fields drained) : event.Shows Metadata.Unreserved trailers := by
  unfold ofDrained at h
  rcases List.mem_append.1 h with henvelope | hend
  · obtain ⟨envelope, hmem, rfl⟩ := mem_ofEnvelopes henvelope
    exact shows_ofEnvelope hunreserved fun hconnect => hends hconnect envelope hmem
  · split at hend
    · cases hend
    · split at hend
      · rw [List.mem_singleton.1 hend]
        exact shows_failed hunreserved _
      · split at hend
        · rename_i headers
          rw [List.mem_singleton.1 hend]
          exact shows_endOfTrailers hunreserved (hfields headers rfl)
        · rw [List.mem_singleton.1 hend]
          exact shows_endOfBody hunreserved _ _

/-- The events of a response bring no key of a protocol, except for those that the end of a Connect stream brings. -/
theorem shows_events {protocol : Protocol} {codec : Codec} {response : Http.Response} (hnamed : Named response)
    (hends : protocol = .connect → EndsWith trailers response) {event : Event Res}
    (h : event ∈ events protocol codec response) : event.Shows Metadata.Unreserved trailers := by
  have hheaders := Metadata.unreserved_ofHeaders hnamed.headers
  by_cases hstatus : response.status = 200
  · cases hopen : endOfHeaders? protocol response.headers with
    | some outcome =>
      rw [events_of_told codec hstatus hopen, List.mem_singleton] at h
      rw [h]
      exact hunreserved _ hheaders
    | none =>
      rw [events_of_open protocol codec hstatus hopen] at h
      rcases List.mem_cons.1 h with rfl | hbody
      · exact hheaders
      · exact shows_ofDrained hunreserved hnamed.trailers hends hbody
  · rw [events, if_pos hstatus, List.mem_singleton] at h
    rw [h]
    exact shows_failed hunreserved _

end Events

end Exchange

namespace Remote

def Responds (remote : Remote) (property : Http.Response → Prop) : Prop :=
  ∀ address head respond body response, remote.network address head = .ok respond → respond body = some response →
    property response

theorem exists_of_bind_eq_ok {ε α β : Type} {first : Except ε α} {next : α → Except ε β} {result : β}
    (h : first >>= next = .ok result) : ∃ value, first = .ok value ∧ next value = .ok result := by
  cases first with
  | error failure => cases h
  | ok value => exact ⟨value, rfl, h⟩

theorem network_of_reach {remote : Remote} {uri : Http.Uri} {head : Http.Head}
    {respond : List Http.Part → Option Http.Response} (h : remote.reach uri head = .ok respond) :
    remote.network uri.authority head = .ok respond := by
  rw [reach] at h
  split at h
  · cases h
  · exact h

section Streams

variable {Res : Type} [Message Res] {remote : Remote} {trailers : Metadata → Prop}
  (hunreserved : ∀ metadata : Metadata, metadata.Unreserved → trailers metadata)
  (hnamed : remote.Responds Exchange.Named)
  (hends : remote.protocol = .connect → remote.Responds (Exchange.EndsWith trailers))

include hunreserved hnamed hends

theorem shows_answer {address : String} {head : Http.Head} {respond : List Http.Part → Option Http.Response}
    (hrespond : remote.network address head = .ok respond) (messages : List (Except Status Bytes)) :
    ∀ event ∈ (remote.answer respond messages : List (Event Res) × Bool).1,
      event.Shows Metadata.Unreserved trailers := by
  intro event hevent
  unfold answer at hevent
  split at hevent
  · rw [List.mem_singleton.1 hevent]
    exact Exchange.shows_failed hunreserved _
  · split at hevent
    · rename_i response hresponse
      exact Exchange.shows_events hunreserved (hnamed _ _ _ _ _ hrespond hresponse)
        (fun hconnect => hends hconnect _ _ _ _ _ hrespond hresponse) hevent
    · cases hevent

theorem brings_source (path : String) (options : CallOptions) :
    (remote.source path options : Source Res).Brings (Event.Shows Metadata.Unreserved trailers) := by
  have hfailed (status : Status) : (Source.ready [Exchange.failed status] true : Source Res).Brings
      (Event.Shows Metadata.Unreserved trailers) := by
    intro event hevent
    rw [List.mem_singleton.1 hevent]
    exact Exchange.shows_failed hunreserved _
  unfold source
  split
  · exact hfailed _
  · split
    · exact hfailed _
    · rename_i hreach
      exact shows_answer hunreserved hnamed hends (network_of_reach hreach)

variable (Req Res : Type) [Message Req] [Message Res]

/-- The events of a call of a remote service are those of its response. -/
theorem brings_start (path : String) (options : CallOptions) (now : Nat) :
    Link.Brings (Event.Shows Metadata.Unreserved trailers) (remote.start path Req Res options now) :=
  Feed.brings (brings_source hunreserved hnamed hends path options)

/-- So are the headers and trailers that its calls show, after any operations and in a response. -/
theorem shows_afterAll (hempty : trailers .empty) (path : String) (options : CallOptions)
    (now : Nat) (deadline : Option Nat) (operations : List (Operation Req)) :
    let call : Call (Feed Req Res) := (Call.opened (remote.start path Req Res options now) deadline).afterAll operations
    call.Shows Metadata.Unreserved trailers ∧ ∀ limit response rest, call.closeAndReceive limit = (.ok response, rest) →
      response.headers.Unreserved ∧ trailers response.trailers := by
  intro call
  have hbrings := brings_start hunreserved hnamed hends Req Res path options now
  have hsound := Call.sound_opened (remote.start path Req Res options now) deadline
  have hshows : call.Shows Metadata.Unreserved trailers :=
    (Call.shows_opened _ _).afterAll Metadata.gathered_unreserved hbrings hsound operations
  exact ⟨hshows, fun limit response rest hresponse =>
    hshows.response Metadata.gathered_unreserved hbrings (hsound.afterAll operations) hempty hresponse⟩

end Streams

section Unary

variable {Req Res : Type} [Message Req] [Message Res] {remote : Remote} {path : String} {request : Req}
  {options : CallOptions} {now limit now' : Nat} {response : Response Res}

/-- The response to a unary Connect call has its metadata from header fields alone. -/
theorem unreserved_connectResult {codec : Codec} {received : Http.Response} (hnamed : Exchange.Named received)
    (h : connectResult codec received = .ok response) :
    response.headers.Unreserved ∧ response.trailers.Unreserved := by
  unfold connectResult at h
  simp only at h
  split at h
  · cases h
  · split at h
    · generalize (Codec.decode codec _ : Except Status Res) = decoded at h
      cases decoded with
      | error status => cases h
      | ok message =>
        cases h
        exact ⟨Metadata.unreserved_ofHeaders hnamed.headers, Metadata.unreserved_ofMarkedHeaders hnamed.headers _⟩
    · cases h

theorem connectResult_of_connectUnary?
    (h : remote.connectUnary? path request options = .ok (some response)) :
    ∃ address head respond body received, remote.network address head = .ok respond ∧
      respond body = some received ∧ connectResult remote.codec received = .ok response := by
  obtain ⟨body, -, hbody⟩ := exists_of_bind_eq_ok h
  obtain ⟨⟨uri, head⟩, -, hhead⟩ := exists_of_bind_eq_ok hbody
  simp only at hhead
  split at hhead
  · cases hhead
  · rename_i respond hreach
    split at hhead
    · rename_i received hreceived
      refine ⟨uri.authority, head, respond, _, received, network_of_reach hreach, hreceived, ?_⟩
      generalize (connectResult remote.codec received : Except Status (Response Res)) = result at hhead
      cases result with
      | error status => cases hhead
      | ok found =>
        cases hhead
        rfl
    · cases hhead

theorem connectUnary?_of_connectUnary
    (h : remote.connectUnary path request options now limit = (.ok response, now')) :
    remote.connectUnary? path request options = .ok (some response) := by
  unfold connectUnary at h
  split at h
  · rename_i hresponse
    cases h
    exact hresponse
  · cases h
  · repeat' split at h
    all_goals cases h

/-- A call with one request and one response shows no key of a protocol: where it runs over Connect, there is no
stream whose end could bring one. -/
theorem unreserved_unary (hnamed : remote.Responds Exchange.Named)
    (h : remote.unary path request options now limit = (.ok response, now')) :
    response.headers.Unreserved ∧ response.trailers.Unreserved := by
  by_cases hprotocol : remote.protocol = .connect
  · rw [unary, hprotocol] at h
    obtain ⟨address, head, respond, body, received, hrespond, hreceived, hresult⟩ :=
      connectResult_of_connectUnary? (connectUnary?_of_connectUnary h)
    exact unreserved_connectResult (hnamed _ _ _ _ _ hrespond hreceived) hresult
  · cases htold : Context.isTold options.timeout now with
    | false =>
      rw [unary_of_untold hprotocol path request limit htold] at h
      cases h
    | true =>
      have hresult := (unary_of_told hprotocol path request limit htold).symm.trans (congrArg Prod.fst h)
      exact (Call.shows_opened _ _).unary Metadata.gathered_unreserved
        (brings_start (fun _ => id) hnamed (absurd · hprotocol) Req Res path options now)
        (Call.sound_opened _ (Context.deadlineAfter options.timeout now)) Metadata.unreserved_empty
        (Prod.ext hresult rfl)

end Unary

end Remote

/-- Keys that a protocol owns do not come out of header fields, with a mark taken off their names or not. What is read
from an object has the keys of the object, whoever owns them. So a client shows no such key in the response of a call
with one request, nor among the headers of any call, nor among trailers unless the end of a Connect stream has it. -/
theorem reserved_only_from_endOfStream {Req Res : Type} [Message Req] [Message Res] {remote : Remote}
    (hnamed : remote.Responds Exchange.Named) (path : String) (options : CallOptions) (now : Nat) :
    (∀ headers : HeaderMap, headers.Lower →
      (Metadata.ofHeaders headers).Unreserved ∧ ∀ mark, (Metadata.ofMarkedHeaders headers mark).Unreserved) ∧
    (∀ members, ∀ entry ∈ (Metadata.ofJsonMembers members).entries, entry.1 ∈ Metadata.keysOf members) ∧
    (∀ (request : Req) (limit now' : Nat) (response : Response Res),
      Transport.unary remote path Req Res request options now limit = (.ok response, now') →
        response.headers.Unreserved ∧ response.trailers.Unreserved) ∧
    ∀ operations : List (Operation Req),
      let call := (Transport.openCall remote path Req Res options now).afterAll operations
      let free := remote.protocol = .connect → remote.Responds Exchange.EndsFree
      (∀ headers, call.headers = some headers → headers.Unreserved) ∧
      (∀ trailers, call.trailers = some trailers → free → trailers.Unreserved) ∧
      ∀ (limit : Nat) (response : Response Res) (rest : Transport.Call remote path Req Res),
        call.closeAndReceive limit = (.ok response, rest) →
          response.headers.Unreserved ∧ (free → response.trailers.Unreserved) := by
  refine ⟨fun headers hlower => ?_, fun members entry => Metadata.key_mem_keysOf,
    fun request limit now' response => Remote.unreserved_unary hnamed, fun operations => ?_⟩
  · exact ⟨Metadata.unreserved_ofHeaders hlower, Metadata.unreserved_ofMarkedHeaders hlower⟩
  intro call free
  -- Nothing is asked of the trailers, and then that they have no such key either.
  obtain ⟨hshows, hresponse⟩ := Remote.shows_afterAll (fun _ _ => trivial) hnamed
    (fun _ _ _ _ _ _ _ _ _ _ _ _ _ => trivial) Req Res trivial path options now
    (Context.deadlineAfter options.timeout now) operations
  have hfree (h : free) := Remote.shows_afterAll (fun _ => id) hnamed
    (fun hconnect _ _ _ _ _ hrespond hreceived => (h hconnect _ _ _ _ _ hrespond hreceived).endsWith)
    Req Res Metadata.unreserved_empty path options now (Context.deadlineAfter options.timeout now) operations
  exact ⟨hshows.headers, fun trailers htrailers h => (hfree h).1.trailers trailers htrailers,
    fun limit response rest h => ⟨(hresponse limit response rest h).1, fun hends => ((hfree hends).2 _ _ rest h).2⟩⟩

def replaying (response : Http.Response) : Remote where
  baseUrl := "http://localhost:8080"
  protocol := .connect
  codec := .proto
  network := fun _ _ => .ok fun _ => some response

theorem responds_replaying {property : Http.Response → Prop} {response : Http.Response} (h : property response) :
    (replaying response).Responds property := by
  rintro _ _ _ _ _ ⟨⟩ ⟨⟩
  exact h

def traceDocument : Bytes := Bytes.ofString "\x7b\"metadata\":\x7b\"X-Trace\":[\"a\"]\x7d\x7d"

def traced : Http.Response where
  status := 200
  headers := ⟨[("content-type", [Bytes.ofString "application/connect+proto"]), ("x-key", [[0x61], [0x62]])]⟩
  body := [.data (Envelope.wrap Envelope.endStreamFlags traceDocument)]

theorem named_traced : Exchange.Named traced := by
  constructor
  · unfold HeaderMap.Lower
    decide +kernel
  · nofun

theorem endsFree_traced : Exchange.EndsFree traced := by
  have hdrain : (Envelope.Decoder.drain ⟨.unlimited, (Http.content traced.body).1⟩).1 =
      [⟨Envelope.endStreamFlags, traceDocument⟩] := by decide +kernel
  intro envelope hmem _
  rw [hdrain, List.mem_singleton] at hmem
  rw [hmem]
  decide +kernel

theorem reserved_only_from_endOfStream_traced :
    Metadata.ofHeaders traced.headers = ⟨[("x-key", [0x61]), ("x-key", [0x62])]⟩ ∧
      (Metadata.ofHeaders traced.headers).Unreserved ∧ EndStream.keys traceDocument = ["x-trace"] ∧
      ∀ (operations : List (Operation Empty)) (trailers : Metadata),
        ((Transport.openCall (replaying traced) "/a" Empty Empty {} 0).afterAll operations).trailers = some trailers →
          trailers.Unreserved := by
  have hfree := responds_replaying endsFree_traced
  obtain ⟨hheaders, -, -, hcalls⟩ :=
    @reserved_only_from_endOfStream Empty Empty _ _ _ (responds_replaying named_traced) "/a" {} 0
  refine ⟨by decide +kernel, (hheaders traced.headers named_traced.headers).1, by decide +kernel, ?_⟩
  intro operations trailers htrailers
  exact (hcalls operations).2.1 trailers htrailers fun _ => hfree

def statusDocument : Bytes := Bytes.ofString "\x7b\"metadata\":\x7b\"GRPC-Status\":[\"0\"]\x7d\x7d"

/-- A key that a protocol owns is shown among the trailers of a call. -/
theorem reserved_from_endOfStream :
    (Metadata.ofJsonMembers [(Bytes.ofString "GRPC-Status", .array [.text "0"])]).entries = [("grpc-status", [0x30])] ∧
      (EndStream.parse? statusDocument).map EndStream.metadata = some ⟨[("grpc-status", [0x30])]⟩ ∧
      Metadata.isReserved "grpc-status" = true := by
  decide +kernel

end Client
end RpcConformance
