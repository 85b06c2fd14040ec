import RpcConformance.Proofs.Client.Answered
import RpcConformance.Proofs.Message.Codec
import RpcConformance.Service.Reference
/-!
What the reference service echoes. A unary call that asks for success gets a payload of the size it asks for, and both
entries of its metadata that are echoed, over every transport, in every protocol and format (`unaryCall_echoes`).
-/
namespace RpcConformance.Reference

open Client Envelope Wire

/-- A request that is granted: it asks for a payload of type 0 whose size is not negative and for no failure, and a
payload that comes with it is of type 0 as well. -/
structure Granted (request : SimpleRequest) : Prop where
  type : request.responseType = 0
  size : 0 ≤ request.responseSize
  status : ∀ status, request.responseStatus = some status → status.code = 0
  payload : ∀ payload, request.payload = some payload → payload.type = 0

def grantedBody (request : SimpleRequest) : Bytes := List.replicate request.responseSize.toInt.toNat 0

/-- The answer to a granted request with both entries. -/
def granted (request : SimpleRequest) (initial trailing : Bytes) : Response SimpleResponse where
  message := { payload := some { body := grantedBody request } }
  headers := .single echoInitialKey initial
  trailers := .single echoTrailingKey trailing

def echoes (initial trailing : Bytes) : Metadata :=
  .ofList [(echoInitialKey, initial), (echoTrailingKey, trailing)]

/-- A call that brought the payload its request asks for, and both values that were sent, each as the only one under
its key. -/
def Echoed (request : SimpleRequest) (initial trailing : Bytes) (result : Except Halt (Response SimpleResponse)) :
    Prop :=
  ∃ response, result = .ok response ∧
    response.message.payload = some { type := 0, body := List.replicate request.responseSize.toInt.toNat 0 } ∧
    response.headers.getAll echoInitialKey = [initial] ∧ response.trailers.getAll echoTrailingKey = [trailing]

theorem name_echoInitialKey : HeaderMap.name? (Bytes.ofString echoInitialKey) = some echoInitialKey := by
  decide +kernel

theorem name_echoTrailingKey : HeaderMap.name? (Bytes.ofString echoTrailingKey) = some echoTrailingKey := by
  decide +kernel

theorem isReserved_echoInitialKey : Metadata.isReserved echoInitialKey = false := by decide +kernel

theorem isReserved_echoTrailingKey : Metadata.isReserved echoTrailingKey = false := by decide +kernel

theorem isBinaryKey_echoTrailingKey : Metadata.isBinaryKey echoTrailingKey = true := by decide +kernel

theorem isShort_echoTrailingKey : Metadata.isShort echoTrailingKey = true := by decide +kernel

theorem writable_initial {initial : Bytes} (h : HeaderMap.isValue initial = true) :
    Metadata.Writable (echoInitialKey, initial) where
  name := name_echoInitialKey
  free := isReserved_echoInitialKey
  value _ := h

/-- Any bytes can be sent under the key for trailers, which is a binary one. -/
theorem writable_trailing (trailing : Bytes) : Metadata.Writable (echoTrailingKey, trailing) where
  name := name_echoTrailingKey
  free := isReserved_echoTrailingKey
  value h := absurd (isBinaryKey_echoTrailingKey.symm.trans h) nofun

section Values

variable {request : SimpleRequest} {initial : Bytes} (trailing : Bytes)

theorem entries_echoes (initial trailing : Bytes) :
    (echoes initial trailing).entries = [(echoInitialKey, initial), (echoTrailingKey, trailing)] := by
  show [(Metadata.lowerCase echoInitialKey, initial), (Metadata.lowerCase echoTrailingKey, trailing)] = _
  rw [Metadata.lowerCase_of_name name_echoInitialKey, Metadata.lowerCase_of_name name_echoTrailingKey]

theorem sendable_echoes (h : HeaderMap.isValue initial = true) : (echoes initial trailing).Sendable := by
  intro entry hmem
  rw [entries_echoes, List.mem_pair] at hmem
  rcases hmem with rfl | rfl
  · exact writable_initial h
  · exact writable_trailing trailing

theorem mem_trailers_granted {trailing : Bytes} {entry : String × Bytes}
    (h : entry ∈ (granted request initial trailing).trailers.entries) : entry = (echoTrailingKey, trailing) := by
  have hentries : (granted request initial trailing).trailers.entries = [(echoTrailingKey, trailing)] :=
    Metadata.entries_single (writable_trailing trailing)
  rwa [hentries, List.mem_singleton] at h

theorem carriable_granted (h : HeaderMap.isValue initial = true) : Carriable (granted request initial trailing) where
  headers := Metadata.sendable_single (writable_initial h)
  trailers := Metadata.sendable_single (writable_trailing trailing)
  short := by
    intro entry hmem
    rw [mem_trailers_granted hmem]
    exact isShort_echoTrailingKey
  tight := by
    intro entry hmem hbinary
    rw [mem_trailers_granted hmem] at hbinary
    exact absurd (isBinaryKey_echoTrailingKey.symm.trans hbinary) nofun

end Values

section Calls

variable {request : SimpleRequest} (h : Granted request)

include h

theorem Granted.carries (codec : Codec) : codec.Carries request :=
  Codec.carries_of request.updates_write (SimpleRequest.spelled h.type h.payload) codec

theorem Granted.requested_eq : requested request.responseStatus = .ok () := requested_ok h.status

theorem Granted.zeros_eq :
    Payload.zeros request.responseType request.responseSize = .ok { body := grantedBody request } := by
  rw [Payload.zeros, if_neg (Int32.not_lt.2 h.size), if_pos h.type]
  rfl

/-- A granted request is answered with the payload it asks for and with the entries that it has. -/
theorem unaryCall_granted {context : Context} {initial trailing : Bytes}
    (hinitial : context.metadata.getAll echoInitialKey = [initial])
    (htrailing : context.metadata.getAll echoTrailingKey = [trailing]) :
    unaryCall context request = .ok (granted request initial trailing) := by
  have hecho {key : String} {value : Bytes} (hvalue : context.metadata.getAll key = [value]) :
      echo key context.metadata = .single key value := by
    rw [echo, Metadata.get?, hvalue]
    rfl
  rw [unaryCall, h.requested_eq, h.zeros_eq, hecho hinitial, hecho htrailing]
  rfl

end Calls

theorem carries_granted (request : SimpleRequest) (initial trailing : Bytes) (codec : Codec) :
    codec.Carries (granted request initial trailing).message := by
  refine Codec.carries_of (SimpleResponse.updates_write _) (SimpleResponse.spelled ?_) codec
  rintro payload ⟨⟩
  rfl

theorem length_grantedBody_lt (request : SimpleRequest) : (grantedBody request).length < 0x80000000 := by
  rw [grantedBody, List.length_replicate]
  have := request.responseSize.toInt_lt
  omega

/-- What a server that is called in a protocol can take: a size within its limit, and one that an envelope can tell
where messages travel in envelopes. -/
def Receivable (limit : Limit) (protocol : Protocol) (size : Nat) : Prop :=
  limit.allows size = true ∧ size < if protocol = .connect then wordBound else lengthBound

theorem Receivable.lt_wordBound {limit : Limit} {protocol : Protocol} {size : Nat}
    (h : Receivable limit protocol size) : size < wordBound := by
  have hsize := h.2
  split at hsize
  · exact hsize
  · exact Nat.lt_trans hsize (by decide)

theorem Receivable.lt_lengthBound {limit : Limit} {protocol : Protocol} {size : Nat}
    (h : Receivable limit protocol size) (hprotocol : protocol ≠ .connect) : size < lengthBound := by
  have hsize := h.2
  rwa [if_neg hprotocol] at hsize

theorem receivable_standard {size : Nat} (h : size ≤ 4 * 1024 * 1024) (protocol : Protocol) :
    Receivable .standard protocol size := by
  refine ⟨decide_eq_true h, ?_⟩
  split <;> exact Nat.lt_of_le_of_lt h (by decide)

theorem encodeBlock_single (trailing : Bytes) :
    Trailers.encodeBlock (Trailers.ofEnd (.ok ()) (.single echoTrailingKey trailing)) =
      (Bytes.ofString Trailers.statusField ++ [0x3a, 0x20] ++ Bytes.ofString (Text.Decimal.render 0) ++
          [0x0d, 0x0a]) ++
        ((Bytes.ofString echoTrailingKey ++ [0x3a, 0x20] ++ Metadata.encodeBinary trailing ++ [0x0d, 0x0a]) ++
          []) := by
  have hwritten : Trailers.ofEnd (.ok ()) (.single echoTrailingKey trailing) =
      (Trailers.writeStatus .empty (.ok ())).append echoTrailingKey (Metadata.encodeBinary trailing) := by
    rw [Trailers.ofEnd, Trailers.ofOutcome, Metadata.write, Metadata.writeMarked,
      Metadata.entries_single (writable_trailing trailing), Metadata.writeEntries,
      Metadata.writeEntry_of_writable (writable_trailing trailing).markable_empty (writable_trailing trailing),
      Metadata.wire, isBinaryKey_echoTrailingKey]
    rfl
  rw [hwritten]
  rfl

theorem length_encodeBlock_single (trailing : Bytes) :
    (Trailers.encodeBlock (Trailers.ofEnd (.ok ()) (.single echoTrailingKey trailing))).length =
      (4 * trailing.length + 2) / 3 + 49 := by
  have hvalue : (Metadata.encodeBinary trailing).length = (4 * trailing.length + 2) / 3 :=
    Text.Base64.length_encode_plain trailing
  have hstatus : (Bytes.ofString Trailers.statusField).length = 11 := by decide +kernel
  have hnumber : (Bytes.ofString (Text.Decimal.render 0)).length = 1 := by decide +kernel
  have hkey : (Bytes.ofString echoTrailingKey).length = 29 := by decide +kernel
  rw [encodeBlock_single]
  simp only [List.length_append, List.length_cons, List.length_nil, hstatus, hnumber, hkey, hvalue]
  omega

/-- Below three gibibytes, what is sent under the key for trailers fits the frame at the end of a response. -/
theorem endFits_single {trailing : Bytes} (h : trailing.length < 0xbfffff00) (protocol : Protocol) :
    EndFits protocol (.single echoTrailingKey trailing) := by
  intro _
  rw [length_encodeBlock_single, lengthBound]
  omega

section Calls

variable {request : SimpleRequest} (h : Granted request) {initial : Bytes}
  (hinitial : HeaderMap.isValue initial = true) (trailing : Bytes) (now limit : Nat)

theorem getAll_of_sameValues {protocol : Protocol} {trailing : Bytes} {read : Metadata}
    (hread : read.SameValues ((Remote.marker protocol).extend (echoes initial trailing))) :
    read.getAll echoInitialKey = [initial] ∧ read.getAll echoTrailingKey = [trailing] := by
  have hunder {key : String} (hkey : "x-grpc-web" ≠ key) :
      under key read.entries = under key (echoes initial trailing).entries := by
    have hmarker : under key (Remote.marker protocol).entries = [] := by
      cases protocol with
      | connect | grpc => rfl
      | grpcWeb => exact under_cons_of_ne hkey _ _
    rw [hread, Metadata.extend, under_append, hmarker, List.nil_append]
  constructor
  · rw [Metadata.getAll_eq_under, Metadata.lowerCase_of_name name_echoInitialKey, hunder (by decide),
      entries_echoes, under_cons_self, under_cons_of_ne (by decide), under_nil]
  · rw [Metadata.getAll_eq_under, Metadata.lowerCase_of_name name_echoTrailingKey, hunder (by decide),
      entries_echoes, under_cons_of_ne (by decide), under_cons_self, under_nil]

theorem echoed_of_matches {trailing : Bytes} {result : Except Halt (Response SimpleResponse)}
    {response : Response SimpleResponse} (hresult : result = .ok response)
    (hmatches : Matches (granted request initial trailing) response) : Echoed request initial trailing result :=
  ⟨response, hresult, congrArg SimpleResponse.payload hmatches.message,
    (hmatches.headers.getAll _).trans (Metadata.getAll_single _ _),
    (hmatches.trailers.getAll _).trans (Metadata.getAll_single _ _)⟩

include h in
theorem inProcess_echoed {codec : Codec}
    (hlength : ∀ bytes, codec.encode request = .ok bytes → bytes.length < wordBound) :
    Echoed request initial trailing (Transport.callMethod (InProcess.mk service codec) .unaryCall request
      { metadata := echoes initial trailing } now limit).1 := by
  obtain ⟨bytes, hbytes, hdecode⟩ := h.carries codec
  obtain ⟨body, hbody, hmessage⟩ := carries_granted request initial trailing codec
  have hbodyLength := Codec.length_encode_lt (length_grantedBody_lt request) hbody
  obtain ⟨hfirst, hsecond⟩ := @getAll_of_sameValues initial .connect trailing _ fun _ => rfl
  let transport : InProcess := { service, codec }
  have hresponse : (transport.unary Method.unaryCall.path request { metadata := echoes initial trailing } now
      limit).1 = .ok (granted request initial trailing) :=
    InProcess.unary_answering (Service.endpoint_path _ .unaryCall) hbytes (hdecode (hlength bytes hbytes))
      (unaryCall_granted h hfirst hsecond) hbody (hmessage (Nat.lt_trans hbodyLength (by decide))) now limit
  exact echoed_of_matches hresponse ⟨rfl, fun _ => rfl, fun _ => rfl⟩

include h hinitial in
theorem remote_echoed {serverLimit : Limit} {horizon : Nat} {remote : Remote}
    (hnetwork : remote.network = Server.network service serverLimit horizon)
    (haddress : remote.Addresses Method.unaryCall.path)
    (hreceivable : ∀ bytes, remote.codec.encode request = .ok bytes →
      Receivable serverLimit remote.protocol bytes.length)
    (hend : EndFits remote.protocol (.single echoTrailingKey trailing)) :
    Echoed request initial trailing
      (Transport.callMethod remote .unaryCall request { metadata := echoes initial trailing } now limit).1 := by
  obtain ⟨bytes, hbytes, hdecode⟩ := h.carries remote.codec
  obtain ⟨body, hbody, hmessage⟩ := carries_granted request initial trailing remote.codec
  have hbodyLength := Codec.length_encode_lt (length_grantedBody_lt request) hbody
  have hreceived := hreceivable bytes hbytes
  obtain ⟨response, hresponse, hmatches⟩ :=
    Remote.unary_answering hnetwork haddress (Service.endpoint_path _ .unaryCall) (hdecode hreceived.lt_wordBound)
      hreceived.1 (sendable_echoes trailing hinitial)
      (fun read hread => unaryCall_granted h (getAll_of_sameValues hread).1 (getAll_of_sameValues hread).2) hbody
      hbytes (hmessage (Nat.lt_trans hbodyLength (by decide))) (carriable_granted trailing hinitial)
      hreceived.lt_lengthBound hbodyLength hend now limit
  exact echoed_of_matches hresponse hmatches

include h hinitial in
/-- Over gRPC-Web a call fails whose response ends in a frame that is declared to be empty. -/
theorem not_echoed_of_uncovered {serverLimit : Limit} {horizon : Nat} {remote : Remote}
    (hnetwork : remote.network = Server.network service serverLimit horizon)
    (haddress : remote.Addresses Method.unaryCall.path) (hprotocol : remote.protocol = .grpcWeb)
    (hreceivable : ∀ bytes, remote.codec.encode request = .ok bytes →
      Receivable serverLimit remote.protocol bytes.length)
    (hblock : covered (Trailers.encodeBlock (Trailers.ofEnd (.ok ()) (.single echoTrailingKey trailing))) = []) :
    ¬Echoed request initial trailing
      (Transport.callMethod remote .unaryCall request { metadata := echoes initial trailing } now limit).1 := by
  rintro ⟨result, hresult, -⟩
  obtain ⟨bytes, hbytes, hdecode⟩ := h.carries remote.codec
  obtain ⟨body, hbody, hmessage⟩ := carries_granted request initial trailing remote.codec
  have hbodyLength := Codec.length_encode_lt (length_grantedBody_lt request) hbody
  have hreceived := hreceivable bytes hbytes
  have hconnect : remote.protocol ≠ .connect := by
    rw [hprotocol]
    decide
  exact Remote.unary_ne_ok_of_uncovered hnetwork haddress (Service.endpoint_path _ .unaryCall)
    (hdecode hreceived.lt_wordBound) hreceived.1 (sendable_echoes trailing hinitial)
    (fun read hread => unaryCall_granted h (getAll_of_sameValues hread).1 (getAll_of_sameValues hread).2) hbody hbytes
    (hmessage (Nat.lt_trans hbodyLength (by decide))) hprotocol (Metadata.sendable_single (writable_initial hinitial))
    (hreceived.lt_lengthBound hconnect) hbodyLength hblock now limit result hresult

end Calls

/-- Whatever the values of the metadata that a granted unary call is made with, the caller gets the payload it asks
for, the value of the header that is echoed as the only one under its key, and the bytes of the trailer that is echoed
as the only ones under theirs: from a service in the same process as from one over HTTP in any protocol, in either
format. A request that is posted has to be one that the server can take, and over gRPC-Web the end of the response
has to fit a frame, as it does below three gibibytes (`endFits_single`). -/
theorem unaryCall_echoes {request : SimpleRequest} (h : Granted request) {initial : Bytes}
    (hinitial : HeaderMap.isValue initial = true) (trailing : Bytes) (codec : Codec) (now limit : Nat) :
    ((∀ bytes, codec.encode request = .ok bytes → bytes.length < wordBound) →
      Echoed request initial trailing (Transport.callMethod (InProcess.mk service codec) .unaryCall request
        { metadata := echoes initial trailing } now limit).1) ∧
    ∀ (baseUrl : String) (protocol : Protocol) (serverLimit : Limit) (horizon : Nat),
      Remote.Addresses ⟨baseUrl, protocol, codec, Server.network service serverLimit horizon⟩ Method.unaryCall.path →
      (∀ bytes, codec.encode request = .ok bytes → Receivable serverLimit protocol bytes.length) →
      EndFits protocol (.single echoTrailingKey trailing) →
      Echoed request initial trailing
        (Transport.callMethod (Remote.mk baseUrl protocol codec (Server.network service serverLimit horizon))
          .unaryCall request { metadata := echoes initial trailing } now limit).1 :=
  ⟨inProcess_echoed h trailing now limit, fun _ _ _ _ haddress hreceivable hend =>
    remote_echoed h hinitial trailing now limit rfl haddress hreceivable hend⟩

def fullRequest : SimpleRequest where
  responseSize := 3
  payload := some { body := [0xff, 0x00] }
  responseStatus := some { code := 0, message := "soirée" }

/-- A value that is not UTF-8, and bytes that look like blanks and the end of a line. -/
theorem unaryCall_echoes_awkward :
    Echoed fullRequest [0x61, 0xe9, 0x09] [0x20, 0x0d, 0x0a, 0xff]
      (Transport.callMethod (InProcess.mk service .json) .unaryCall fullRequest
        { metadata := echoes [0x61, 0xe9, 0x09] [0x20, 0x0d, 0x0a, 0xff] } 0 0).1 ∧
    Echoed fullRequest [0x61, 0xe9, 0x09] [0x20, 0x0d, 0x0a, 0xff]
      (Transport.callMethod (Remote.mk "http://localhost:8080" .grpcWeb .json (Server.network service .standard 0))
        .unaryCall fullRequest { metadata := echoes [0x61, 0xe9, 0x09] [0x20, 0x0d, 0x0a, 0xff] } 0 0).1 := by
  have hgranted : Granted fullRequest := ⟨rfl, by decide, by rintro status ⟨⟩; rfl, by rintro payload ⟨⟩; rfl⟩
  have hlength : ∀ bytes, Codec.json.encode fullRequest = .ok bytes → bytes.length ≤ 100 := by
    intro bytes hbytes
    have hspelled : Codec.json.encode fullRequest =
        .ok (Bytes.ofString ("\x7b\"responseSize\":3,\"payload\":\x7b\"body\":\"/wA=\"\x7d,"
          ++ "\"responseStatus\":\x7b\"message\":\"soirée\"\x7d\x7d")) := by
      decide +kernel
    rw [← Except.ok.inj (hspelled.symm.trans hbytes)]
    decide +kernel
  obtain ⟨hlocal, hposted⟩ :=
    @unaryCall_echoes fullRequest hgranted [0x61, 0xe9, 0x09] (by decide) [0x20, 0x0d, 0x0a, 0xff] .json 0 0
  refine ⟨hlocal fun bytes hbytes => Nat.lt_of_le_of_lt (hlength bytes hbytes) (by decide),
    hposted "http://localhost:8080" .grpcWeb .standard 0 ?_ (fun bytes hbytes => receivable_standard ?_ _)
      (endFits_single (by decide) _)⟩
  · exact ⟨⟨some "http", "localhost:8080", Method.unaryCall.path⟩, by decide +kernel, rfl, rfl⟩
  · exact Nat.le_trans (hlength bytes hbytes) (by decide)

/-- Bytes with which the block at the end of the response is 2 ^ 32 bytes long. -/
def bulky : Bytes := List.replicate 3221225435 0

/-- The block is declared to be empty, so the caller is not told that the call went well. -/
theorem bulky_not_echoed :
    let remote : Remote := ⟨"http://localhost:8080", .grpcWeb, .proto, Server.network service .standard 0⟩
    Granted {} ∧ HeaderMap.isValue [0x61] = true ∧ remote.Addresses Method.unaryCall.path ∧
      (∀ bytes, Codec.proto.encode ({} : SimpleRequest) = .ok bytes → Receivable .standard .grpcWeb bytes.length) ∧
      ¬Echoed {} [0x61] bulky
        (Transport.callMethod remote .unaryCall {} { metadata := echoes [0x61] bulky } 0 0).1 := by
  intro remote
  have hgranted : Granted {} := ⟨rfl, by decide, nofun, nofun⟩
  have haddress : remote.Addresses Method.unaryCall.path :=
    ⟨⟨some "http", "localhost:8080", Method.unaryCall.path⟩, by decide +kernel, rfl, rfl⟩
  have hreceivable : ∀ bytes, Codec.proto.encode ({} : SimpleRequest) = .ok bytes →
      Receivable .standard .grpcWeb bytes.length := by
    rintro _ ⟨⟩
    exact receivable_standard (by decide) _
  have hblock : covered (Trailers.encodeBlock (Trailers.ofEnd (.ok ()) (.single echoTrailingKey bulky))) = [] := by
    have hlength : bulky.length = 3221225435 := List.length_replicate
    rw [covered, length_encodeBlock_single, hlength]
    rfl
  exact ⟨hgranted, rfl, haddress, hreceivable,
    not_echoed_of_uncovered hgranted rfl bulky 0 0 rfl haddress rfl hreceivable hblock⟩

end RpcConformance.Reference
