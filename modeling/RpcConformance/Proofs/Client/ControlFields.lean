import RpcConformance.Proofs.Client.Head
import RpcConformance.Proofs.Server.Route
import RpcConformance.Proofs.Timeout
/-!
How a server reads a request whatever metadata its caller set. The fields of the protocol stand before the metadata, so
the content type is the transport's, and the timeout is that of the options where they set one; where they set none, the
server reads one from the metadata (`metadata_unheeded`).
-/
namespace RpcConformance.Client.Remote

open Http

def strayTimeout (metadata : Metadata) (protocol : Protocol) : Except Status (Option Duration) :=
  Timeout.ofHeaders (metadata.write .empty).1 protocol

theorem strayTimeout_of_sendable {metadata : Metadata} (h : metadata.Sendable) (protocol : Protocol) :
    strayTimeout metadata protocol = .ok none := by
  obtain ⟨written, hwrite, -, hvalues⟩ := Metadata.write_of_sendable h HeaderMap.distinct_empty
  have hreserved : Metadata.isReserved (Timeout.header protocol) = true := by cases protocol <;> decide
  have hnone : written.getAll (Timeout.header protocol) = [] := by
    rw [hvalues, h.under_reserved hreserved]
    rfl
  simp [strayTimeout, Timeout.ofHeaders, hwrite, HeaderMap.get?, hnone]

variable {remote : Remote} {path : String} {streaming : Bool} {options : CallOptions} {uri : Uri} {sent : Head}

theorem head_eq_ok (h : remote.head path streaming options = .ok (uri, sent)) :
    Uri.parse? (remote.baseUrl ++ path) = some uri ∧ sent.method = "POST" ∧ sent.path = uri.path ∧
      ∀ name, sent.headers.getAll name =
        (remote.controlFields streaming options.timeout).getAll name ++
          (options.metadata.write .empty).1.getAll name := by
  rw [head] at h
  split at h
  · cases h
  · rename_i target huri
    split at h
    · rename_i headers hwrite
      cases h
      have hvalues := (options.metadata.write_behind (remote.controlFields streaming options.timeout)).2
      rw [hwrite] at hvalues
      exact ⟨huri, rfl, rfl, hvalues⟩
    · cases h

theorem exists_head (huri : Uri.parse? (remote.baseUrl ++ path) = some uri)
    (hwrite : (options.metadata.write .empty).2 = .ok ()) :
    ∃ sent, remote.head path streaming options = .ok (uri, sent) := by
  have hsame := (options.metadata.write_behind (remote.controlFields streaming options.timeout)).1
  rw [head, huri]
  rcases hbehind : options.metadata.write (remote.controlFields streaming options.timeout) with ⟨headers, result⟩
  rw [hbehind, hwrite] at hsame
  obtain rfl : result = .ok () := hsame
  exact ⟨_, rfl⟩

theorem contentType?_of_head (h : remote.head path streaming options = .ok (uri, sent)) :
    Server.contentType? sent.headers = some (.forCall remote.protocol remote.codec streaming) := by
  obtain ⟨-, -, -, hvalues⟩ := head_eq_ok h
  have hfirst : sent.headers.get? Server.contentTypeField =
      some (Bytes.ofString (ContentType.forCall remote.protocol remote.codec streaming).render) := by
    rw [HeaderMap.get?, hvalues, Server.contentTypeField, getAll_contentType]
    rfl
  simp [Server.contentType?, hfirst, Server.asciiText?_render, ContentType.ofString?_render]

/-- The timeout that a server reads is the one in the options; only without one it is that of the metadata. -/
theorem timeout_of_head (h : remote.head path streaming options = .ok (uri, sent)) :
    Timeout.ofHeaders sent.headers remote.protocol =
      if options.timeout.isSome then Timeout.ofHeaders (remote.controlFields streaming options.timeout) remote.protocol
      else strayTimeout options.metadata remote.protocol := by
  obtain ⟨-, -, -, hvalues⟩ := head_eq_ok h
  have hfields := remote.getAll_timeout streaming options.timeout
  split
  · rename_i hset
    obtain ⟨span, hspan⟩ := Option.isSome_iff_exists.1 hset
    refine Timeout.ofHeaders_congr ?_
    rw [HeaderMap.get?, HeaderMap.get?, hvalues, hfields, hspan]
    rfl
  · rename_i hunset
    have hnone : options.timeout = none := by simpa using hunset
    refine Timeout.ofHeaders_congr ?_
    rw [HeaderMap.get?, HeaderMap.get?, hvalues, hfields, hnone]
    rfl

/-- Two requests that differ only in their metadata go to the same place in the same content type. A server reads the
same timeout from both just when the options set one or the metadata alone would be read as the same one, as it is where
all of it is free for callers to use; and then the server makes the same call of both, but for the metadata. -/
theorem metadata_unheeded {other : Metadata} {uri' : Uri} {sent' : Head}
    (h : remote.head path streaming options = .ok (uri, sent))
    (h' : remote.head path streaming (options.withMetadata other) = .ok (uri', sent')) :
    uri = uri' ∧
    Server.contentType? sent.headers = some (.forCall remote.protocol remote.codec streaming) ∧
    Server.contentType? sent'.headers = some (.forCall remote.protocol remote.codec streaming) ∧
    (Timeout.ofHeaders sent.headers remote.protocol = Timeout.ofHeaders sent'.headers remote.protocol ↔
      (options.timeout = none →
        strayTimeout options.metadata remote.protocol = strayTimeout other remote.protocol)) ∧
    (options.metadata.Sendable → other.Sendable →
      Timeout.ofHeaders sent.headers remote.protocol = Timeout.ofHeaders sent'.headers remote.protocol) ∧
    (Timeout.ofHeaders sent.headers remote.protocol = Timeout.ofHeaders sent'.headers remote.protocol →
      ∀ limit body, (Server.route limit { sent with body }).withoutMetadata =
        (Server.route limit { sent' with body }).withoutMetadata) := by
  obtain ⟨huri, hmethod, hpath, -⟩ := head_eq_ok h
  obtain ⟨huri', hmethod', hpath', -⟩ := head_eq_ok h'
  obtain rfl : uri = uri' := Option.some.inj (huri.symm.trans huri')
  have htype := contentType?_of_head h
  have htype' := contentType?_of_head h'
  have htimeouts : Timeout.ofHeaders sent.headers remote.protocol = Timeout.ofHeaders sent'.headers remote.protocol ↔
      (options.timeout = none →
        strayTimeout options.metadata remote.protocol = strayTimeout other remote.protocol) := by
    rw [timeout_of_head h, timeout_of_head h']
    cases htimeout : options.timeout <;> simp [CallOptions.withMetadata, htimeout]
  refine ⟨rfl, htype, htype', htimeouts, fun hfree hfree' => ?_, fun htimeout => ?_⟩
  · rw [htimeouts, strayTimeout_of_sendable hfree, strayTimeout_of_sendable hfree']
    exact fun _ => rfl
  · refine Server.route_congr (hmethod.trans hmethod'.symm) (hpath.trans hpath'.symm) (htype.trans htype'.symm) ?_
    intro contentType hcontent
    obtain rfl := Option.some.inj (htype.symm.trans hcontent)
    exact htimeout

def overGrpc : Remote :=
  { baseUrl := "http://localhost:8080", protocol := .grpc, codec := .proto, network := .down "no route" }

theorem overGrpc_uri : Uri.parse? (overGrpc.baseUrl ++ Method.emptyCall.path) =
    some ⟨some "http", "localhost:8080", Method.emptyCall.path⟩ := by decide +kernel

def strayMetadata : Metadata := ⟨[("grpc-timeout", Bytes.ofString "1n")]⟩

theorem strayMetadata_write : (strayMetadata.write .empty).2 = .ok () := rfl

theorem strayTimeout_strayMetadata : strayTimeout strayMetadata .grpc = .ok (some ⟨1⟩) := by
  have hfirst : (strayMetadata.write .empty).1.get? "grpc-timeout" = some (Bytes.ofString "1n") := by decide +kernel
  have htext : HeaderMap.asciiText? (Bytes.ofString "1n") = some "1n" := by decide +kernel
  have hread : Timeout.parseGrpc "1n" = .ok ⟨1⟩ := rfl
  simp only [strayTimeout, Timeout.ofHeaders, Timeout.header, hfirst, htext, hread]
  rfl

def boundedOptions : CallOptions := { timeout := some (.ofMillis 250) }

/-- Where the options set a timeout, that of the metadata does not count. -/
theorem metadata_unheeded_bounded :
    ∃ uri sent sent',
      overGrpc.head Method.emptyCall.path true boundedOptions = .ok (uri, sent) ∧
      overGrpc.head Method.emptyCall.path true (boundedOptions.withMetadata strayMetadata) = .ok (uri, sent') ∧
      Timeout.ofHeaders sent.headers .grpc = Timeout.ofHeaders sent'.headers .grpc ∧
      ∀ limit body, (Server.route limit { sent with body }).withoutMetadata =
        (Server.route limit { sent' with body }).withoutMetadata := by
  obtain ⟨sent, hsent⟩ := @exists_head overGrpc _ true boundedOptions _ overGrpc_uri rfl
  obtain ⟨sent', hsent'⟩ :=
    @exists_head overGrpc _ true (boundedOptions.withMetadata strayMetadata) _ overGrpc_uri strayMetadata_write
  obtain ⟨-, -, -, htimeout, -, hroute⟩ := metadata_unheeded hsent hsent'
  exact ⟨_, sent, sent', hsent, hsent', htimeout.2 nofun, hroute (htimeout.2 nofun)⟩

/-- Where they set none, it does: a server reads a timeout that nobody set. -/
theorem stray_timeout_heeded :
    ∃ uri sent sent',
      overGrpc.head Method.emptyCall.path true {} = .ok (uri, sent) ∧
      overGrpc.head Method.emptyCall.path true (CallOptions.withMetadata {} strayMetadata) = .ok (uri, sent') ∧
      Timeout.ofHeaders sent.headers .grpc = .ok none ∧ Timeout.ofHeaders sent'.headers .grpc = .ok (some ⟨1⟩) := by
  obtain ⟨sent, hsent⟩ := @exists_head overGrpc _ true {} _ overGrpc_uri rfl
  obtain ⟨sent', hsent'⟩ :=
    @exists_head overGrpc _ true (CallOptions.withMetadata {} strayMetadata) _ overGrpc_uri strayMetadata_write
  exact ⟨_, sent, sent', hsent, hsent', timeout_of_head hsent,
    (timeout_of_head hsent').trans strayTimeout_strayMetadata⟩

end RpcConformance.Client.Remote
