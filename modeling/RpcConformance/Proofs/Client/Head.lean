import RpcConformance.Client.Remote
import RpcConformance.Proofs.Metadata.Header
/-!
What a request over HTTP begins with: its content type, and among its fields the metadata of the call, to which
one protocol adds an entry of its own (`head_eq`, `Asks.sameValues`).
-/
namespace RpcConformance.Client.Remote

open Http

def marker : Protocol → Metadata
  | .connect | .grpc => .empty
  | .grpcWeb => .single "x-grpc-web" (Bytes.ofString "1")

theorem sendable_marker (protocol : Protocol) : (marker protocol).Sendable := by
  cases protocol with
  | connect | grpc => exact nofun
  | grpcWeb => exact Metadata.sendable_single ⟨by decide +kernel, by decide +kernel, fun _ => by decide +kernel⟩

variable (remote : Remote) (streaming : Bool)

theorem controlFields_none :
    remote.controlFields streaming none =
      (HeaderMap.empty.insert "content-type"
          (Bytes.ofString (ContentType.forCall remote.protocol remote.codec streaming).render)).insert
        (protocolField remote.protocol).1 (Bytes.ofString (protocolField remote.protocol).2) := rfl

theorem controlFields_some (span : Duration) :
    remote.controlFields streaming (some span) =
      (remote.controlFields streaming none).insert (Timeout.header remote.protocol)
        (Bytes.ofString (Timeout.field remote.protocol span).2) := by
  rw [controlFields, controlFields]
  cases remote.protocol <;> rfl

theorem distinct_controlFields (timeout : Option Duration) : (remote.controlFields streaming timeout).Distinct := by
  have hnone : (remote.controlFields streaming none).Distinct := (HeaderMap.distinct_empty.insert _ _).insert _ _
  cases timeout with
  | none => exact hnone
  | some span =>
    rw [controlFields_some]
    exact hnone.insert _ _

theorem getAll_controlFields {key : String} (hkey : Timeout.header remote.protocol ≠ key) (timeout : Option Duration) :
    (remote.controlFields streaming timeout).getAll key = (remote.controlFields streaming none).getAll key := by
  cases timeout with
  | none => rfl
  | some span => rw [controlFields_some, HeaderMap.getAll_insert_of_ne _ hkey]

theorem getAll_contentType (timeout : Option Duration) :
    (remote.controlFields streaming timeout).getAll "content-type" =
      [Bytes.ofString (ContentType.forCall remote.protocol remote.codec streaming).render] := by
  have hne : (protocolField remote.protocol).1 ≠ "content-type" := by
    cases remote.protocol <;> decide
  rw [remote.getAll_controlFields streaming (by cases remote.protocol <;> decide), controlFields_none,
    HeaderMap.getAll_insert_of_ne _ hne, HeaderMap.getAll_insert_self]

theorem getAll_controlFields_of_ne {key : String} (hcontent : "content-type" ≠ key)
    (hprotocol : (protocolField remote.protocol).1 ≠ key) : (remote.controlFields streaming none).getAll key = [] := by
  rw [controlFields_none, HeaderMap.getAll_insert_of_ne _ hprotocol, HeaderMap.getAll_insert_of_ne _ hcontent]
  rfl

theorem getAll_timeout (timeout : Option Duration) :
    (remote.controlFields streaming timeout).getAll (Timeout.header remote.protocol) =
      (timeout.map fun span => Bytes.ofString (Timeout.field remote.protocol span).2).toList := by
  cases timeout with
  | none =>
    exact remote.getAll_controlFields_of_ne streaming (by cases remote.protocol <;> decide)
      (by cases remote.protocol <;> decide)
  | some span =>
    rw [controlFields_some, HeaderMap.getAll_insert_self]
    rfl

/-- The fields besides metadata are read as nothing but the entry that marks the protocol. -/
theorem getAll_controlFields_of_free {key : String} (h : Metadata.isReserved key = false)
    (timeout : Option Duration) :
    (remote.controlFields streaming timeout).getAll key =
      (under key (marker remote.protocol).entries).map (Metadata.wire key) := by
  have hcontent : "content-type" ≠ key := by
    rintro rfl
    cases h
  have htimeout : Timeout.header remote.protocol ≠ key := by
    rintro rfl
    revert h
    cases remote.protocol <;> exact nofun
  rw [remote.getAll_controlFields streaming htimeout]
  by_cases hkey : (protocolField remote.protocol).1 = key
  · subst hkey
    rw [controlFields_none, HeaderMap.getAll_insert_self]
    revert h
    cases remote.protocol with
    | connect | grpc => exact nofun
    | grpcWeb => exact fun _ => rfl
  · rw [remote.getAll_controlFields_of_ne streaming hcontent hkey]
    revert hkey
    cases remote.protocol with
    | connect | grpc => exact fun _ => rfl
    | grpcWeb =>
      intro hkey
      have hnone : under key (marker .grpcWeb).entries = [] := under_cons_of_ne hkey _ _
      rw [hnone, List.map_nil]

/-- Header fields of a request for a call: what call it is, how long it may take, and under all other names the
metadata of the call after the entry that marks the protocol. -/
structure Asks (options : CallOptions) (headers : HeaderMap) : Prop where
  distinct : headers.Distinct
  contentType : headers.get? "content-type" =
    some (Bytes.ofString (ContentType.forCall remote.protocol remote.codec streaming).render)
  timeout : headers.getAll (Timeout.header remote.protocol) =
    (options.timeout.map fun span => Bytes.ofString (Timeout.field remote.protocol span).2).toList
  values : ∀ key, Metadata.isReserved key = false →
    headers.getAll key =
      (under key ((marker remote.protocol).extend options.metadata).entries).map (Metadata.wire key)

/-- Such fields are read as the metadata of the call and the entry that marks the protocol. -/
theorem Asks.sameValues {remote : Remote} {streaming : Bool} {options : CallOptions} {headers : HeaderMap}
    (h : remote.Asks streaming options headers) (hmetadata : options.metadata.Sendable) :
    (Metadata.ofHeaders headers).SameValues ((marker remote.protocol).extend options.metadata) := by
  refine Metadata.sameValues_ofHeaders (fun entry hentry => ?_) h.distinct h.values
  rcases List.mem_append.1 hentry with hentry | hentry
  · exact sendable_marker remote.protocol entry hentry
  · exact hmetadata entry hentry

/-- A request with metadata that can be sent is posted to where its path is under the address. -/
theorem head_eq {path : String} {uri : Uri} (huri : Uri.parse? (remote.baseUrl ++ path) = some uri)
    {options : CallOptions} (h : options.metadata.Sendable) :
    ∃ headers, remote.head path streaming options = .ok (uri, ⟨"POST", uri.path, headers⟩) ∧
      remote.Asks streaming options headers := by
  obtain ⟨headers, hwrite, hdistinct, hvalues⟩ :=
    Metadata.write_of_sendable h (remote.distinct_controlFields streaming options.timeout)
  have hreserved {key : String} (hkey : Metadata.isReserved key = true) :
      headers.getAll key = (remote.controlFields streaming options.timeout).getAll key := by
    rw [hvalues, h.under_reserved hkey]
    exact List.append_nil _
  have hhead : remote.head path streaming options = .ok (uri, ⟨"POST", uri.path, headers⟩) := by
    rw [head, huri]
    simp only [hwrite]
  refine ⟨headers, hhead, hdistinct, ?_, ?_, fun key hkey => ?_⟩
  · rw [HeaderMap.get?, hreserved (by decide), getAll_contentType]
    rfl
  · rw [hreserved (by cases remote.protocol <;> decide), getAll_timeout]
  · rw [hvalues, remote.getAll_controlFields_of_free streaming hkey, Metadata.extend, under_append, List.map_append]

end RpcConformance.Client.Remote
