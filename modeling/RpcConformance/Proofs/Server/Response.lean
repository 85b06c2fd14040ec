import RpcConformance.Proofs.Http.Content
import RpcConformance.Proofs.Trailers
import RpcConformance.Server.Response
/-!
What a response in envelopes brings: its metadata among the headers, beside the content type
(`responseHeaders_spec`), and in the body its messages and the end of the call (`responseFrames_messages`).
-/
namespace RpcConformance.Server

open Http Envelope

/-- The headers of a response hold the fields they were made from and metadata that can be sent. -/
theorem responseHeaders_spec {headers : HeaderMap} (hdistinct : headers.Distinct) (contentType : String)
    {metadata : Metadata} (h : metadata.Sendable) :
    (responseHeaders headers contentType metadata).Distinct ∧ ∀ key, key ≠ contentTypeField →
      (responseHeaders headers contentType metadata).getAll key =
        headers.getAll key ++ (under key metadata.entries).map (Metadata.wire key) := by
  obtain ⟨written, hwrite, hwritten, hvalues⟩ :=
    Metadata.write_of_sendable h (hdistinct.insert contentTypeField (Bytes.ofString contentType))
  have hself : responseHeaders headers contentType metadata = written := by
    rw [responseHeaders, hwrite]
  rw [hself]
  refine ⟨hwritten, fun key hkey => ?_⟩
  rw [hvalues, HeaderMap.getAll_insert_of_ne _ hkey.symm]

theorem ne_contentTypeField {key : String} (h : Metadata.isReserved key = false) : key ≠ contentTypeField := by
  rintro rfl
  cases h

theorem sameValues_responseHeaders (contentType : String) {metadata : Metadata} (h : metadata.Sendable) :
    (Metadata.ofHeaders (responseHeaders .empty contentType metadata)).SameValues metadata := by
  obtain ⟨hdistinct, hvalues⟩ := responseHeaders_spec HeaderMap.distinct_empty contentType h
  exact Metadata.sameValues_ofHeaders h hdistinct fun key hkey => hvalues key (ne_contentTypeField hkey)

theorem readStatus?_responseHeaders (contentType : String) {metadata : Metadata} (h : metadata.Sendable) :
    Trailers.readStatus? (responseHeaders .empty contentType metadata) = none := by
  obtain ⟨-, hvalues⟩ := responseHeaders_spec HeaderMap.distinct_empty contentType h
  apply Trailers.readStatus?_eq_none
  rw [hvalues _ (by decide), h.under_reserved (by decide)]
  rfl

theorem responseFrames_messages (protocol : Protocol) (bodies : List Bytes) (outcome : Outcome)
    (trailers : Metadata) :
    responseFrames protocol (bodies.map .message ++ [.ended outcome trailers]) =
      (bodies.map (wrap messageFlags)).map .data ++ [endFrame protocol (outcome, trailers)] := by
  induction bodies with
  | nil => rfl
  | cons body bodies ih =>
    rw [List.map_cons, List.cons_append, responseFrames, ih]
    rfl

theorem content_connect (bodies : List Bytes) (outcome : Outcome) (trailers : Metadata) :
    content (responseFrames .connect (bodies.map .message ++ [.ended outcome trailers])) =
      (bodies.flatMap (wrap messageFlags) ++ wrap endStreamFlags (endStreamMessage (outcome, trailers)).render,
        none) := by
  rw [responseFrames_messages, content_data, endFrame, content, List.flatMap_def]
  simp only [content, List.append_nil]

theorem content_grpc (bodies : List Bytes) (outcome : Outcome) (trailers : Metadata) :
    content (responseFrames .grpc (bodies.map .message ++ [.ended outcome trailers])) =
      (bodies.flatMap (wrap messageFlags) ++ [], some (Trailers.ofEnd outcome trailers)) := by
  rw [responseFrames_messages, content_data, endFrame, content, List.flatMap_def]

end RpcConformance.Server
