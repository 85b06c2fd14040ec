import RpcConformance.Http.Message
/-!
What a response body brings, however it is cut into frames (`content`), and what it is for a response
to arrive as it was sent (`Carried`).
-/
namespace RpcConformance.Http

def content : List Frame → Bytes × Option HeaderMap
  | [] => ([], none)
  | .data bytes :: frames => (bytes ++ (content frames).1, (content frames).2)
  | .trailers headers :: _ => ([], some headers)

theorem content_data (chunks : List Bytes) (frames : List Frame) :
    content (chunks.map .data ++ frames) = (chunks.flatten ++ (content frames).1, (content frames).2) := by
  induction chunks with
  | nil => rfl
  | cons chunk chunks ih => rw [List.map_cons, List.cons_append, content, ih, List.flatten_cons, List.append_assoc]

/-- A response that arrives as it was sent; only the frames of its body may be cut differently. -/
structure Carried (sent received : Response) : Prop where
  status : received.status = sent.status
  headers : received.headers = sent.headers
  content : content received.body = content sent.body
  failure : received.failure = none

theorem Carried.refl {sent : Response} (h : sent.failure = none) : Carried sent sent := ⟨rfl, rfl, rfl, h⟩

/-- Responses that differ at most in how the bytes of their bodies are cut into frames. -/
structure Recut (response other : Response) : Prop where
  status : other.status = response.status
  headers : other.headers = response.headers
  content : content other.body = content response.body
  failure : other.failure = response.failure

theorem recut_chunks (response : Response) {chunks chunks' : List Bytes} (h : chunks.flatten = chunks'.flatten)
    (more : List Frame) :
    Recut { response with body := chunks.map .data ++ more } { response with body := chunks'.map .data ++ more } :=
  ⟨rfl, rfl, by simp only [content_data, h], rfl⟩

end RpcConformance.Http
