import RpcConformance.Proofs.Client.Answered
import RpcConformance.Proofs.Timeout
import RpcConformance.Service.Reference
/-!
The metadata of a call on its way to a handler. Whatever fields a network adds under the names that HTTP owns
(`Forwarded`), the handler finds under every key the values that the caller set, in their order; only gRPC-Web puts a
value of its own before those of one key (`context_getAll`).
-/
namespace RpcConformance.Client

open Http

/-- Header fields as a network hands them on: it keeps what was sent, and behind that it may add values, all of them
under names that HTTP owns. -/
structure Forwarded (sent received : HeaderMap) : Prop where
  distinct : sent.Distinct → received.Distinct
  kept : ∀ name, sent.getAll name <+: received.getAll name
  added : ∀ name, name ∉ Metadata.reservedNames → received.getAll name = sent.getAll name

namespace Forwarded

variable {sent received : HeaderMap}

theorem refl (sent : HeaderMap) : Forwarded sent sent := ⟨id, fun _ => List.prefix_refl _, fun _ _ => rfl⟩

theorem append (h : Forwarded sent received) {name : String} (hname : name ∈ Metadata.reservedNames) (value : Bytes) :
    Forwarded sent (received.append name value) where
  distinct hsent := (h.distinct hsent).append name value
  kept key := by
    by_cases hkey : name = key
    · subst hkey
      rw [HeaderMap.getAll_append_self]
      exact (h.kept name).trans (List.prefix_append _ _)
    · rw [HeaderMap.getAll_append_of_ne _ hkey]
      exact h.kept key
  added key hkey := by
    have hne : name ≠ key := by
      rintro rfl
      exact hkey hname
    rw [HeaderMap.getAll_append_of_ne _ hne]
    exact h.added key hkey

theorem get?_eq_some (h : Forwarded sent received) {name : String} {value : Bytes}
    (hvalue : sent.get? name = some value) : received.get? name = some value := by
  obtain ⟨more, hmore⟩ := h.kept name
  rw [HeaderMap.get?] at hvalue ⊢
  rw [← hmore, List.head?_append, hvalue, Option.some_or]

end Forwarded

namespace Remote

variable {remote : Remote} {streaming : Bool} {options : CallOptions} {sent received : HeaderMap}

/-- The fields of a request still ask for the same call when a network has handed them on. -/
theorem Asks.forwarded (h : remote.Asks streaming options sent) (hforwarded : Forwarded sent received) :
    remote.Asks streaming options received where
  distinct := hforwarded.distinct h.distinct
  contentType := hforwarded.get?_eq_some h.contentType
  timeout := by
    rw [hforwarded.added _ (by cases remote.protocol <;> decide)]
    exact h.timeout
  values key hkey := by
    have hfree : key ∉ Metadata.reservedNames := by
      intro hmem
      rw [Metadata.isReserved, List.contains_iff_mem.2 hmem, Bool.true_or] at hkey
      cases hkey
    rw [hforwarded.added key hfree]
    exact h.values key hkey

theorem getAll_marker (protocol : Protocol) (key : String) :
    (marker protocol).getAll key =
      if protocol = .grpcWeb ∧ Metadata.lowerCase key = "x-grpc-web" then [Bytes.ofString "1"] else [] := by
  cases protocol with
  | connect | grpc => rfl
  | grpcWeb =>
    have hentries : (marker .grpcWeb).entries = [("x-grpc-web", Bytes.ofString "1")] := by decide +kernel
    rw [Metadata.getAll_eq_under, hentries]
    by_cases hkey : Metadata.lowerCase key = "x-grpc-web"
    · rw [hkey, under_cons_self]
      rfl
    · rw [under_cons_of_ne (Ne.symm hkey), if_neg (fun h => hkey h.2)]
      rfl

/-- The request for a call, as any network hands it on, is routed to the call's method, and there the handler finds
under every key the values that the caller set. Over gRPC-Web, what marks the request stands before those of one key. -/
theorem context_getAll {method : Method} (haddress : remote.Addresses method.path)
    (hmetadata : options.metadata.Sendable) (streaming : Bool) :
    ∃ uri head, remote.head method.path streaming options = .ok (uri, head) ∧
      ∀ received, Forwarded head.headers received → ∀ (service : Service) (limit : Limit) (body : List Part) (now : Nat),
        ∃ call,
          Server.route limit { head with headers := received, body } =
            .call (.forCall remote.protocol remote.codec streaming) call ∧
          call.path = method.path ∧
          ∀ key, (service.dispatch call now).context.metadata.getAll key =
            (if remote.protocol = .grpcWeb ∧ Metadata.lowerCase key = "x-grpc-web" then [Bytes.ofString "1"] else []) ++
              options.metadata.getAll key := by
  obtain ⟨uri, huri, -, hpath⟩ := haddress
  obtain ⟨sent, hhead, hasks⟩ := remote.head_eq streaming huri hmetadata
  refine ⟨uri, _, hhead, fun received hforwarded service limit body now => ?_⟩
  have hreceived := hasks.forwarded hforwarded
  obtain ⟨timeout, htimeout⟩ := Timeout.ofHeaders_field hreceived.timeout
  refine ⟨_, Server.route_eq_call rfl hreceived.contentType htimeout, hpath, fun key => ?_⟩
  calc (Metadata.ofHeaders received).getAll key
      = ((marker remote.protocol).extend options.metadata).getAll key := (hreceived.sameValues hmetadata).getAll key
    _ = (marker remote.protocol).getAll key ++ options.metadata.getAll key := under_append _ _
    _ = _ := by rw [getAll_marker]

def overWeb : Remote :=
  { baseUrl := "http://localhost:8080", protocol := .grpcWeb, codec := .json
    network := Server.network Reference.service .standard 0 }

def fullOptions : CallOptions where
  timeout := some (.ofMillis 250)
  metadata := ⟨[("x-user", [0x61, 0xe9]), ("x-grpc-web", [0x32]), ("x-trace-bin", [0xff, 0x0d]), ("x-user", [])]⟩

theorem context_getAll_overWeb :
    ∃ uri head call, overWeb.head Method.fullDuplexCall.path true fullOptions = .ok (uri, head) ∧
      Server.route .standard
          { head with headers := head.headers.append "host" (Bytes.ofString "localhost"), body := [.pause 3] } =
        .call (.forCall .grpcWeb .json true) call ∧
      (Reference.service.dispatch call 7).context.metadata.getAll "X-User" = [[0x61, 0xe9], []] ∧
      (Reference.service.dispatch call 7).context.metadata.getAll "x-grpc-web" = [[0x31], [0x32]] ∧
      (Reference.service.dispatch call 7).context.metadata.getAll "x-trace-bin" = [[0xff, 0x0d]] := by
  have hsendable : fullOptions.metadata.Sendable := by decide +kernel
  have haddress : overWeb.Addresses Method.fullDuplexCall.path :=
    ⟨⟨some "http", "localhost:8080", Method.fullDuplexCall.path⟩, by decide +kernel, rfl, rfl⟩
  have hhost : "host" ∈ Metadata.reservedNames := by decide
  obtain ⟨uri, head, hhead, hrouted⟩ := context_getAll haddress hsendable true
  obtain ⟨call, hcall, -, hvalues⟩ :=
    hrouted _ ((Forwarded.refl _).append hhost _) Reference.service .standard [.pause 3] 7
  refine ⟨uri, head, call, hhead, hcall, ?_, ?_, ?_⟩
  all_goals
    rw [hvalues]
    decide +kernel

/-- A call without metadata: over gRPC-Web the handler finds some. -/
theorem context_of_nothing :
    ∃ uri head call, overWeb.head Method.unaryCall.path true {} = .ok (uri, head) ∧
      Server.route .standard { head with body := [] } = .call (.forCall .grpcWeb .json true) call ∧
      (Reference.service.dispatch call 0).context.metadata.getAll "x-grpc-web" = [[0x31]] ∧
      ({} : CallOptions).metadata.getAll "x-grpc-web" = [] := by
  refine ⟨_, _, _, rfl, rfl, ?_, rfl⟩
  decide +kernel

end Remote

end RpcConformance.Client
