import RpcConformance.Proofs.Handler.Script
/-!
Plans that read all requests before they answer. Nothing is to be seen of them while requests come (`script_gather`);
the first that cannot be read ends the call, whatever was kept (`script_gather_error`), and the end of the requests
brings the answer to all of them (`script_gather_end`).
-/
namespace RpcConformance.Plan

variable {Req Res : Type} [Message Req]

def readOne (codec : Codec) (item : Except Status Bytes) : Except Status Req := item.bind codec.decode

def readAll (codec : Codec) (items : List (Except Status Bytes)) : Except Status (List Req) :=
  items.mapM (readOne codec)

section Reading

variable {codec : Codec} {item : Except Status Bytes} {items : List (Except Status Bytes)} {status : Status}

theorem readAll_of_read {request : Req} (h : readOne codec item = .ok request) :
    readAll codec (item :: items) = (readAll codec items).map (request :: ·) := by
  rw [readAll, List.mapM_cons, h]
  show (readAll codec items).bind _ = _
  cases (readAll codec items : Except Status (List Req)) <;> rfl

theorem readAll_of_unreadable (h : readOne codec item = (.error status : Except Status Req)) :
    readAll codec (item :: items) = (.error status : Except Status (List Req)) := by
  rw [readAll, List.mapM_cons, h]
  rfl

theorem readAll_cons_ok {requests : List Req} (h : readAll codec (item :: items) = .ok requests) :
    ∃ request others, readOne codec item = .ok request ∧ readAll codec items = .ok others ∧
      requests = request :: others := by
  cases hitem : (readOne codec item : Except Status Req) with
  | error status =>
    rw [readAll_of_unreadable hitem] at h
    cases h
  | ok request =>
    rw [readAll_of_read hitem] at h
    cases hrest : (readAll codec items : Except Status (List Req)) with
    | error status =>
      rw [hrest] at h
      cases h
    | ok others =>
      rw [hrest] at h
      cases h
      exact ⟨request, others, rfl, rfl, rfl⟩

theorem readAll_cons_error (h : readAll codec (item :: items) = (.error status : Except Status (List Req))) :
    readOne codec item = (.error status : Except Status Req) ∨
      ∃ request : Req, readOne codec item = .ok request ∧
        readAll codec items = (.error status : Except Status (List Req)) := by
  cases hitem : (readOne codec item : Except Status Req) with
  | error found =>
    rw [readAll_of_unreadable hitem] at h
    cases h
    exact .inl rfl
  | ok request =>
    rw [readAll_of_read hitem] at h
    cases hrest : (readAll codec items : Except Status (List Req)) with
    | error found =>
      rw [hrest] at h
      cases h
      exact .inr ⟨request, rfl, rfl⟩
    | ok others =>
      rw [hrest] at h
      cases h

theorem readAll_replicate {request : Req} (h : readOne codec item = .ok request) (n : Nat) :
    readAll codec (List.replicate n item) = .ok (List.replicate n request) := by
  induction n with
  | zero => rfl
  | succ n ih =>
    rw [List.replicate_succ, readAll_of_read h, ih]
    rfl

end Reading

section Gather

variable [Message Res] {plan : Context → Plan Req Res} {codec : Codec} {answer : List Req → List (Step Res)}
  {rest : Plan Req Res} {items : List (Except Status Bytes)}

theorem script_gather {requests : List Req} (hread : readAll codec items = .ok requests) (kept : List Req)
    (sent : Bool) (heard : List Reading) :
    script plan codec sent false (.going [] (.gather kept answer :: rest)) (items.map .item ++ heard) =
      script plan codec sent false (.going [] (.gather (kept ++ requests) answer :: rest)) heard := by
  induction items generalizing requests kept with
  | nil =>
    obtain rfl : requests = [] := (Except.ok.inj hread).symm
    rw [List.append_nil]
    rfl
  | cons item items ih =>
    obtain ⟨request, others, hitem, hothers, rfl⟩ := readAll_cons_ok hread
    -- the hypothesis is about what is kept by then, as the request joins the others at the end
    have hkept := ih hothers (kept ++ [request])
    rw [List.append_assoc, List.singleton_append] at hkept
    rw [List.map_cons, List.cons_append, script_of_read rfl hitem]
    exact hkept

theorem script_gather_error {status : Status}
    (hread : readAll codec items = (.error status : Except Status (List Req))) (kept : List Req) (sent : Bool)
    (heard : List Reading) :
    script plan codec sent false (.going [] (.gather kept answer :: rest)) (items.map .item ++ heard) =
      [.returned (.error status)] := by
  induction items generalizing kept with
  | nil => cases hread
  | cons item items ih =>
    rw [List.map_cons, List.cons_append]
    rcases readAll_cons_error hread with hitem | ⟨request, hitem, hothers⟩
    · exact script_of_unreadable rfl hitem
    · rw [script_of_read rfl hitem]
      exact ih hothers (kept ++ [request])

theorem script_gather_end (kept : List Req) (sent : Bool) (heard : List Reading) :
    script plan codec sent false (.going [] (.gather kept answer :: rest)) (.ended :: heard) =
      script plan codec sent true (.going (answer kept) rest) heard :=
  script_of_end rfl

end Gather

end RpcConformance.Plan
