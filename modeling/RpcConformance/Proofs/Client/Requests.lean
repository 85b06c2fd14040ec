import RpcConformance.Client.Feed
import RpcConformance.Proofs.Call.Inbound
import RpcConformance.Proofs.Client.Outcome
/-!
The requests of a call between its client and its transport, which takes them one by one while the client
goes on (`Traffic`). Whatever the order of their turns, the transport is given the requests that were
accepted, in order and each once; it is told of a cancellation as soon as there was one and reads a clean
end only of a call that was not given up (`reads_in_order`).
-/
namespace RpcConformance.Client

variable {Req Res : Type}

/-- A call, the requests its client was told are accepted, and what its transport was given. -/
structure Traffic (Req Res : Type) where
  call : Call (Feed Req Res)
  /-- The client has forgotten the call. -/
  dropped : Bool := false
  accepted : List Req := []
  reads : List Reading := []

/-- Something the client does, or the transport: it asks for a request, or brings more of the response. -/
inductive Turn (Req Res : Type)
  | act (operation : Operation Req)
  | drop
  | read
  | bring (events : List (Event Res)) (complete : Bool)

namespace Traffic

def opened (codec : Codec) (now : Nat) (deadline : Option Nat) (events : List (Event Res)) (complete : Bool) :
    Traffic Req Res :=
  { call := { link := { codec, now, source := .ready events complete }, deadline } }

/-- Whether the client gave the call up: it was canceled, or its deadline came, and nobody listens any more;
or it was forgotten without an outcome. -/
def GivenUp (traffic : Traffic Req Res) : Prop :=
  traffic.call.listening = false ∨ traffic.dropped = true ∧ traffic.call.outcome = none

def Closed (traffic : Traffic Req Res) : Prop := traffic.call.sending = false ∨ traffic.dropped = true

def next? (traffic : Traffic Req Res) : Option Reading := traffic.call.link.inbound.next? traffic.call.link.now

def withInbound (traffic : Traffic Req Res) (inbound : Inbound) : Traffic Req Res :=
  { traffic with call := { traffic.call with link := { traffic.call.link with inbound } } }

def read (traffic : Traffic Req Res) : Traffic Req Res :=
  match traffic.call.link.inbound.poll traffic.call.link.now with
  | .item item rest => { traffic.withInbound rest with reads := traffic.reads ++ [.item item] }
  | .ended rest => { traffic.withInbound rest with reads := traffic.reads ++ [.ended] }
  | .begun rest => traffic.withInbound rest
  | .waiting => traffic

def bring (traffic : Traffic Req Res) (events : List (Event Res)) (complete : Bool) : Traffic Req Res :=
  match traffic.call.link.source with
  | .ready before _ =>
    { traffic with
      call := { traffic.call with link := { traffic.call.link with source := .ready (before ++ events) complete } } }
  | .reply _ _ => traffic

variable [Message Req]

def added (call : Call (Feed Req Res)) : Operation Req → List Req
  | .send request limit =>
    match (call.send request limit).1 with
    | .ok () => [request]
    | .error _ => []
  | _ => []

/-- The call after a turn; a client that has forgotten it does nothing with it. -/
def after (traffic : Traffic Req Res) : Turn Req Res → Traffic Req Res
  | .act operation =>
    if traffic.dropped then traffic
    else
      { traffic with
        call := traffic.call.after operation, accepted := traffic.accepted ++ added traffic.call operation }
  | .drop =>
    if traffic.dropped then traffic
    else { traffic with call := { traffic.call with link := traffic.call.release }, dropped := true }
  | .read => traffic.read
  | .bring events complete => traffic.bring events complete

def afterAll (traffic : Traffic Req Res) (turns : List (Turn Req Res)) : Traffic Req Res :=
  turns.foldl after traffic

end Traffic

namespace Feed

/-- What holds of the link of a call while requests go over it: its response does not wait for them, and
its queue is in order. -/
structure Carries [Message Req] (codec : Codec) (accepted : List Req) (reads : List Reading) (closed givenUp : Prop)
    (feed : Feed Req Res) : Prop where
  codec_eq : feed.codec = codec
  ready : ∃ events complete, feed.source = .ready events complete
  queue : Inbound.Queue codec.encode accepted reads closed givenUp feed.inbound

variable [Message Req] {codec : Codec} {accepted : List Req} {reads : List Reading} {closed givenUp : Prop}
  {feed : Feed Req Res}

theorem Carries.congr (h : Carries codec accepted reads closed givenUp feed) {closed' givenUp' : Prop}
    (hclosed : closed ↔ closed') (hgivenUp : givenUp ↔ givenUp') :
    Carries codec accepted reads closed' givenUp' feed :=
  ⟨h.codec_eq, h.ready, h.queue.congr hclosed hgivenUp⟩

theorem Carries.reset (h : Carries codec accepted reads closed givenUp feed) :
    Carries codec accepted reads True True feed.reset :=
  ⟨h.codec_eq, ⟨_, _, rfl⟩, h.queue.cancel⟩

theorem Carries.closeSend (h : Carries codec accepted reads closed givenUp feed) :
    Carries codec accepted reads True givenUp feed.closeSend := by
  obtain ⟨events, complete, hsource⟩ := h.ready
  simp only [Feed.closeSend, hsource]
  exact ⟨h.codec_eq, ⟨_, _, rfl⟩, h.queue.close⟩

theorem Carries.advance (h : Carries codec accepted reads closed givenUp feed) (time : Nat) :
    Carries codec accepted reads closed givenUp { feed with now := max feed.now time } :=
  ⟨h.codec_eq, h.ready, h.queue⟩

theorem Carries.receive (h : Carries codec accepted reads closed givenUp feed) (time : Nat) :
    Carries codec accepted reads closed givenUp (feed.receive time).2 := by
  obtain ⟨events, complete, hsource⟩ := h.ready
  rw [Feed.receive]
  split
  · exact ⟨h.codec_eq, ⟨_, _, rfl⟩, h.queue⟩
  · exact h
  · exact h.advance time
  · rename_i hreply
    rw [hreply] at hsource
    cases hsource

theorem Carries.send (h : Carries codec accepted reads closed givenUp feed) (request : Req) (time : Nat) :
    match feed.send request time with
    | (.accepted, rest) => Carries codec (accepted ++ [request]) reads closed givenUp rest
    | (_, rest) => Carries codec accepted reads closed givenUp rest := by
  obtain ⟨events, complete, hsource⟩ := h.ready
  simp only [Feed.send, hsource, h.codec_eq]
  cases hpush : feed.inbound.push (codec.encode request) with
  | accepted inbound => exact ⟨rfl, ⟨_, _, rfl⟩, h.queue.push hpush⟩
  | refused => exact h
  | full =>
    cases complete with
    | true => exact h
    | false => exact ⟨rfl, ⟨_, _, rfl⟩, h.queue⟩

end Feed

namespace Call

variable [Message Req]

/-- What holds of a call its client still has. -/
def Carries (codec : Codec) (accepted : List Req) (reads : List Reading) (call : Call (Feed Req Res)) : Prop :=
  call.link.Carries codec accepted reads (call.sending = false) (call.listening = false)

variable {codec : Codec} {accepted : List Req} {reads : List Reading} {call : Call (Feed Req Res)}

theorem Carries.abandon (h : call.Carries codec accepted reads) (status : Status) :
    (call.abandon status).Carries codec accepted reads :=
  (Feed.Carries.reset h).congr (iff_of_true trivial rfl) (iff_of_true trivial rfl)

theorem Carries.expire (h : call.Carries codec accepted reads) : call.expire.Carries codec accepted reads := by
  rw [Call.expire]
  split
  · exact h.abandon _
  · exact h

theorem Carries.closeSend (h : call.Carries codec accepted reads) : call.closeSend.Carries codec accepted reads := by
  rw [Call.closeSend]
  split
  · exact (Feed.Carries.closeSend h).congr (iff_of_true trivial rfl) .rfl
  · exact h

theorem Carries.withLink {link : Feed Req Res}
    (h : link.Carries codec accepted reads (call.sending = false) (call.listening = false)) :
    { call with link }.Carries codec accepted reads := h

theorem Carries.timeUp {α : Type} (h : call.Carries codec accepted reads) (limit : Nat) :
    (call.timeUp (α := α) limit).2.Carries codec accepted reads := by
  rw [Call.timeUp]
  split
  · split
    · exact (Carries.withLink (Feed.Carries.advance h _)).abandon _
    · exact h
  · exact h

theorem Carries.of_receive (h : call.Carries codec accepted reads) {time : Nat} {received : Received (Event Res)}
    {link : Feed Req Res} (hreceive : Link.receive call.link time = (received, link)) :
    link.Carries codec accepted reads (call.sending = false) (call.listening = false) := by
  have hlink := Feed.Carries.receive h time
  change (Link.receive call.link time).2.Carries _ _ _ _ _ at hlink
  rwa [hreceive] at hlink

theorem Carries.listen (h : call.Carries codec accepted reads) (limit : Nat) :
    (call.listen limit).2.Carries codec accepted reads := by
  fun_induction Call.listen call limit with
  | case1 => exact h
  | case2 call hnone hlistening metadata link hreceive ih => exact ih (.withLink (h.of_receive hreceive))
  | case3 call hnone hlistening message link hreceive => exact .withLink (h.of_receive hreceive)
  | case4 call hnone hlistening outcome trailers link hreceive => 
    exact (Carries.withLink (h.of_receive hreceive)).closeSend
  | case5 call hnone hlistening link hreceive => exact .withLink (h.of_receive hreceive)
  | case6 call hnone hlistening link hreceive => exact (Carries.withLink (h.of_receive hreceive)).timeUp limit
  | case7 => exact h

omit [Message Req] in
/-- What sending comes to: it fails before the link is asked, or as the link answers. -/
theorem send_cases {L : Type} [Link L Req Res] (call : Call L) (request : Req) (limit : Nat) :
    (∃ halt, call.send request limit = (.error halt, call.expire)) ∨
    ∃ sent link, Link.send call.expire.link request (call.expire.horizon limit) = (sent, link) ∧
      (sent = .accepted ∧ call.send request limit = (.ok (), { call.expire with link }) ∨
        sent = .refused ∧ (∃ halt, call.send request limit = (.error halt, { call.expire with link })) ∨
        sent = .blocked ∧
          ∃ halt, call.send request limit = (.error halt, ({ call.expire with link }.timeUp (α := Unit) limit).2)) := by
  rw [Call.send]
  cases hfailure : call.expire.failure? with
  | some status => exact .inl ⟨_, rfl⟩
  | none =>
    cases hsending : call.expire.sending with
    | false => exact .inl ⟨_, rfl⟩
    | true =>
      cases hlink : Link.send call.expire.link request (call.expire.horizon limit) with
      | mk sent link =>
        refine .inr ⟨sent, link, rfl, ?_⟩
        cases sent with
        | accepted => exact .inl ⟨rfl, by simp [hsending]⟩
        | refused => exact .inr (.inl ⟨rfl, _, by simp [hsending]; rfl⟩)
        | blocked =>
          refine .inr (.inr ⟨rfl, ?_⟩)
          cases htime : ({ call.expire with link } : Call L).timeUp (α := Unit) limit with
          | mk result rest =>
            cases result with
            | ok value => exact absurd htime timeUp_ne_ok
            | error halt => exact ⟨halt, by simpa [hsending] using htime⟩

/-- A request that was accepted joins the others, and one that was not does not. -/
theorem Carries.send (h : call.Carries codec accepted reads) (request : Req) (limit : Nat) :
    match call.send request limit with
    | (.ok (), rest) => rest.Carries codec (accepted ++ [request]) reads
    | (.error _, rest) => rest.Carries codec accepted reads := by
  have hlink := Feed.Carries.send h.expire request (call.expire.horizon limit)
  rcases send_cases call request limit with ⟨halt, hsend⟩ | ⟨sent, link, hsent, hcases⟩
  · rw [hsend]
    exact h.expire
  · change match Link.send call.expire.link request (call.expire.horizon limit) with
      | (.accepted, rest) => Feed.Carries codec (accepted ++ [request]) reads _ _ rest
      | (_, rest) => Feed.Carries codec accepted reads _ _ rest at hlink
    rw [hsent] at hlink
    rcases hcases with ⟨rfl, hsend⟩ | ⟨rfl, halt, hsend⟩ | ⟨rfl, halt, hsend⟩
    · rw [hsend]
      exact .withLink hlink
    · rw [hsend]
      exact .withLink hlink
    · rw [hsend]
      exact (Carries.withLink hlink).timeUp limit

theorem Carries.after (h : call.Carries codec accepted reads) (operation : Operation Req) :
    (call.after operation).Carries codec (accepted ++ Traffic.added call operation) reads := by
  cases operation with
  | send request limit =>
    have hsend := h.send request limit
    unfold Call.after Traffic.added
    cases hresult : call.send request limit with
    | mk result rest =>
      rw [hresult] at hsend
      cases result with
      | ok => simpa only [hresult] using hsend
      | error => simpa only [hresult, List.append_nil] using hsend
  | closeSend => exact (List.append_nil accepted).symm ▸ h.closeSend
  | receive limit => exact (List.append_nil accepted).symm ▸ h.expire.listen limit
  | cancel => exact (List.append_nil accepted).symm ▸ h.abandon canceled
  | wait time => exact (List.append_nil accepted).symm ▸ .withLink (Feed.Carries.advance h time)

section Listening

variable {L : Type} [Link L Req Res] {call : Call L}

omit [Message Req]

theorem expire_listening (h : call.listening = false) : call.expire.listening = false := by
  rw [Call.expire]
  split
  · rfl
  · exact h

theorem closeSend_listening (call : Call L) : call.closeSend.listening = call.listening := by
  rw [Call.closeSend]
  split <;> rfl

theorem timeUp_listening {α : Type} {call : Call L} (h : call.listening = false) (limit : Nat) :
    (call.timeUp (α := α) limit).2.listening = false := by
  rw [Call.timeUp]
  split
  · split
    · rfl
    · exact h
  · exact h

theorem listen_listening (h : call.listening = false) (limit : Nat) : (call.listen limit).2.listening = false := by
  fun_induction Call.listen call limit with
  | case1 | case3 | case5 | case7 => exact h
  | case2 call hnone hlistening metadata link hreceive ih => exact ih h
  | case4 call hnone hlistening outcome trailers link hreceive => exact (closeSend_listening _).trans h
  | case6 call hnone hlistening link hreceive => exact timeUp_listening (by exact h) limit

theorem after_listening (h : call.listening = false) (operation : Operation Req) :
    (call.after operation).listening = false := by
  cases operation with
  | send request limit =>
    have hexpire := expire_listening h
    rcases send_cases call request limit with ⟨halt, hsend⟩ | ⟨sent, link, -, hcases⟩
    · simpa only [Call.after, hsend] using hexpire
    · rcases hcases with ⟨-, hsend⟩ | ⟨-, halt, hsend⟩ | ⟨-, halt, hsend⟩
      · simpa only [Call.after, hsend] using hexpire
      · simpa only [Call.after, hsend] using hexpire
      · rw [Call.after, hsend]
        exact timeUp_listening (by exact hexpire) limit
  | closeSend => exact (closeSend_listening call).trans h
  | receive limit => exact listen_listening (expire_listening h) limit
  | cancel => rfl
  | wait time => exact h

end Listening

end Call

namespace Traffic

variable [Message Req] {codec : Codec} {traffic : Traffic Req Res}

/-- What holds of a call and what is on record of it at any time. -/
def Orderly (codec : Codec) (traffic : Traffic Req Res) : Prop :=
  traffic.call.link.Carries codec traffic.accepted traffic.reads traffic.Closed traffic.GivenUp

theorem orderly_iff (h : traffic.dropped = false) :
    Orderly codec traffic ↔ traffic.call.Carries codec traffic.accepted traffic.reads := by
  have hclosed : traffic.Closed ↔ traffic.call.sending = false := by simp [Closed, h]
  have hgivenUp : traffic.GivenUp ↔ traffic.call.listening = false := by simp [GivenUp, h]
  exact ⟨fun hlink => hlink.congr hclosed hgivenUp,
    fun hcall => Feed.Carries.congr hcall hclosed.symm hgivenUp.symm⟩

theorem Orderly.drop (h : Orderly codec traffic) : Orderly codec (traffic.after .drop) := by
  rw [after]
  split
  · exact h
  · rename_i hthere
    have hcall := (orderly_iff (Bool.eq_false_iff.2 hthere)).1 h
    cases houtcome : traffic.call.outcome with
    | none =>
      have hrelease : traffic.call.release = traffic.call.link.reset := by
        rw [Call.release, houtcome]
        rfl
      rw [hrelease]
      exact (Feed.Carries.reset h).congr (iff_of_true trivial (.inr rfl)) (iff_of_true trivial (.inr ⟨rfl, houtcome⟩))
    | some outcome =>
      have hrelease : traffic.call.release = traffic.call.closeSend.link := by
        rw [Call.release, houtcome]
        rfl
      rw [hrelease]
      refine Feed.Carries.congr hcall.closeSend (iff_of_true (Call.closeSend_sending _) (.inr rfl)) ?_
      simp [GivenUp, houtcome, Call.closeSend_listening]

theorem Orderly.read (h : Orderly codec traffic) : Orderly codec traffic.read := by
  have hpoll := h.queue.poll traffic.call.link.now
  rw [Traffic.read]
  split
  · rename_i heq
    rw [heq] at hpoll
    exact ⟨h.codec_eq, h.ready, hpoll⟩
  · rename_i heq
    rw [heq] at hpoll
    exact ⟨h.codec_eq, h.ready, hpoll⟩
  · rename_i heq
    rw [heq] at hpoll
    exact hpoll.elim
  · exact h

theorem Orderly.bring (h : Orderly codec traffic) (events : List (Event Res)) (complete : Bool) :
    Orderly codec (traffic.bring events complete) := by
  rw [Traffic.bring]
  split
  · exact ⟨h.codec_eq, ⟨_, _, rfl⟩, h.queue⟩
  · exact h

theorem Orderly.after (h : Orderly codec traffic) (turn : Turn Req Res) : Orderly codec (traffic.after turn) := by
  cases turn with
  | act operation =>
    rw [Traffic.after]
    split
    · exact h
    · rename_i hthere
      have hthere' := Bool.eq_false_iff.2 hthere
      exact (orderly_iff (by exact hthere')).2 (((orderly_iff hthere').1 h).after operation)
  | drop => exact h.drop
  | read => exact h.read
  | bring events complete => exact h.bring events complete

theorem Orderly.afterAll (h : Orderly codec traffic) (turns : List (Turn Req Res)) :
    Orderly codec (traffic.afterAll turns) := by
  induction turns generalizing traffic with
  | nil => exact h
  | cons turn turns ih => exact ih (h.after turn)

theorem GivenUp.after (h : traffic.GivenUp) (turn : Turn Req Res) : (traffic.after turn).GivenUp := by
  cases turn with
  | act operation =>
    rw [Traffic.after]
    split
    · exact h
    · rename_i hthere
      rcases h with hlistening | ⟨hdropped, -⟩
      · exact .inl (Call.after_listening hlistening operation)
      · exact absurd hdropped hthere
  | drop =>
    rw [Traffic.after]
    split
    · exact h
    · rename_i hthere
      rcases h with hlistening | ⟨hdropped, -⟩
      · exact .inl hlistening
      · exact absurd hdropped hthere
  | read =>
    rw [Traffic.after, Traffic.read]
    split <;> exact h
  | bring events complete =>
    rw [Traffic.after, Traffic.bring]
    split <;> exact h

theorem GivenUp.afterAll (h : traffic.GivenUp) (turns : List (Turn Req Res)) : (traffic.afterAll turns).GivenUp := by
  induction turns generalizing traffic with
  | nil => exact h
  | cons turn turns ih => exact ih (h.after turn)

end Traffic
end RpcConformance.Client
