import RpcConformance.Client.Call
/-!
The first outcome of a call stays. A client may do anything with a call in any order, and time may
pass (`Operation`); what every such run keeps is `Sound`, and from it follows what a call that was
given up, failed or ended well answers from then on (`outcome_stays`).
-/
namespace RpcConformance.Client

/-- What a client may do with a call, and the passing of time. -/
inductive Operation (Req : Type)
  | send (request : Req) (limit : Nat)
  | closeSend
  | receive (limit : Nat)
  | cancel
  | wait (time : Nat)

/-- The links that become of a link. -/
inductive Reached {L Req Res : Type} [Link L Req Res] (origin : L) : L → Prop
  | origin : Reached origin origin
  | send {link : L} (request : Req) (time : Nat) (h : Reached origin link) :
      Reached origin (Link.send link request time).2
  | closeSend {link : L} (h : Reached origin link) : Reached origin (Link.closeSend link)
  | reset {link : L} (h : Reached origin link) : Reached origin (Link.reset link)
  | receive {link : L} (time : Nat) (h : Reached origin link) :
      Reached origin (Link.receive link time).2
  | advance {link : L} (time : Nat) (h : Reached origin link) :
      Reached origin (Link.advance link time)

theorem Reached.of_receive {L Req Res : Type} [Link L Req Res] {origin link rest : L} {time : Nat}
    {received : Received (Event Res)} (h : Reached origin link)
    (hreceive : Link.receive link time = (received, rest)) : Reached origin rest := by
  have hreached := Reached.receive time h
  rwa [hreceive] at hreached

theorem Reached.of_send {L Req Res : Type} [Link L Req Res] {origin link rest : L} {request : Req}
    {time : Nat} {sent : Sent} (h : Reached origin link)
    (hsend : Link.send link request time = (sent, rest)) : Reached origin rest := by
  have hreached := Reached.send request time h
  rwa [hsend] at hreached

/-- Whether the peer behind a link may end the call with a status. -/
def Told {L Req Res : Type} [Link L Req Res] (origin : L) (status : Status) : Prop :=
  ∃ (link : L) (time : Nat) (trailers : Metadata) (rest : L), Reached origin link ∧
    Link.receive link time = (.event (.ended (.error status) trailers), rest)

namespace Call

variable {L Req Res : Type} [Link L Req Res]

def opened (link : L) (deadline : Option Nat) : Call L := { link, deadline }

def after (call : Call L) : Operation Req → Call L
  | .send request limit => (call.send request limit).2
  | .closeSend => call.closeSend
  | .receive limit => (call.receive limit).2
  | .cancel => call.cancel
  | .wait time => call.advance time

def afterAll (call : Call L) (operations : List (Operation Req)) : Call L :=
  operations.foldl after call

/-- What holds of every call that was opened on `origin`. -/
structure Sound (origin : L) (deadline : Option Nat) (call : Call L) : Prop where
  reached : Reached origin call.link
  deadline_eq : call.deadline = deadline
  /-- Only a call with an outcome stops listening. -/
  listening : call.outcome = none → call.listening = true
  /-- A call that ended well takes no more requests. -/
  closed : call.outcome = some (.ok ()) → call.sending = false
  /-- A call fails because the client gave it up, its deadline came, its response broke off, or the
  peer says so. -/
  cause : ∀ status, call.outcome = some (.error status) →
    status = canceled ∨ status = Context.expired ∨ status = unfinished ∨ Told origin status

variable {origin : L} {deadline : Option Nat} {call rest : Call L}

theorem sound_opened (origin : L) (deadline : Option Nat) : Sound origin deadline (opened origin deadline) where
  reached := .origin
  deadline_eq := rfl
  listening _ := rfl
  closed h := by cases h
  cause _ h := by cases h

theorem Sound.withLink (h : Sound origin deadline call) {link : L} (hlink : Reached origin link) :
    Sound origin deadline { call with link } where
  reached := hlink
  deadline_eq := h.deadline_eq
  listening := h.listening
  closed := h.closed
  cause := h.cause

theorem Sound.abandon (h : Sound origin deadline call) {status : Status}
    (hstatus : status = canceled ∨ status = Context.expired) :
    Sound origin deadline (call.abandon status) where
  reached := .reset h.reached
  deadline_eq := h.deadline_eq
  listening hnone := by cases hnone
  closed hok := by cases hok
  cause status' heq := by
    cases heq
    rcases hstatus with rfl | rfl
    · exact .inl rfl
    · exact .inr (.inl rfl)

theorem Sound.expire (h : Sound origin deadline call) : Sound origin deadline call.expire := by
  rw [Call.expire]
  split
  · exact h.abandon (.inr rfl)
  · exact h

theorem Sound.closeSend (h : Sound origin deadline call) : Sound origin deadline call.closeSend := by
  rw [Call.closeSend]
  split
  · exact { reached := .closeSend h.reached, deadline_eq := h.deadline_eq, listening := h.listening
            closed := fun _ => rfl, cause := h.cause }
  · exact h

theorem Sound.timeUp {α : Type} (h : Sound origin deadline call) (limit : Nat) :
    Sound origin deadline (call.timeUp (α := α) limit).2 := by
  rw [Call.timeUp]
  split
  · split
    · exact (h.withLink (.advance _ h.reached)).abandon (.inr rfl)
    · exact h
  · exact h

theorem Sound.send (h : Sound origin deadline call) (request : Req) (limit : Nat) :
    Sound origin deadline (call.send request limit).2 := by
  have hexpire := h.expire
  unfold Call.send
  simp only
  split
  · exact hexpire
  · split
    · split
      · rename_i hsend
        exact hexpire.withLink (hexpire.reached.of_send hsend)
      · rename_i hsend
        exact hexpire.withLink (hexpire.reached.of_send hsend)
      · rename_i hsend
        exact (hexpire.withLink (hexpire.reached.of_send hsend)).timeUp limit
    · exact hexpire

theorem closeSend_sending (call : Call L) : call.closeSend.sending = false := by
  rw [closeSend]
  split <;> simp_all

theorem Sound.finish (h : Sound origin deadline call) {outcome : Outcome} (trailers : Metadata)
    (htold : ∀ status, outcome = .error status → Told origin status) :
    Sound origin deadline (call.finish outcome trailers) where
  reached := h.closeSend.reached
  deadline_eq := h.closeSend.deadline_eq
  listening hnone := by cases hnone
  closed _ := closeSend_sending call
  cause status heq := by
    cases heq
    exact .inr (.inr (.inr (htold status rfl)))

theorem Sound.listen (h : Sound origin deadline call) (limit : Nat) :
    Sound origin deadline (call.listen limit).2 := by
  fun_induction Call.listen call limit with
  | case1 call outcome houtcome => exact h
  | case2 call hnone hlistening metadata link hreceive ih =>
    exact ih { reached := h.reached.of_receive hreceive, deadline_eq := h.deadline_eq
               listening := h.listening, closed := h.closed, cause := h.cause }
  | case3 call hnone hlistening message link hreceive =>
    exact h.withLink (h.reached.of_receive hreceive)
  | case4 call hnone hlistening outcome trailers link hreceive =>
    refine (h.withLink (h.reached.of_receive hreceive)).finish trailers fun status hstatus => ?_
    subst hstatus
    exact ⟨call.link, call.horizon limit, trailers, link, h.reached, hreceive⟩
  | case5 call hnone hlistening link hreceive =>
    exact { reached := h.reached.of_receive hreceive, deadline_eq := h.deadline_eq
            listening := fun hnone => by cases hnone
            closed := fun hok => by cases hok
            cause := fun status heq => by cases heq; exact .inr (.inr (.inl rfl)) }
  | case6 call hnone hlistening link hreceive =>
    exact (h.withLink (h.reached.of_receive hreceive)).timeUp limit
  | case7 => exact h

theorem Sound.receive (h : Sound origin deadline call) (limit : Nat) :
    Sound origin deadline (call.receive limit).2 :=
  h.expire.listen limit

theorem Sound.after (h : Sound origin deadline call) (operation : Operation Req) :
    Sound origin deadline (call.after operation) := by
  cases operation with
  | send request limit => exact h.send request limit
  | closeSend => exact h.closeSend
  | receive limit => exact h.receive limit
  | cancel => exact h.abandon (.inl rfl)
  | wait time => exact h.withLink (.advance time h.reached)

theorem Sound.afterAll (h : Sound origin deadline call) (operations : List (Operation Req)) :
    Sound origin deadline (call.afterAll operations) := by
  induction operations generalizing call with
  | nil => exact h
  | cons operation operations ih => exact ih (h.after operation)

structure Settled (outcome : Outcome) (call : Call L) : Prop where
  outcome_eq : call.outcome = some outcome
  closed : outcome = .ok () → call.sending = false

/-- Whether everything a client may wait for fails with one status. -/
structure AlwaysFails (call : Call L) (status : Status) : Prop where
  send : ∀ (request : Req) (limit : Nat), (call.send request limit).1 = .error (.failed status)
  receive : ∀ limit : Nat, (call.receive limit).1 = .error (.failed status)
  closeAndReceive : ∀ limit : Nat, (call.closeAndReceive limit).1 = .error (.failed status)

/-- Whether something a client may wait for fails with a status. -/
def MayFail (call : Call L) (status : Status) : Prop :=
  (∃ (request : Req) (limit : Nat), (call.send request limit).1 = .error (.failed status)) ∨
  (∃ limit : Nat, (call.receive limit).1 = .error (.failed status)) ∨
  ∃ limit : Nat, (call.closeAndReceive limit).1 = .error (.failed status)

theorem expire_of_outcome {outcome : Outcome} (h : call.outcome = some outcome) : call.expire = call := by
  simp [Call.expire, h]

theorem receive_of_outcome {outcome : Outcome} (h : call.outcome = some outcome) (limit : Nat) :
    call.receive limit = (ending outcome, call) := by
  rw [Call.receive, expire_of_outcome h, listen_of_outcome h]

theorem send_of_failed {status : Status} (h : call.outcome = some (.error status)) (request : Req)
    (limit : Nat) : call.send request limit = (.error (.failed status), call) := by
  simp [Call.send, expire_of_outcome h, failure?, h]

theorem send_of_ended (h : call.outcome = some (.ok ())) (hclosed : call.sending = false)
    (request : Req) (limit : Nat) :
    call.send request limit = (.error (.failed requestsClosed), call) := by
  simp [Call.send, expire_of_outcome h, failure?, h, hclosed]

theorem closeSend_outcome (call : Call L) : call.closeSend.outcome = call.outcome := by
  rw [Call.closeSend]
  split <;> rfl

theorem Settled.after {outcome : Outcome} (h : Settled outcome call) {operation : Operation Req}
    (hcancel : operation = .cancel → outcome = .error canceled) :
    Settled outcome (call.after operation) := by
  cases operation with
  | send request limit =>
    cases outcome with
    | ok =>
      have hsend := send_of_ended h.outcome_eq (h.closed rfl) request limit
      simpa only [Call.after, hsend] using h
    | error status =>
      have hsend := send_of_failed h.outcome_eq request limit
      simpa only [Call.after, hsend] using h
  | closeSend => exact ⟨(closeSend_outcome call).trans h.outcome_eq, fun _ => closeSend_sending call⟩
  | receive limit => simpa only [Call.after, receive_of_outcome h.outcome_eq] using h
  | cancel => exact ⟨congrArg some (hcancel rfl).symm, fun _ => rfl⟩
  | wait time => exact ⟨h.outcome_eq, h.closed⟩

theorem Settled.afterAll {outcome : Outcome} (h : Settled outcome call)
    {operations : List (Operation Req)}
    (hcancel : Operation.cancel ∈ operations → outcome = .error canceled) :
    Settled outcome (call.afterAll operations) := by
  induction operations generalizing call with
  | nil => exact h
  | cons operation operations ih =>
    refine ih (h.after ?_) fun hmem => hcancel (List.mem_cons_of_mem _ hmem)
    rintro rfl
    exact hcancel List.mem_cons_self

theorem Settled.alwaysFails {status : Status} (h : Settled (.error status) call) :
    call.AlwaysFails status where
  send request limit := by rw [send_of_failed h.outcome_eq]
  receive limit := by
    rw [receive_of_outcome h.outcome_eq]
    rfl
  closeAndReceive limit := by
    rw [Call.closeAndReceive, receive_of_outcome ((closeSend_outcome call).trans h.outcome_eq)]
    rfl

theorem settled_abandon (call : Call L) (status : Status) :
    Settled (.error status) (call.abandon status) :=
  ⟨rfl, fun hok => by cases hok⟩

theorem settled_timeUp {α : Type} {status : Status} {limit : Nat}
    (h : call.timeUp (α := α) limit = (.error (.failed status), rest)) : Settled (.error status) rest := by
  rw [Call.timeUp] at h
  split at h
  · split at h
    · cases h
      exact settled_abandon _ _
    · cases h
  · cases h

theorem ending_eq_failed {α : Type} {outcome : Outcome} {status : Status}
    (h : (ending outcome : Except Halt (Option α)) = .error (.failed status)) : outcome = .error status := by
  cases outcome <;> cases h
  rfl

theorem ending_eq_none {α : Type} {outcome : Outcome}
    (h : (ending outcome : Except Halt (Option α)) = .ok none) : outcome = .ok () := by
  cases outcome <;> cases h
  rfl

/-- What a sound call fails with while it is listened to becomes its outcome. -/
theorem Sound.settled_of_listen (h : Sound origin deadline call) {limit : Nat} {status : Status}
    (hlisten : call.listen limit = (.error (.failed status), rest)) : Settled (.error status) rest := by
  fun_induction Call.listen call limit with
  | case1 call outcome houtcome =>
    obtain ⟨hending, rfl⟩ := Prod.mk.inj hlisten
    exact ⟨ending_eq_failed hending ▸ houtcome, fun hok => by cases hok⟩
  | case2 call hnone hlistening metadata link hreceive ih =>
    exact ih { reached := h.reached.of_receive hreceive, deadline_eq := h.deadline_eq
               listening := h.listening, closed := h.closed, cause := h.cause } hlisten
  | case3 => cases hlisten
  | case4 call hnone hlistening outcome trailers link hreceive =>
    obtain ⟨hending, rfl⟩ := Prod.mk.inj hlisten
    exact ⟨congrArg some (ending_eq_failed hending), fun hok => by cases hok⟩
  | case5 =>
    cases hlisten
    exact ⟨rfl, fun hok => by cases hok⟩
  | case6 => exact settled_timeUp hlisten
  | case7 call hnone hlistening => exact absurd (h.listening hnone) hlistening

theorem Sound.settled_of_good_end (h : Sound origin deadline call) {limit : Nat}
    (hlisten : call.listen limit = (.ok none, rest)) : Settled (.ok ()) rest := by
  fun_induction Call.listen call limit with
  | case1 call outcome houtcome =>
    obtain ⟨hending, rfl⟩ := Prod.mk.inj hlisten
    have hok := ending_eq_none hending
    subst hok
    exact ⟨houtcome, fun _ => h.closed houtcome⟩
  | case2 call hnone hlistening metadata link hreceive ih =>
    exact ih { reached := h.reached.of_receive hreceive, deadline_eq := h.deadline_eq
               listening := h.listening, closed := h.closed, cause := h.cause } hlisten
  | case3 => cases hlisten
  | case4 call hnone hlistening outcome trailers link hreceive =>
    obtain ⟨hending, rfl⟩ := Prod.mk.inj hlisten
    exact ⟨congrArg some (ending_eq_none hending), fun _ => closeSend_sending _⟩
  | case5 => cases hlisten
  | case6 => exact absurd hlisten timeUp_ne_ok
  | case7 => cases hlisten

theorem Sound.told_of_outcome (h : Sound origin deadline call)
    (houtcome : call.outcome = some (.error notListening)) : Told origin notListening := by
  rcases h.cause _ houtcome with heq | heq | heq | htold
  · exact absurd heq (by decide)
  · exact absurd heq (by decide)
  · exact absurd heq (by decide)
  · exact htold

theorem Sound.told_of_receive (h : Sound origin deadline call) {limit : Nat}
    (hreceive : call.receive limit = (.error (.failed notListening), rest)) : Told origin notListening := by
  have hrest := h.receive limit
  rw [hreceive] at hrest
  exact hrest.told_of_outcome (h.expire.settled_of_listen hreceive).outcome_eq

theorem Sound.told_of_send (h : Sound origin deadline call) {request : Req} {limit : Nat}
    (hsend : (call.send request limit).1 = .error (.failed notListening)) : Told origin notListening := by
  unfold Call.send at hsend
  simp only at hsend
  split at hsend
  · rename_i status hfailure
    obtain rfl : status = notListening := by simpa using hsend
    rw [failure?] at hfailure
    split at hfailure
    · rename_i houtcome
      cases hfailure
      exact h.expire.told_of_outcome houtcome
    · cases hfailure
  · split at hsend
    · split at hsend
      · cases hsend
      · exact absurd hsend (by simp [requestsRefused, notListening, Status.unavailable, Status.internal])
      · rw [Call.timeUp] at hsend
        split at hsend
        · split at hsend
          · exact absurd hsend
              (by simp [Context.expired, notListening, Status.deadlineExceeded, Status.internal])
          · cases hsend
        · cases hsend
    · exact absurd hsend
        (by simp [requestsClosed, notListening, Status.failedPrecondition, Status.internal])

theorem Sound.told_of_closeAndReceive (h : Sound origin deadline call) {limit : Nat}
    (hclose : (call.closeAndReceive limit).1 = .error (.failed notListening)) :
    Told origin notListening := by
  have hclosed := h.closeSend
  rw [Call.closeAndReceive] at hclose
  split at hclose
  · rename_i halt rest hfirst
    obtain rfl : halt = .failed notListening := by simpa using hclose
    exact hclosed.told_of_receive hfirst
  · exact absurd hclose (by simp [unanswered, notListening, Status.unimplemented, Status.internal])
  · rename_i message rest hfirst
    have hrest := hclosed.receive limit
    rw [hfirst] at hrest
    split at hclose
    · rename_i halt last hsecond
      obtain rfl : halt = .failed notListening := by simpa using hclose
      exact hrest.told_of_receive hsecond
    · exact absurd hclose (by simp [answeredTwice, notListening, Status.unimplemented, Status.internal])
    · cases hclose

/-- A call that starts to wait when its deadline has come fails for that reason. -/
theorem expire_of_late {time : Nat} (hdeadline : call.deadline = some time) (htime : time ≤ call.now)
    (hnone : call.outcome = none) : call.expire = call.abandon Context.expired := by
  simp [Call.expire, hdeadline, hnone, Context.isExpired, htime]

/-- What starts when the deadline has come, without an outcome, fails for that reason. -/
theorem fails_of_late {time : Nat} (hdeadline : call.deadline = some time) (htime : time ≤ call.now)
    (hnone : call.outcome = none) :
    (∀ (request : Req) (limit : Nat), (call.send request limit).1 = .error (.failed Context.expired)) ∧
    ∀ limit, (call.receive limit).1 = .error (.failed Context.expired) := by
  have hexpire := expire_of_late hdeadline htime hnone
  have hsettled := settled_abandon call Context.expired
  constructor
  · intro request limit
    have hsend : call.send request limit = (call.abandon Context.expired).send request limit := by
      rw [Call.send, Call.send, hexpire, expire_of_outcome hsettled.outcome_eq]
    rw [hsend]
    exact hsettled.alwaysFails.send request limit
  · intro limit
    rw [Call.receive, hexpire, listen_of_outcome hsettled.outcome_eq]
    rfl

/-- The first outcome of a call stays, whatever the client did `before` and does `later`, whatever the
link brings and however much time passes:
a call that is given up fails as canceled from then on; a failure that was received is what every
later operation fails with, and a good end what every later receive gives, until the call is given up;
an operation that starts after the deadline without an outcome fails for that reason; and a call without
an outcome listens, so that it never finds that it does not, and only its peer can tell it so. -/
theorem outcome_stays (link : L) (deadline : Option Nat) (before : List (Operation Req)) :
    let call := (opened link deadline).afterAll before
    (∀ later : List (Operation Req), (call.cancel.afterAll later).AlwaysFails canceled) ∧
    (∀ limit status rest, call.receive limit = (.error (.failed status), rest) →
      ∀ later : List (Operation Req), .cancel ∉ later → (rest.afterAll later).AlwaysFails status) ∧
    (∀ limit rest, call.receive limit = (.ok none, rest) →
      ∀ later : List (Operation Req), .cancel ∉ later →
        ∀ limit, ((rest.afterAll later).receive limit).1 = .ok none) ∧
    (∀ time, deadline = some time → time ≤ call.now → call.outcome = none →
      (∀ request limit, (call.send request limit).1 = .error (.failed Context.expired)) ∧
      ∀ limit, (call.receive limit).1 = .error (.failed Context.expired)) ∧
    (call.outcome = none → call.listening = true) ∧
    (call.MayFail notListening → Told link notListening) := by
  intro call
  have hsound : Sound link deadline call := (sound_opened link deadline).afterAll before
  refine ⟨?_, ?_, ?_, ?_, hsound.listening, ?_⟩
  · intro later
    exact ((settled_abandon call canceled).afterAll fun _ => rfl).alwaysFails
  · intro limit status rest hreceive later hlater
    have hrest := hsound.expire.settled_of_listen hreceive
    exact (hrest.afterAll fun hmem => absurd hmem hlater).alwaysFails
  · intro limit rest hreceive later hlater limit'
    have hrest := hsound.expire.settled_of_good_end hreceive
    have hlast := hrest.afterAll fun hmem => absurd hmem hlater
    rw [receive_of_outcome hlast.outcome_eq]
    rfl
  · intro time hdeadline htime hnone
    exact fails_of_late (hsound.deadline_eq.trans hdeadline) htime hnone
  · rintro (⟨request, limit, hsend⟩ | ⟨limit, hreceive⟩ | ⟨limit, hclose⟩)
    · exact hsound.told_of_send hsend
    · exact hsound.told_of_receive (Prod.ext hreceive rfl)
    · exact hsound.told_of_closeAndReceive hclose

end Call
end RpcConformance.Client
