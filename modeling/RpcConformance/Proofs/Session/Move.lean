import RpcConformance.Proofs.Session.Course
/-!
What one step of a session can do while its peer is there: a handful of moves (`move_of_step`), each
with the deeds that it stands for.
-/
namespace RpcConformance

namespace Session

variable {Req Res : Type} {handler : Handler Req Res}

def isActive (session : Session handler) : Bool :=
  match session.stage with
  | .running _ | .asleep _ _ => true
  | .closing _ | .over => false

def left (session : Session handler) : List (Event Bytes) :=
  match session.stage with
  | .closing events => events
  | _ => []

/-- How the deeds of one action change a sink whose peer is there. -/
inductive Puts : Sink → List Deed → Sink → Prop
  | nothing (sink : Sink) : Puts sink [] sink
  | headers (sink : Sink) (metadata : Metadata) :
      Puts sink [.headers metadata] { sink with headers := sink.headers.extend metadata }
  | trailers (sink : Sink) (metadata : Metadata) :
      Puts sink [.trailers metadata] { sink with trailers := sink.trailers.extend metadata }
  | flushed {sink : Sink} (h : sink.headersSent = true) : Puts sink [.flush] sink
  | flush {sink : Sink} (h : sink.headersSent = false) :
      Puts sink [.flush]
        { sink with headers := .empty, headersSent := true, queue := sink.queue ++ [.headers sink.headers] }
  | message {sink : Sink} (h : sink.headersSent = true) (bytes : Bytes) :
      Puts sink [.message bytes] { sink with queue := sink.queue ++ [.message bytes] }

/-- What a step can do while the peer is there. -/
inductive Move (session next : Session handler) : List Deed → Prop
  | act {deeds : List Deed} (h : session.isActive = true) (hnext : next.isActive = true)
      (hputs : Puts session.sink deeds next.sink) : Move session next deeds
  | finish (outcome : Outcome) (h : session.isActive = true) (hsink : next.sink = session.sink)
      (hnext : next.stage = .closing (session.sink.remaining outcome)) :
      Move session next [.returned outcome]
  | panic (h : session.isActive = true) (hsink : next.sink = session.sink) (hnext : next.stage = .over) :
      Move session next [.panicked]
  | queue (event : Event Bytes) (events : List (Event Bytes)) (h : session.stage = .closing (event :: events))
      (hsink : next.sink = { session.sink with queue := session.sink.queue ++ [event] })
      (hnext : next.stage = .closing events) : Move session next []
  | stop (h : session.stage = .closing []) (hsink : next.sink = session.sink) (hnext : next.stage = .over) :
      Move session next []

theorem push_of_present {sink next : Sink} {event : Event Bytes} {outcome : Outcome}
    (hpresent : sink.closed = false) (h : sink.push event = some (outcome, next)) :
    outcome = .ok () ∧ next = { sink with queue := sink.queue ++ [event] } := by
  have hopen : ¬sink.closed = true := by rw [hpresent]; exact Bool.false_ne_true
  rw [Sink.push, if_neg hopen] at h
  split at h
  · cases h
    exact ⟨rfl, rfl⟩
  · cases h

theorem puts_of_flush {sink next : Sink} {outcome : Outcome} (hpresent : sink.closed = false)
    (h : sink.flush = some (outcome, next)) : outcome = .ok () ∧ Puts sink [.flush] next := by
  rw [Sink.flush] at h
  split at h
  · rename_i hsent
    cases h
    exact ⟨rfl, .flushed hsent⟩
  · rename_i hsent
    have hpresent' : Sink.closed { sink with headers := .empty, headersSent := true } = false := hpresent
    obtain ⟨houtcome, hnext⟩ := push_of_present hpresent' h
    rw [hnext]
    exact ⟨houtcome, .flush (Bool.eq_false_iff.2 hsent)⟩

theorem isActive_of_running {session : Session handler} {state : handler.State}
    (h : session.stage = .running state) : session.isActive = true := by
  simp [isActive, h]

theorem move_of_expire {session next : Session handler} (h : session.isActive = true)
    (hexpire : session.expire = some next) : Move session next [.returned (.error Context.expired)] := by
  rw [Session.expire] at hexpire
  split at hexpire
  · cases hexpire
    exact .finish _ h rfl rfl
  · cases hexpire

theorem move_of_afterSink {session next : Session handler} {state : handler.State} {deeds : List Deed}
    (hstage : session.stage = .running state) {k : Outcome → handler.State} {put : Option (Outcome × Sink)}
    (hput : ∀ outcome sink, put = some (outcome, sink) → Puts session.sink deeds sink)
    (h : session.afterSink k put = some next) : Move session next deeds := by
  match put, h with
  | some (outcome, sink), rfl =>
    exact .act (isActive_of_running hstage) rfl (hput outcome sink rfl)

variable [Message Req] [Message Res]

theorem puts_of_sendMessage {sink next : Sink} {message : Res} {outcome : Outcome}
    (hpresent : sink.closed = false) (hsent : sink.headersSent = true)
    (h : sink.sendMessage message = some (outcome, next)) :
    Puts sink (match sink.codec.encode message with | .ok bytes => [.message bytes] | .error _ => []) next := by
  rw [Sink.sendMessage] at h
  cases hencode : sink.codec.encode message with
  | ok bytes =>
    rw [hencode] at h
    obtain ⟨_, rfl⟩ := push_of_present hpresent h
    exact .message hsent bytes
  | error status =>
    rw [hencode] at h
    cases h
    exact .nothing sink

theorem move_of_act {session next : Session handler} {state : handler.State}
    {action : Action handler.State Req Res} (hpresent : session.sink.closed = false)
    (hstage : session.stage = .running state) (h : session.act action = some next) :
    Move session next (session.deedsOf action) := by
  have hactive := isActive_of_running hstage
  cases action with
  | finish outcome =>
    cases h
    exact .finish outcome hactive rfl rfl
  | panic =>
    cases h
    exact .panic hactive rfl rfl
  | hang => cases h
  | sleep span k =>
    cases h
    exact .act hactive rfl (.nothing _)
  | headers metadata k =>
    cases h
    exact .act hactive rfl (.headers _ metadata)
  | trailers metadata k =>
    cases h
    exact .act hactive rfl (.trailers _ metadata)
  | flush k =>
    exact move_of_afterSink hstage (fun _ _ hflush => (puts_of_flush hpresent hflush).2) h
  | send message k =>
    simp only [act] at h
    simp only [deedsOf]
    split at h
    · rename_i hsent
      rw [if_pos hsent]
      exact move_of_afterSink hstage (fun _ _ hsend => puts_of_sendMessage hpresent hsent hsend) h
    · rename_i hsent
      rw [if_neg hsent]
      split at h
      · rename_i hflush
        cases h
        exact .act hactive (isActive_of_running hstage) (puts_of_flush hpresent hflush).2
      · exact move_of_afterSink hstage (fun _ _ hflush => (puts_of_flush hpresent hflush).2) h
  | receive k =>
    simp only [act] at h
    split at h
    · cases h
      exact .act hactive rfl (.nothing _)
    · cases h
      exact .act hactive rfl (.nothing _)
    · cases h
      exact .act hactive (isActive_of_running hstage) (.nothing _)
    · cases h
  | check k =>
    cases h
    exact .act hactive rfl (.nothing _)
  | release k =>
    cases h
    exact .act hactive rfl (.nothing _)

theorem move_of_step {session next : Session handler} (hpresent : session.sink.closed = false)
    (h : session.step = some next) : Move session next session.deeds := by
  rw [Session.step] at h
  rw [Session.deeds]
  split at h
  · cases h
  · rename_i hstage
    cases h
    rw [hstage]
    exact .stop hstage rfl rfl
  · rename_i event events hstage
    rw [hstage]
    split at h
    · rename_i hpush
      cases h
      exact .queue event events hstage (push_of_present hpresent hpush).2 rfl
    · rename_i hpush
      exact absurd (push_of_present hpresent hpush).1 (by simp)
    · cases h
  · rename_i wakes state hstage
    rw [hstage]
    have hactive : session.isActive = true := by simp [isActive, hstage]
    split at h
    · rename_i hwakes
      cases h
      simp only [hwakes, if_true]
      exact .act hactive rfl (.nothing _)
    · rename_i hwakes
      simp only [hwakes, if_false]
      exact move_of_expire hactive h
  · rename_i state hstage
    rw [hstage]
    split at h
    · rename_i hact
      cases h
      simp only [hact, Option.isSome_some, if_true]
      exact move_of_act hpresent hstage hact
    · rename_i hact
      simp only [hact, Option.isSome_none, Bool.false_eq_true, if_false]
      exact move_of_expire (isActive_of_running hstage) h

end Session
end RpcConformance
