import RpcConformance.Proofs.Session.Deadline
import RpcConformance.Service.Reference
/-!
A deadline only truncates a call: the call with a timeout beside the same call without one, for services whose handlers
follow plans (`dispatch_within`, `deadline_truncates`). The reference service is one of them.
-/
namespace RpcConformance

namespace Plan

variable {Req Res : Type}

/-- A handler that follows a plan asks for nothing but the metadata of its call. -/
theorem heeds_handler (plan : Metadata → Plan Req Res) :
    (Plan.handler fun context => plan context.metadata).Heeds where
  start _ _ := rfl
  check state next hcheck status := by
    have hunless (rest : Progress Req Res) (step : Step Res) (hstep : stepAction rest step = .check next) :
        next (.error status) = .done (.error status) := by
      cases step <;> cases hstep
      rfl
    have hstate : Plan.act state = .check next := hcheck
    have hfails : next (.error status) = .done (.error status) := by
      match state, hstate with
      | .going (step :: steps) plan, hstate => exact hunless _ step hstate
      | .going [] (.step step :: plan), hstate => exact hunless _ step hstate
    rw [hfails]
    rfl

end Plan

theorem Handler.heeds_refuse {Req Res : Type} (status : Status) : Handler.Heeds (.refuse status : Handler Req Res) where
  start _ _ := rfl
  check _ _ hcheck := nomatch hcheck

namespace Service

open Session

/-- Every handler of a service follows a plan that the metadata of the call decides on. -/
def IsPlanned (service : Service) : Prop :=
  ∀ method, ∃ plan : Metadata → Plan method.Request method.Response,
    service method = Plan.handler fun context => plan context.metadata

theorem isPlanned_reference : Reference.service.IsPlanned := by
  intro method
  cases method with
  | emptyCall => exact ⟨fun metadata => Plan.answering Reference.emptyCall { metadata }, rfl⟩
  | unaryCall => exact ⟨fun metadata => Plan.answering Reference.unaryCall { metadata }, rfl⟩
  | failUnaryCall => exact ⟨fun metadata => Plan.answering Reference.failUnaryCall { metadata }, rfl⟩
  | unimplementedCall => exact ⟨fun metadata => Plan.answering Reference.unimplementedCall { metadata }, rfl⟩
  | streamingOutputCall => exact ⟨fun metadata => Reference.streamingOutputCall { metadata }, rfl⟩
  | streamingInputCall => exact ⟨fun metadata => Reference.streamingInputCall { metadata }, rfl⟩
  | fullDuplexCall => exact ⟨fun metadata => Reference.fullDuplexCall { metadata }, rfl⟩
  | halfDuplexCall => exact ⟨fun metadata => Reference.halfDuplexCall { metadata }, rfl⟩

theorem heeds_endpoint {service : Service} (hplanned : service.IsPlanned) (path : String) :
    (service.endpoint path).handler.Heeds := by
  rw [endpoint]
  split
  · rename_i method _
    obtain ⟨plan, hplan⟩ := hplanned method
    simp only [hplan]
    exact Plan.heeds_handler plan
  · exact Handler.heeds_refuse _

/-- A call without its timeout. -/
def dispatchUntimed (service : Service) (call : Incoming) (now : Nat) : Session (service.endpoint call.path).handler :=
  service.dispatch { call with timeout := none } now

theorem unlimited_dispatchUntimed (service : Service) (call : Incoming) (now : Nat) :
    (service.dispatchUntimed call now).Unlimited where
  bound := rfl
  deadline := rfl
  canceled := rfl
  present := rfl
  room := (by decide : 0 < outboundCapacity)

theorem dispatch_within {service : Service} (hplanned : service.IsPlanned) (call : Incoming) (now : Nat)
    {timeout : Duration} (htimeout : call.timeout = some timeout) :
    service.dispatch call now = (service.dispatchUntimed call now).within (now + timeout.ticks) := by
  have hstart := (heeds_endpoint hplanned call.path).start { metadata := call.metadata } (some (now + timeout.ticks))
  simp only [dispatch, dispatchUntimed, Session.start, within, htimeout, Context.deadlineAfter, Option.map_some,
    Option.map_none, hstart]

/-- A deadline that the clock can tell only truncates a call. If the handler of the call without a timeout returns before
the time is up, then the call with the timeout has the same events at the same times. If it goes on through the tick in
which the time is up, then the call with the timeout is cut off there: its handler did what it does anyway and its peer
took the events that come anyway, all of those that are earlier and none that are later, and then the end, which carries
all trailers that were inserted by then, and also the headers if they were not let out. Nothing at all comes of a call
whose deadline the clock cannot tell. -/
theorem deadline_truncates {service : Service} (hplanned : service.IsPlanned) (call : Incoming) (now : Nat)
    {timeout : Duration} (htimeout : call.timeout = some timeout) :
    (Context.isTold (some timeout) now = true →
      (∀ time outcome horizon, (time, .returned outcome) ∈ (service.dispatchUntimed call now).history horizon →
        time * 1000000 < now * 1000000 + timeout.nanos →
        (service.serve call now).transcript horizon = (service.dispatchUntimed call now).transcript horizon ∧
          ((service.dispatchUntimed call now).transcript horizon).2 = true) ∧
      ((∀ entry ∈ (service.dispatchUntimed call now).history (now + timeout.ticks), entry.2.ends = false) →
        ∃ deeds events trailers,
          CutOff (now + timeout.ticks) (service.dispatchUntimed call now) (service.serve call now) deeds events
            trailers ∧
          events.map (·.2) = Deed.letOut (deeds.map (·.2)) ∧
          trailers = if Deed.opened (deeds.map (·.2)) then Deed.allTrailers (deeds.map (·.2))
            else (Deed.earlyHeaders (deeds.map (·.2))).extend (Deed.allTrailers (deeds.map (·.2))))) ∧
    (Context.isTold (some timeout) now = false → (Method.ofPath? call.path).isSome = true →
      ∀ horizon, (service.serve call now).transcript horizon = ([], true)) := by
  refine ⟨fun htold => ?_, fun huntold hpath => transcript_of_untold service hpath (htimeout ▸ huntold)⟩
  have hfree := unlimited_dispatchUntimed service call now
  have hwithin := dispatch_within hplanned call now htimeout
  rw [serve_of_told service (htimeout ▸ htold)]
  refine ⟨fun time outcome horizon hreturned hbefore => ?_, fun hgoes => ?_⟩
  · have hearly : time < now + timeout.ticks := by
      simp only [Duration.ticks]
      omega
    rw [hwithin]
    exact hfree.transcript_within hreturned hearly
  · obtain ⟨deeds, events, trailers, hcut⟩ :=
      hfree.exists_cutOff (heeds_endpoint hplanned call.path) rfl (Nat.le_add_right now timeout.ticks) hgoes
    rw [← hwithin] at hcut
    obtain ⟨hevents, hending⟩ := hcut.account (accounted_dispatch service call now) hgoes
    refine ⟨deeds, events, trailers, hcut, hevents, ?_⟩
    rw [Deed.ending] at hending
    split at hending <;> simp_all

def echoedMetadata : Metadata := .ofList [(Reference.echoInitialKey, [1]), (Reference.echoTrailingKey, [7])]

/-- A call of the reference service that sends nothing, and says so only after five ticks. -/
def slowCall (timeout : Duration) : Incoming where
  path := Method.fullDuplexCall.path
  codec := .proto
  metadata := echoedMetadata
  timeout := some timeout
  inbound := { arrivals := [.pause 5], closed := true }

/-- The same call while its handler waits. -/
def slowCallListening : Session (Reference.service.endpoint Method.fullDuplexCall.path).handler where
  context := { metadata := echoedMetadata }
  bound := none
  now := 0
  inbound := { arrivals := [.due 5], closed := true }
  sink := { codec := .proto
            capacity := outboundCapacity
            headers := .single Reference.echoInitialKey [1]
            trailers := .single Reference.echoTrailingKey [7] }
  stage := .running (.going [] [.serve Reference.answer])

/-- What the handler of this call does before it waits. -/
def slowCallDeeds : List (Nat × Deed) :=
  [(0, .headers (.single Reference.echoInitialKey [1])), (0, .trailers (.single Reference.echoTrailingKey [7]))]

theorem history_slowCall (timeout : Duration) (horizon : Nat) :
    (Reference.service.dispatchUntimed (slowCall timeout) 0).history horizon =
      slowCallDeeds ++ slowCallListening.history horizon := by
  rw [history_of_step rfl, history_of_step rfl, history_of_step rfl, history_of_step rfl]
  rfl

theorem quiet_slowCallListening : slowCallListening.Quiet := ⟨rfl, rfl⟩

theorem history_slowCallListening : slowCallListening.history 5 = [(5, .returned (.ok ()))] := by
  have hwake : slowCallListening.wake? = some 5 := rfl
  rw [history_of_wake quiet_slowCallListening hwake (by decide) (by decide), history_of_step rfl,
    history_of_step rfl, history_of_step rfl, Done.history ⟨rfl, by decide, by decide⟩]
  rfl

/-- With ten milliseconds the call is not touched; with two and a half it is cut off in the third tick, and the metadata
comes with the end. -/
theorem deadline_truncates_slowCall :
    (Reference.service.serve (slowCall (.ofMillis 10)) 0).transcript 5 =
      (Reference.service.dispatchUntimed (slowCall (.ofMillis 10)) 0).transcript 5 ∧
    (Reference.service.serve (slowCall ⟨2500000⟩) 0).transcript 3 =
      ([(3, .ended (.error Context.expired) echoedMetadata)], true) := by
  have hwake : slowCallListening.wake? = some 5 := rfl
  have hwaits : slowCallListening.history 3 = [] := by
    simp [history_of_quiet quiet_slowCallListening, hwake]
  constructor
  · have huntouched := ((deadline_truncates isPlanned_reference (slowCall (.ofMillis 10)) 0 rfl).1 (by decide)).1 5
      (.ok ()) 5
    rw [history_slowCall, history_slowCallListening] at huntouched
    exact (huntouched (by simp) (by decide)).1
  · have hcut := ((deadline_truncates isPlanned_reference (slowCall ⟨2500000⟩) 0 rfl).1 (by decide)).2
    have hticks : 0 + Duration.ticks ⟨2500000⟩ = 3 := rfl
    rw [hticks, history_slowCall, hwaits] at hcut
    obtain ⟨deeds, events, trailers, hcut, hevents, htrailers⟩ := hcut (by simp [slowCallDeeds, Deed.ends])
    obtain ⟨late, hlate, -, hlater⟩ := hcut.freeHistory 3 (Nat.le_refl _)
    rw [history_slowCall, hwaits, List.append_nil] at hlate
    have hnone : late = [] := by
      rw [List.eq_nil_iff_forall_not_mem]
      intro entry hentry
      have hearly : entry ∈ slowCallDeeds := by
        rw [hlate]
        exact List.mem_append_right _ hentry
      have hthree := hlater entry hentry
      simp only [slowCallDeeds, List.mem_cons, List.not_mem_nil, or_false] at hearly
      rcases hearly with rfl | rfl <;> cases hthree
    rw [hnone, List.append_nil] at hlate
    rw [← hlate] at hevents htrailers
    rw [hcut.transcript 3 (Nat.le_refl _), List.map_eq_nil_iff.1 hevents, htrailers]
    rfl

/-- With the longest timeout there is the handler would be done after five ticks, and its headers and a good end would
have come; but nothing comes of the call. -/
theorem longest_not_served :
    (5, .returned (.ok ())) ∈ (Reference.service.dispatchUntimed (slowCall .longest) 0).history 5 ∧
      5 * 1000000 < Duration.longest.nanos ∧
      (Reference.service.dispatchUntimed (slowCall .longest) 0).transcript 5 =
        ([(5, .headers (.single Reference.echoInitialKey [1])),
          (5, .ended (.ok ()) (.single Reference.echoTrailingKey [7]))], true) ∧
      ∀ horizon, (Reference.service.serve (slowCall .longest) 0).transcript horizon = ([], true) := by
  refine ⟨?_, by decide, ?_, transcript_of_untold _ (by decide) (by decide)⟩
  · rw [history_slowCall, history_slowCallListening]
    exact List.mem_append_right _ List.mem_cons_self
  · have hsettle : ({ slowCallListening with now := 5 } : Session _).settle = _ :=
      (settle_of_step rfl).trans <| (settle_of_step rfl).trans <| (settle_of_step rfl).trans <|
        (settle_of_step rfl).trans <| (settle_of_step rfl).trans <| (settle_of_step rfl).trans (settle_of_over rfl)
    rw [transcript_of_step rfl, transcript_of_step rfl, transcript_of_step rfl, transcript_of_step rfl]
    show slowCallListening.transcript 5 = _
    rw [transcript_of_wake quiet_slowCallListening rfl (by decide) (by decide), ← transcript_settle, hsettle,
      transcript_of_over 5 rfl]
    rfl

end Service
end RpcConformance
