import RpcConformance.Client.Feed
import RpcConformance.Proofs.Client.Outcome
/-!
What a client is shown of a response: headers that are gathered from the events of the link, and the trailers of its
end. Whatever is true of those in every event is true of them after any operations (`Shows.afterAll`), and in the
response of a call with one request (`Shows.unary`). Over a link whose response is known the events are those of the
response (`Feed.brings`).
-/
namespace RpcConformance

/-- A property of metadata that stays when metadata is gathered. -/
structure Metadata.Gathered (property : Metadata → Prop) : Prop where
  empty : property .empty
  extend : ∀ {metadata other : Metadata}, property metadata → property other → property (metadata.extend other)

/-- The metadata of an event has a property: one is for headers, the other for trailers. -/
def Event.Shows {Res : Type} (headers trailers : Metadata → Prop) : Event Res → Prop
  | .headers metadata => headers metadata
  | .message _ => True
  | .ended _ metadata => trailers metadata

namespace Client

/-- Every event that comes over a link has a property, whatever the client does. -/
def Link.Brings {L Req Res : Type} [Link L Req Res] (property : Event Res → Prop) (origin : L) : Prop :=
  ∀ link rest time event, Reached origin link → Link.receive link time = (.event event, rest) → property event

/-- Every event of a response has a property. -/
def Source.Brings {Res : Type} (property : Event Res → Prop) : Source Res → Prop
  | .ready events _ => ∀ event ∈ events, property event
  | .reply _ answer => ∀ taken, ∀ event ∈ (answer taken).1, property event

namespace Feed

variable {Req Res : Type} {property : Event Res → Prop} {feed origin : Feed Req Res}

theorem brings_send [Message Req] (h : feed.source.Brings property) (request : Req) (time : Nat) :
    (feed.send request time).2.source.Brings property := by
  unfold send
  cases hsource : feed.source with
  | reply taken answer =>
    rw [hsource] at h
    exact h
  | ready events complete =>
    simp only
    split
    · simpa only [hsource] using h
    · exact h
    · split
      · exact h
      · simpa only [hsource] using h

theorem brings_closeSend (h : feed.source.Brings property) : feed.closeSend.source.Brings property := by
  unfold closeSend
  cases hsource : feed.source with
  | reply taken answer =>
    rw [hsource] at h
    exact h taken
  | ready events complete => simpa only [hsource] using h

theorem brings_receive (h : feed.source.Brings property) (time : Nat) :
    (feed.receive time).2.source.Brings property := by
  unfold receive
  split
  · rename_i hsource
    rw [hsource] at h
    exact (List.forall_mem_cons.1 h).2
  all_goals exact h

/-- Whatever the client does with a link, what it may still give comes from the same response. -/
theorem brings_of_reached [Message Req] (horigin : origin.source.Brings property) (h : Reached origin feed) :
    feed.source.Brings property := by
  induction h with
  | origin => exact horigin
  | send request time _ ih => exact brings_send ih request time
  | closeSend _ ih => exact brings_closeSend ih
  | reset _ _ => exact nofun
  | receive time _ ih => exact brings_receive ih time
  | advance _ _ ih => exact ih

theorem brings [Message Req] (horigin : origin.source.Brings property) : Link.Brings property origin := by
  intro feed rest time event hreached hreceive
  have hfeed := brings_of_reached horigin hreached
  change feed.receive time = _ at hreceive
  unfold receive at hreceive
  split at hreceive
  · rename_i hsource
    cases hreceive
    rw [hsource] at hfeed
    exact hfeed event List.mem_cons_self
  all_goals cases hreceive

end Feed

namespace Call

variable {L Req Res : Type} [Link L Req Res] {headers trailers : Metadata → Prop} {origin : L}
  {deadline : Option Nat} {call : Call L}

/-- What the client has been shown of a call has the properties of headers and of trailers. -/
structure Shows (headers trailers : Metadata → Prop) (call : Call L) : Prop where
  headers : ∀ metadata, call.headers = some metadata → headers metadata
  trailers : ∀ metadata, call.trailers = some metadata → trailers metadata

theorem shows_opened (origin : L) (deadline : Option Nat) : (opened origin deadline).Shows headers trailers :=
  ⟨nofun, nofun⟩

theorem Shows.expire (h : call.Shows headers trailers) : call.expire.Shows headers trailers := by
  rw [Call.expire]
  split <;> exact ⟨h.headers, h.trailers⟩

theorem Shows.closeSend (h : call.Shows headers trailers) : call.closeSend.Shows headers trailers := by
  rw [Call.closeSend]
  split <;> exact ⟨h.headers, h.trailers⟩

theorem Shows.timeUp {α : Type} (h : call.Shows headers trailers) (limit : Nat) :
    (call.timeUp (α := α) limit).2.Shows headers trailers := by
  rw [Call.timeUp]
  repeat' split
  all_goals exact ⟨h.headers, h.trailers⟩

theorem Shows.send (h : call.Shows headers trailers) (request : Req) (limit : Nat) :
    (call.send request limit).2.Shows headers trailers := by
  have hexpire := h.expire
  have hlink (link : L) : { call.expire with link }.Shows headers trailers := ⟨hexpire.headers, hexpire.trailers⟩
  unfold Call.send
  simp only
  split
  · exact hexpire
  · split
    · split
      · exact hlink _
      · exact hlink _
      · exact (hlink _).timeUp limit
    · exact hexpire

theorem getD_of_shown {property : Metadata → Prop} (hempty : property .empty) {shown : Option Metadata}
    (h : ∀ metadata, shown = some metadata → property metadata) : property (shown.getD .empty) := by
  cases shown with
  | none => exact hempty
  | some metadata => exact h metadata rfl

section Gathering

variable (hgathered : Metadata.Gathered headers) (hbrings : Link.Brings (Event.Shows headers trailers) origin)
  (hsound : Sound origin deadline call)

include hgathered hbrings hsound

theorem Shows.listen (h : call.Shows headers trailers) (limit : Nat) :
    (call.listen limit).2.Shows headers trailers := by
  fun_induction Call.listen call limit with
  | case1 | case7 => exact h
  | case2 call hnone hlistening metadata link hreceive ih =>
    have hmetadata : headers metadata := hbrings _ _ _ _ hsound.reached hreceive
    refine ih { reached := hsound.reached.of_receive hreceive, deadline_eq := hsound.deadline_eq
                listening := hsound.listening, closed := hsound.closed, cause := hsound.cause } ⟨?_, h.trailers⟩
    rintro _ ⟨⟩
    exact hgathered.extend (getD_of_shown hgathered.empty h.headers) hmetadata
  | case3 => exact ⟨h.headers, h.trailers⟩
  | case4 call hnone hlistening outcome metadata link hreceive =>
    have hmetadata : trailers metadata := hbrings _ _ _ _ hsound.reached hreceive
    constructor
    · rintro _ ⟨⟩
      exact getD_of_shown hgathered.empty h.headers
    · rintro _ ⟨⟩
      exact hmetadata
  | case5 => exact ⟨h.headers, h.trailers⟩
  | case6 call hnone hlistening link hreceive =>
    have hlink : { call with link }.Shows headers trailers := ⟨h.headers, h.trailers⟩
    exact hlink.timeUp limit

theorem Shows.receive (h : call.Shows headers trailers) (limit : Nat) :
    (call.receive limit).2.Shows headers trailers :=
  Shows.listen hgathered hbrings hsound.expire h.expire limit

theorem Shows.after (h : call.Shows headers trailers) (operation : Operation Req) :
    (call.after operation).Shows headers trailers := by
  cases operation with
  | send request limit => exact h.send request limit
  | closeSend => exact h.closeSend
  | receive limit => exact h.receive hgathered hbrings hsound limit
  | cancel => exact ⟨h.headers, h.trailers⟩
  | wait time => exact ⟨h.headers, h.trailers⟩

omit hsound in
theorem Shows.afterAll (hsound : Sound origin deadline call) (h : call.Shows headers trailers)
    (operations : List (Operation Req)) : (call.afterAll operations).Shows headers trailers := by
  induction operations generalizing call with
  | nil => exact h
  | cons operation operations ih =>
    exact ih (hsound.after operation) (h.after hgathered hbrings hsound operation)

theorem Shows.response (hempty : trailers .empty) (h : call.Shows headers trailers) {limit : Nat}
    {response : Response Res} {rest : Call L} (hresponse : call.closeAndReceive limit = (.ok response, rest)) :
    headers response.headers ∧ trailers response.trailers := by
  have hfirst := h.closeSend.receive hgathered hbrings hsound.closeSend limit
  have hsecond := hfirst.receive hgathered hbrings (hsound.closeSend.receive limit) limit
  unfold closeAndReceive at hresponse
  split at hresponse
  · cases hresponse
  · cases hresponse
  · rename_i hmessage
    rw [hmessage] at hsecond
    split at hresponse
    · cases hresponse
    · cases hresponse
    · rename_i hend
      rw [hend] at hsecond
      cases hresponse
      exact ⟨getD_of_shown hgathered.empty hsecond.headers, getD_of_shown hempty hsecond.trailers⟩

omit hgathered hbrings hsound in
theorem sendOnly_snd (call : Call L) (request : Req) (limit : Nat) :
    (call.sendOnly request limit).2 = (call.send request limit).2 := by
  unfold sendOnly
  split
  · rename_i hsend
    rw [hsend]
  · rfl

theorem Shows.unary (hempty : trailers .empty) (h : call.Shows headers trailers) {request : Req} {limit : Nat}
    {response : Response Res} {rest : Call L} (hunary : call.unary request limit = (.ok response, rest)) :
    headers response.headers ∧ trailers response.trailers := by
  have hsoundSent := hsound.send request limit
  have hsent := h.send request limit
  rw [← sendOnly_snd] at hsoundSent hsent
  unfold Call.unary at hunary
  split at hunary
  · rename_i honly
    rw [honly] at hsoundSent hsent
    exact hsent.response hgathered hbrings hsoundSent hempty hunary
  · cases hunary

end Gathering

end Call
end Client
end RpcConformance
