import RpcConformance.Proofs.Client.Exchange
/-!
When a response tells that its call ended well. Up to there its body is read as messages, one for each
envelope (`ofEnvelopes_cases`). Then comes an envelope that tells the end, or there are trailers that do;
whether a frame had begun before the trailers is not looked at (`succeeds_iff`). A body that simply stops
never tells a good end.
-/
namespace RpcConformance.Client.Exchange

open Http Envelope

variable {Res : Type} [Message Res]

theorem ofEnvelope_cases (protocol : Protocol) (codec : Codec) (envelope : Envelope) :
    (∃ message : Res, envelope.flags = messageFlags ∧ codec.decode envelope.payload = .ok message ∧
      ofEnvelope protocol codec envelope = .message message) ∨
    ∃ outcome trailers, (ofEnvelope protocol codec envelope : Event Res) = .ended outcome trailers := by
  have hfailed (status : Status) : ∃ outcome trailers, (failed status : Event Res) = .ended outcome trailers :=
    ⟨_, _, rfl⟩
  rw [ofEnvelope]
  split
  · rename_i hflags
    split
    · rename_i message hdecode
      exact .inl ⟨message, hflags, hdecode, rfl⟩
    · exact .inr (hfailed _)
  · refine .inr ?_
    split
    · rw [endOfStream]
      split
      · exact ⟨_, _, rfl⟩
      · exact hfailed _
    · split
      · rw [endOfBlock]
        split
        · exact ⟨_, _, rfl⟩
        · exact hfailed _
      · exact hfailed _

/-- Payloads that are read as messages. -/
def Holds (codec : Codec) (sent : List (Res × Bytes)) : Prop :=
  ∀ pair ∈ sent, codec.decode pair.2 = .ok pair.1

/-- Envelopes are messages up to one that ends the call, or they are messages altogether. -/
theorem ofEnvelopes_cases (protocol : Protocol) (codec : Codec) (envelopes : List Envelope) :
    ∃ sent : List (Res × Bytes), Holds codec sent ∧
      ((∃ marker more outcome trailers,
          envelopes = (sent.map Prod.snd).map (Envelope.mk messageFlags) ++ marker :: more ∧
          (ofEnvelope protocol codec marker : Event Res) = .ended outcome trailers ∧
          ofEnvelopes protocol codec envelopes =
            ((sent.map Prod.fst).map .message ++ [.ended outcome trailers], true)) ∨
        (envelopes = (sent.map Prod.snd).map (Envelope.mk messageFlags) ∧
          ofEnvelopes protocol codec envelopes = ((sent.map Prod.fst).map .message, false))) := by
  induction envelopes with
  | nil => exact ⟨[], by simp [Holds], .inr ⟨rfl, rfl⟩⟩
  | cons envelope envelopes ih =>
    rcases @ofEnvelope_cases Res _ protocol codec envelope with
      ⟨message, hflags, hdecode, hevent⟩ | ⟨outcome, trailers, hevent⟩
    · obtain ⟨sent, hholds, hrest⟩ := ih
      have henvelope : envelope = ⟨messageFlags, envelope.payload⟩ := by rw [← hflags]
      refine ⟨(message, envelope.payload) :: sent, List.forall_mem_cons.mpr ⟨hdecode, hholds⟩, ?_⟩
      rcases hrest with ⟨marker, more, outcome, trailers, henvelopes, hmarker, hevents⟩ | ⟨henvelopes, hevents⟩
      · refine .inl ⟨marker, more, outcome, trailers, ?_, hmarker, ?_⟩
        · rw [henvelopes, List.map_cons, List.map_cons, List.cons_append, ← henvelope]
        · rw [ofEnvelopes, hevent]
          simp only [hevents, List.map_cons, List.cons_append]
      · refine .inr ⟨?_, ?_⟩
        · rw [List.map_cons, List.map_cons, ← henvelopes, ← henvelope]
        · rw [ofEnvelopes, hevent]
          simp only [hevents, List.map_cons]
    · refine ⟨[], by simp [Holds], .inl ⟨envelope, envelopes, outcome, trailers, rfl, hevent, ?_⟩⟩
      rw [ofEnvelopes, hevent]
      rfl

/-- What the last event of a body is read from, after the messages. -/
inductive Last (Res : Type) [Message Res] (protocol : Protocol) (codec : Codec) (failure : Option String) :
    Bytes → Option HeaderMap → Event Res → Prop
  /-- An envelope ends the call; what comes after it is not looked at. -/
  | envelope {marker : Envelope} (more : Bytes) (fields : Option HeaderMap)
      (compressed : isCompressed marker.flags = false) (length : marker.payload.length < lengthBound)
      {outcome : Outcome} {trailers : Metadata}
      (ends : (ofEnvelope protocol codec marker : Event Res) = .ended outcome trailers) :
      Last Res protocol codec failure (marker.toBytes ++ more) fields (.ended outcome trailers)
  /-- No envelope can be taken from the bytes. -/
  | broken {part : Bytes} (fields : Option HeaderMap) {error : Envelope.Error}
      (breaks : Decoder.next ⟨.unlimited, part⟩ = .error error) :
      Last Res protocol codec failure part fields (failed error.status)
  /-- The body is over and there are trailers. -/
  | trailers {part : Bytes} (headers : HeaderMap) (begun : Decoder.next ⟨.unlimited, part⟩ = .ok none) :
      Last Res protocol codec failure part (some headers) (endOfTrailers headers)
  /-- The body stops without trailers. -/
  | stopped {part : Bytes} (begun : Decoder.next ⟨.unlimited, part⟩ = .ok none) :
      Last Res protocol codec failure part none (endOfBody ⟨.unlimited, part⟩ failure)

/-- A body of messages is read as these messages and the one event that comes last. -/
theorem ofDrained_of_last {protocol : Protocol} {codec : Codec} {failure : Option String}
    {fields : Option HeaderMap} {rest : Bytes} {last : Event Res} {sent : List (Res × Bytes)}
    (hholds : Holds codec sent) (hlengths : ∀ body ∈ sent.map Prod.snd, body.length < lengthBound)
    (hlast : Last Res protocol codec failure rest fields last) :
    ofDrained protocol codec failure fields
        (Decoder.drain ⟨.unlimited, (sent.map Prod.snd).flatMap (wrap messageFlags) ++ rest⟩) =
      (sent.map Prod.fst).map .message ++ [last] := by
  have hmessages := ofEnvelopes_messages protocol hholds
  rw [Decoder.drain_wraps rfl hlengths]
  cases hlast with
  | @envelope marker more _ hcompressed hlength outcome trailers hends =>
    have hmarker (later : List Envelope) :
        ofEnvelopes protocol codec (marker :: later) = ([(.ended outcome trailers : Event Res)], true) := by
      rw [ofEnvelopes, hends]
    have hnext := Decoder.next_wrap_of_lt hcompressed hlength (Limit.allows_unlimited _) more
    rw [toBytes, Decoder.drain_of_some hnext]
    unfold ofDrained
    simp only [ofEnvelopes_append_of_open hmessages (hmarker _), if_true, List.append_nil]
  | broken _ hbreaks =>
    rw [Decoder.drain_of_error hbreaks]
    unfold ofDrained
    simp only [List.append_nil, hmessages, Bool.false_eq_true, if_false]
  | trailers headers hbegun =>
    rw [Decoder.drain_of_none hbegun]
    unfold ofDrained
    simp only [List.append_nil, hmessages, Bool.false_eq_true, if_false]
  | stopped hbegun =>
    rw [Decoder.drain_of_none hbegun]
    unfold ofDrained
    simp only [List.append_nil, hmessages, Bool.false_eq_true, if_false]

theorem exists_last (protocol : Protocol) (codec : Codec) (failure : Option String) (fields : Option HeaderMap)
    (bytes : Bytes) :
    ∃ (sent : List (Res × Bytes)) (rest : Bytes) (last : Event Res),
      Holds codec sent ∧ (∀ body ∈ sent.map Prod.snd, body.length < lengthBound) ∧
        bytes = (sent.map Prod.snd).flatMap (wrap messageFlags) ++ rest ∧
        Last Res protocol codec failure rest fields last := by
  obtain ⟨⟨envelopes, error, rest⟩, hdrain⟩ : ∃ drained, Decoder.drain ⟨.unlimited, bytes⟩ = drained := ⟨_, rfl⟩
  obtain ⟨hbytes, hlengths⟩ := Decoder.buffer_of_drain hdrain
  change bytes = _ at hbytes
  have hrest : rest = ⟨.unlimited, rest.buffer⟩ := by
    have hlimit := Decoder.limit_of_drain hdrain
    cases rest
    cases hlimit
    rfl
  have hwritten (sent : List (Res × Bytes)) : ((sent.map Prod.snd).map (Envelope.mk messageFlags)).flatMap toBytes =
      (sent.map Prod.snd).flatMap (wrap messageFlags) := List.flatMap_map ..
  have hsent {sent : List (Res × Bytes)} {more : List Envelope}
      (henvelopes : envelopes = (sent.map Prod.snd).map (Envelope.mk messageFlags) ++ more) :
      ∀ body ∈ sent.map Prod.snd, body.length < lengthBound := fun body hbody =>
    hlengths ⟨messageFlags, body⟩ (henvelopes ▸ List.mem_append_left _ (List.mem_map_of_mem hbody))
  obtain ⟨sent, hholds, ⟨marker, more, outcome, trailers, henvelopes, hmarker, -⟩ | ⟨henvelopes, -⟩⟩ :=
    @ofEnvelopes_cases Res _ protocol codec envelopes
  · -- An envelope ended the call.
    have hmem : marker ∈ envelopes := henvelopes ▸ List.mem_append_right _ List.mem_cons_self
    refine ⟨sent, marker.toBytes ++ (more.flatMap toBytes ++ rest.buffer), _, hholds, hsent henvelopes, ?_,
      .envelope _ fields (Decoder.isCompressed_of_drain hdrain marker hmem) (hlengths marker hmem) hmarker⟩
    rw [hbytes, henvelopes, List.flatMap_append, List.flatMap_cons, hwritten]
    simp only [List.append_assoc]
  · -- No envelope did: the messages are all that could be taken.
    have hall : bytes = (sent.map Prod.snd).flatMap (wrap messageFlags) ++ rest.buffer := by
      rw [hbytes, henvelopes, hwritten]
    have hlengths' := hsent (henvelopes.trans (List.append_nil _).symm)
    cases error with
    | some error =>
      exact ⟨sent, _, _, hholds, hlengths', hall, .broken fields (hrest ▸ Decoder.next_of_drain_error hdrain)⟩
    | none =>
      have hbegun : Decoder.next ⟨.unlimited, rest.buffer⟩ = .ok none := hrest ▸ Decoder.next_of_drain hdrain
      cases fields with
      | some headers => exact ⟨sent, _, _, hholds, hlengths', hall, .trailers headers hbegun⟩
      | none => exact ⟨sent, _, _, hholds, hlengths', hall, .stopped hbegun⟩

/-- Where the end of a call that went well stands in a body, after its messages. -/
inductive Closing (Res : Type) [Message Res] (protocol : Protocol) (codec : Codec) (trailers : Metadata) :
    Bytes → Option HeaderMap → Prop
  /-- An envelope tells it; what comes after that envelope is not looked at. -/
  | envelope {marker : Envelope} (more : Bytes) (fields : Option HeaderMap)
      (length : marker.payload.length < lengthBound)
      (tells : (ofEnvelope protocol codec marker : Event Res) = .ended (.ok ()) trailers) :
      Closing Res protocol codec trailers (marker.toBytes ++ more) fields
  /-- The trailers tell it; before them a frame may have begun that is not complete. -/
  | trailers {part : Bytes} {headers : HeaderMap} (begun : Decoder.next ⟨.unlimited, part⟩ = .ok none)
      (tells : (endOfTrailers headers : Event Res) = .ended (.ok ()) trailers) :
      Closing Res protocol codec trailers part (some headers)

theorem isCompressed_of_ok {protocol : Protocol} {codec : Codec} {envelope : Envelope} {trailers : Metadata}
    (h : (ofEnvelope protocol codec envelope : Event Res) = .ended (.ok ()) trailers) :
    isCompressed envelope.flags = false := by
  rw [ofEnvelope] at h
  split at h
  · rename_i hflags
    rw [hflags]
    rfl
  · split at h
    · rename_i hflags
      rw [hflags.2]
      rfl
    · split at h
      · rename_i hflags
        rw [hflags.2]
        rfl
      · cases h

omit [Message Res] in
theorem endOfBody_ne_ok (decoder : Decoder) (failure : Option String) (trailers : Metadata) :
    (endOfBody decoder failure : Event Res) ≠ .ended (.ok ()) trailers := by
  unfold endOfBody
  split <;> simp [failed]

theorem closing_of_mem_ofDrained {protocol : Protocol} {codec : Codec} {failure : Option String}
    {fields : Option HeaderMap} {bytes : Bytes} {trailers : Metadata}
    (h : (.ended (.ok ()) trailers : Event Res) ∈
      ofDrained protocol codec failure fields (Decoder.drain ⟨.unlimited, bytes⟩)) :
    ∃ (sent : List (Res × Bytes)) (rest : Bytes),
      Holds codec sent ∧ (∀ body ∈ sent.map Prod.snd, body.length < lengthBound) ∧
        bytes = (sent.map Prod.snd).flatMap (wrap messageFlags) ++ rest ∧
        Closing Res protocol codec trailers rest fields := by
  obtain ⟨sent, rest, last, hholds, hlengths, hbytes, hlast⟩ :=
    @exists_last Res _ protocol codec failure fields bytes
  have hended : last = .ended (.ok ()) trailers := by
    rw [hbytes, ofDrained_of_last hholds hlengths hlast] at h
    simpa [@eq_comm _ _ last] using h
  refine ⟨sent, rest, hholds, hlengths, hbytes, ?_⟩
  cases hlast with
  | envelope more _ _ hlength hends => exact .envelope more _ hlength (hends.trans hended)
  | broken => cases hended
  | trailers headers hbegun => exact .trailers hbegun hended
  | stopped => exact absurd hended (endOfBody_ne_ok _ _ _)

theorem ofDrained_of_closing {protocol : Protocol} {codec : Codec} (failure : Option String)
    {fields : Option HeaderMap} {rest : Bytes} {trailers : Metadata} {sent : List (Res × Bytes)}
    (hholds : Holds codec sent) (hlengths : ∀ body ∈ sent.map Prod.snd, body.length < lengthBound)
    (hclosing : Closing Res protocol codec trailers rest fields) :
    ofDrained protocol codec failure fields
        (Decoder.drain ⟨.unlimited, (sent.map Prod.snd).flatMap (wrap messageFlags) ++ rest⟩) =
      (sent.map Prod.fst).map .message ++ [.ended (.ok ()) trailers] := by
  have hlast : Last Res protocol codec failure rest fields (.ended (.ok ()) trailers) := by
    cases hclosing with
    | envelope more _ hlength htells => exact .envelope more _ (isCompressed_of_ok htells) hlength htells
    | trailers hbegun htells => exact htells ▸ .trailers _ hbegun
  exact ofDrained_of_last hholds hlengths hlast

theorem events_of_told {protocol : Protocol} (codec : Codec) {response : Http.Response} {outcome : Outcome}
    (hstatus : response.status = 200) (hended : endOfHeaders? protocol response.headers = some outcome) :
    (events protocol codec response : List (Event Res)) = [.ended outcome (.ofHeaders response.headers)] := by
  rw [events, if_neg (not_not_intro hstatus), hended]

/-- The events of a response whose headers do not end the call follow from the content of its body. -/
theorem events_of_open (protocol : Protocol) (codec : Codec) {response : Http.Response}
    (hstatus : response.status = 200) (hopen : endOfHeaders? protocol response.headers = none) :
    (events protocol codec response : List (Event Res)) = .headers (.ofHeaders response.headers) ::
      ofDrained protocol codec response.failure (content response.body).2
        (Decoder.drain ⟨.unlimited, (content response.body).1⟩) := by
  rw [events, if_neg (not_not_intro hstatus), hopen, ofFrames_eq protocol codec _ (Decoder.next_start _)]
  rfl

/-- A response whose end is in its body is reported to have gone well just when its body is messages, each
in a whole envelope, and then an envelope that tells a good end, or else anything that holds no whole
envelope, with trailers after it that tell a good end. -/
theorem succeeds_iff (protocol : Protocol) (codec : Codec) {response : Http.Response}
    (hstatus : response.status = 200) (hopen : endOfHeaders? protocol response.headers = none)
    (trailers : Metadata) :
    (.ended (.ok ()) trailers : Event Res) ∈ events protocol codec response ↔
      ∃ (sent : List (Res × Bytes)) (rest : Bytes),
        Holds codec sent ∧ (∀ body ∈ sent.map Prod.snd, body.length < lengthBound) ∧
          (content response.body).1 = (sent.map Prod.snd).flatMap (wrap messageFlags) ++ rest ∧
          Closing Res protocol codec trailers rest (content response.body).2 := by
  rw [events_of_open protocol codec hstatus hopen, List.mem_cons]
  constructor
  · rintro (h | h)
    · cases h
    · exact closing_of_mem_ofDrained h
  · rintro ⟨sent, rest, hholds, hlengths, hbytes, hclosing⟩
    refine .inr ?_
    rw [hbytes, ofDrained_of_closing _ hholds hlengths hclosing]
    exact List.mem_append_right _ List.mem_cons_self

def goodTrailers : HeaderMap := HeaderMap.empty.insert Trailers.statusField [0x30]

omit [Message Res] in
theorem endOfTrailers_goodTrailers : (endOfTrailers goodTrailers : Event Res) = .ended (.ok ()) .empty := rfl

theorem endOfHeaders?_empty (protocol : Protocol) : endOfHeaders? protocol .empty = none := by
  cases protocol <;> rfl

def oneMessage : Http.Response := ⟨200, .empty, [.data [0, 0, 0], .data [0, 0], .trailers goodTrailers], none⟩

/-- One message and its trailers are a call that went well. -/
theorem succeeds_oneMessage :
    (.ended (.ok ()) .empty : Event Empty) ∈ events .grpc .proto oneMessage := by
  have hstatus : oneMessage.status = 200 := rfl
  have hopen : endOfHeaders? .grpc oneMessage.headers = none := endOfHeaders?_empty .grpc
  have hholds : Holds .proto [(({} : Empty), [])] := by
    simp only [Holds, List.mem_singleton, forall_eq]
    rfl
  exact (succeeds_iff .grpc .proto hstatus hopen .empty).mpr
    ⟨_, [], hholds, by decide, rfl, .trailers rfl endOfTrailers_goodTrailers⟩

def beginning : Bytes := [0, 0, 0, 0, 5, 0xaa]

/-- A response that stops inside a frame and goes on with its trailers. -/
def cutShort : Http.Response := ⟨200, .empty, [.data beginning, .trailers goodTrailers], none⟩

theorem next_beginning : Decoder.next ⟨.unlimited, beginning⟩ = .ok none := by
  have hheader : readHeader? beginning = some (messageFlags, 5) := by decide
  simp only [Decoder.next, hheader, Limit.allows, Limit.unlimited, if_true]
  rfl

theorem beginning_not_whole (envelopes : List Envelope) : beginning ≠ envelopes.flatMap toBytes := by
  cases envelopes with
  | nil => simp [beginning]
  | cons envelope envelopes =>
    intro h
    simp only [beginning, List.flatMap_cons, toBytes, wrap, wordBytes, List.cons_append, List.nil_append,
      List.cons.injEq, ← UInt8.toNat_inj, Nat.toUInt8_eq, UInt8.toNat_ofNat', UInt8.reduceToNat] at h
    obtain ⟨-, -, -, -, hlength, hpayload⟩ := h
    have hsize := congrArg List.length hpayload
    simp only [List.length_append, List.length_cons, List.length_nil] at hsize
    omega

/-- A call is reported to have gone well although its only frame was cut short: where trailers come, what
is left of the body is not looked at. -/
theorem cutShort_succeeds :
    (.ended (.ok ()) .empty : Event Empty) ∈ events .grpc .proto cutShort ∧
      ¬∃ envelopes : List Envelope, (content cutShort.body).1 = envelopes.flatMap toBytes := by
  have hstatus : cutShort.status = 200 := rfl
  have hopen : endOfHeaders? .grpc cutShort.headers = none := endOfHeaders?_empty .grpc
  have hcontent : content cutShort.body = (beginning, some goodTrailers) := rfl
  constructor
  · have hdrained : (ofDrained .grpc .proto cutShort.failure (some goodTrailers) ([], none, ⟨.unlimited, beginning⟩) :
        List (Event Empty)) = [endOfTrailers goodTrailers] := rfl
    rw [events_of_open .grpc .proto hstatus hopen, hcontent, Decoder.drain_of_none next_beginning, hdrained,
      endOfTrailers_goodTrailers]
    exact List.mem_cons_of_mem _ List.mem_cons_self
  · rintro ⟨envelopes, h⟩
    exact beginning_not_whole envelopes h

end RpcConformance.Client.Exchange
