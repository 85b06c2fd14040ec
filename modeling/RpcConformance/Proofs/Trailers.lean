import RpcConformance.Proofs.Metadata.Header
import RpcConformance.Proofs.Text.Trim
import RpcConformance.Trailers
/-!
The fields at the end of a call tell how it ended and carry the trailing metadata (`ofEnd_spec`), and the
outcome depends on nothing else among them (`readStatus?_congr`).
-/
namespace RpcConformance.Trailers

/-- An outcome that can be told on the wire: a failure does not have the code of success. -/
def Tellable (outcome : Outcome) : Prop := ∀ status, outcome = .error status → status.code ≠ .ok

theorem readCode?_number (code : Code) :
    readCode? (Bytes.ofString (Text.Decimal.render code.number)) = some code := by
  cases code <;> rfl

theorem statusField_ne_messageField : statusField ≠ messageField := by decide

/-- Whatever a message says, its written form can be the value of a field. -/
theorem isValue_encode (message : String) : HeaderMap.isValue (Text.Percent.encode message) = true :=
  HeaderMap.isValue_of_visible fun _ hb => Text.Percent.space_le_of_mem_encode hb

theorem writeStatus_eq (headers : HeaderMap) (outcome : Outcome) :
    writeStatus headers outcome =
      let headers := headers.insert statusField (Bytes.ofString (Text.Decimal.render (outcomeNumber outcome)))
      if outcomeMessage outcome = "" then headers
      else headers.insert messageField (Text.Percent.encode (outcomeMessage outcome)) := by
  simp only [writeStatus, isValue_encode, if_true]

theorem distinct_writeStatus {headers : HeaderMap} (h : headers.Distinct) (outcome : Outcome) :
    (writeStatus headers outcome).Distinct := by
  rw [writeStatus_eq]
  split
  · exact h.insert _ _
  · exact (h.insert _ _).insert _ _

theorem getAll_status (headers : HeaderMap) (outcome : Outcome) :
    (writeStatus headers outcome).getAll statusField =
      [Bytes.ofString (Text.Decimal.render (outcomeNumber outcome))] := by
  rw [writeStatus_eq]
  split
  · exact HeaderMap.getAll_insert_self _ _ _
  · rw [HeaderMap.getAll_insert_of_ne _ statusField_ne_messageField.symm]
    exact HeaderMap.getAll_insert_self _ _ _

theorem getAll_message (outcome : Outcome) :
    (writeStatus .empty outcome).getAll messageField =
      if outcomeMessage outcome = "" then [] else [Text.Percent.encode (outcomeMessage outcome)] := by
  rw [writeStatus_eq]
  by_cases hempty : outcomeMessage outcome = ""
  · rw [if_pos hempty, if_pos hempty]
    exact HeaderMap.getAll_insert_of_ne _ statusField_ne_messageField _
  · rw [if_neg hempty, if_neg hempty]
    exact HeaderMap.getAll_insert_self _ _ _

theorem getAll_writeStatus_of_ne {name : String} (hstatus : name ≠ statusField) (hmessage : name ≠ messageField)
    (outcome : Outcome) : (writeStatus .empty outcome).getAll name = [] := by
  rw [writeStatus_eq]
  split
  · exact HeaderMap.getAll_insert_of_ne _ hstatus.symm _
  · rw [HeaderMap.getAll_insert_of_ne _ hmessage.symm]
    exact HeaderMap.getAll_insert_of_ne _ hstatus.symm _

@[simp] theorem mapError_ok (change : Status → Status) (done : Unit) :
    (Except.ok done : Outcome).mapError change = .ok done := rfl

@[simp] theorem mapError_error (change : Status → Status) (status : Status) :
    (Except.error status : Outcome).mapError change = .error (change status) := rfl

theorem getAll_writeStatus_of_free {name : String} (h : Metadata.isReserved name = false) (outcome : Outcome) :
    (writeStatus .empty outcome).getAll name = [] := by
  apply getAll_writeStatus_of_ne
  · rintro rfl
    cases h
  · rintro rfl
    cases h

/-- Fields with the number of an outcome say that outcome, with the message that stands among them. -/
theorem readStatus?_of_number {headers : HeaderMap} {outcome : Outcome} (h : Tellable outcome)
    (hnumber : headers.get? statusField = some (Bytes.ofString (Text.Decimal.render (outcomeNumber outcome)))) :
    readStatus? headers = some (outcome.mapError fun status =>
      ⟨status.code, ((headers.get? messageField).map Text.Percent.decode).getD ""⟩) := by
  rw [readStatus?, hnumber, Option.map_some]
  cases outcome with
  | ok =>
    rw [outcomeNumber, readCode?_number]
    rfl
  | error status =>
    have hcode := h status rfl
    rw [outcomeNumber, readCode?_number]
    simp only
    rfl

theorem readStatus?_eq_some {headers : HeaderMap} {outcome : Outcome} (h : Tellable outcome)
    (hstatus : headers.getAll statusField = (writeStatus .empty outcome).getAll statusField)
    (hmessage : headers.getAll messageField = (writeStatus .empty outcome).getAll messageField) :
    readStatus? headers = some outcome := by
  rw [getAll_status] at hstatus
  rw [getAll_message] at hmessage
  have hnumber : headers.get? statusField = some (Bytes.ofString (Text.Decimal.render (outcomeNumber outcome))) := by
    rw [HeaderMap.get?, hstatus, List.head?_cons]
  have htext : ((headers.get? messageField).map Text.Percent.decode).getD "" = outcomeMessage outcome := by
    rw [HeaderMap.get?, hmessage]
    by_cases hempty : outcomeMessage outcome = ""
    · rw [if_pos hempty, hempty]
      rfl
    · rw [if_neg hempty]
      simp
  rw [readStatus?_of_number h hnumber, htext]
  cases outcome <;> rfl

theorem readStatus?_congr {headers headers' : HeaderMap}
    (hstatus : headers.getAll statusField = headers'.getAll statusField)
    (hmessage : headers.getAll messageField = headers'.getAll messageField) :
    readStatus? headers = readStatus? headers' := by
  unfold readStatus? HeaderMap.get?
  rw [hstatus, hmessage]

theorem readStatus?_eq_none {headers : HeaderMap} (h : headers.getAll statusField = []) :
    readStatus? headers = none := by
  have hget : headers.get? statusField = none := by
    rw [HeaderMap.get?, h]
    rfl
  rw [readStatus?, hget]
  rfl

/-- The end of a call as fields: the outcome, and the trailing metadata that can be sent. -/
theorem getAll_ofEnd (outcome : Outcome) {trailers : Metadata} (htrailers : trailers.Sendable) :
    (ofEnd outcome trailers).Distinct ∧ ∀ key, (ofEnd outcome trailers).getAll key =
      (writeStatus .empty outcome).getAll key ++ (under key trailers.entries).map (Metadata.wire key) := by
  obtain ⟨written, hwrite, hdistinct, hvalues⟩ :=
    Metadata.write_of_sendable htrailers (distinct_writeStatus HeaderMap.distinct_empty outcome)
  have hself : ofEnd outcome trailers = written := by
    rw [ofEnd, ofOutcome, hwrite]
  rw [hself]
  exact ⟨hdistinct, hvalues⟩

theorem getAll_ofEnd_of_reserved (outcome : Outcome) {trailers : Metadata} (htrailers : trailers.Sendable)
    {key : String} (h : Metadata.isReserved key = true) :
    (ofEnd outcome trailers).getAll key = (writeStatus .empty outcome).getAll key := by
  rw [(getAll_ofEnd outcome htrailers).2, htrailers.under_reserved h]
  exact List.append_nil _

theorem getAll_ofEnd_of_free (outcome : Outcome) {trailers : Metadata} (htrailers : trailers.Sendable)
    {key : String} (h : Metadata.isReserved key = false) :
    (ofEnd outcome trailers).getAll key = (under key trailers.entries).map (Metadata.wire key) := by
  rw [(getAll_ofEnd outcome htrailers).2, getAll_writeStatus_of_free h, List.nil_append]

theorem ofEnd_spec {outcome : Outcome} {trailers : Metadata} (h : Tellable outcome)
    (htrailers : trailers.Sendable) :
    (ofEnd outcome trailers).Distinct ∧ readStatus? (ofEnd outcome trailers) = some outcome ∧
      ∀ key, Metadata.isReserved key = false →
        (ofEnd outcome trailers).getAll key = (under key trailers.entries).map (Metadata.wire key) :=
  ⟨(getAll_ofEnd outcome htrailers).1,
    readStatus?_eq_some h (getAll_ofEnd_of_reserved outcome htrailers (by decide))
      (getAll_ofEnd_of_reserved outcome htrailers (by decide)),
    fun _ hkey => getAll_ofEnd_of_free outcome htrailers hkey⟩

end RpcConformance.Trailers
