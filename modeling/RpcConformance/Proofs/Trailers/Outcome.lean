import RpcConformance.Proofs.Trailers
/-!
What the fields at the end of a call say of the outcome. Alone they say just the outcome, whatever its message
(`status_roundTrip`). Beside trailing metadata the code always gets through, and so does the message, unless there is
none: then a trailing entry under its name takes its place (`readStatus?_ofEnd`).
-/
namespace RpcConformance.Trailers

theorem printable_encode {message : String} {b : UInt8} (h : b ∈ Text.Percent.encode message) :
    0x20 ≤ b ∧ b ≤ 0x7e := by
  obtain ⟨hlow, hhigh⟩ := Text.Percent.space_le_of_mem_encode h
  refine ⟨hlow, ?_⟩
  rw [UInt8.le_iff_toNat_le]
  rw [UInt8.lt_iff_toNat_lt] at hhigh
  exact Nat.le_of_lt_succ hhigh

theorem get?_message (headers : HeaderMap) {status : Status} (h : status.message ≠ "") :
    (writeStatus headers (.error status)).get? messageField = some (Text.Percent.encode status.message) := by
  rw [writeStatus_eq, HeaderMap.get?]
  simp [outcomeMessage, h, HeaderMap.getAll_insert_self]

/-- Every message survives percent-encoding: its written form is printable ASCII, so it can be the value of a field and
is never left out, and it is read as the message again. So the fields that report an outcome are read as that outcome,
a success or a failure with whatever message. -/
theorem status_roundTrip :
    (∀ message, (∀ b ∈ Text.Percent.encode message, 0x20 ≤ b ∧ b ≤ 0x7e) ∧
      HeaderMap.isValue (Text.Percent.encode message) = true ∧
      Text.Percent.decode (Text.Percent.encode message) = message) ∧
    (∀ (headers : HeaderMap) (status : Status), status.message ≠ "" →
      (writeStatus headers (.error status)).get? messageField = some (Text.Percent.encode status.message)) ∧
    ∀ outcome, Tellable outcome → readStatus? (writeStatus .empty outcome) = some outcome := by
  refine ⟨fun message => ?_, fun headers status h => get?_message headers h, fun outcome houtcome => ?_⟩
  · exact ⟨fun b hb => printable_encode hb, isValue_encode message, Text.Percent.decode_encode message⟩
  · exact readStatus?_eq_some houtcome rfl rfl


def awkwardFailure : Outcome := .error ⟨.resourceExhausted, " 100%41\r\n\x7f\tsoirée ☺ 😈 %"⟩

theorem status_roundTrip_awkwardFailure :
    Tellable awkwardFailure ∧ readStatus? (writeStatus .empty awkwardFailure) = some awkwardFailure := by
  have htellable : Tellable awkwardFailure := by
    rintro status ⟨⟩
    exact nofun
  exact ⟨htellable, status_roundTrip.2.2 awkwardFailure htellable⟩

def added (trailers : Metadata) : HeaderMap :=
  match trailers.write .empty with
  | (headers, .ok ()) => headers
  | (_, .error _) => .empty

def strayMessage (trailers : Metadata) : String :=
  (((added trailers).get? messageField).map Text.Percent.decode).getD ""

/-- The end of a call as fields: first those of the outcome, then those that the trailing metadata adds. -/
theorem getAll_ofEnd_added (outcome : Outcome) (trailers : Metadata) (name : String) :
    (ofEnd outcome trailers).getAll name = (writeStatus .empty outcome).getAll name ++ (added trailers).getAll name := by
  obtain ⟨hsame, hvalues⟩ := trailers.write_behind (writeStatus .empty outcome)
  have hvalues := hvalues name
  rw [ofEnd, ofOutcome, added]
  generalize trailers.write (writeStatus .empty outcome) = behind at hsame hvalues
  generalize trailers.write .empty = alone at hsame hvalues
  obtain ⟨fields, result⟩ := behind
  obtain ⟨fields', result'⟩ := alone
  obtain rfl : result = result' := hsame
  cases result with
  | ok => exact hvalues
  | error status => exact (List.append_nil _).symm

theorem readStatus?_added {outcome : Outcome} (h : Tellable outcome) (trailers : Metadata) :
    readStatus? (ofEnd outcome trailers) = some (outcome.mapError fun status =>
      ⟨status.code, if status.message = "" then strayMessage trailers else status.message⟩) := by
  have hnumber : (ofEnd outcome trailers).get? statusField =
      some (Bytes.ofString (Text.Decimal.render (outcomeNumber outcome))) := by
    rw [HeaderMap.get?, getAll_ofEnd_added, getAll_status]
    rfl
  have hmessage : (((ofEnd outcome trailers).get? messageField).map Text.Percent.decode).getD "" =
      if outcomeMessage outcome = "" then strayMessage trailers else outcomeMessage outcome := by
    rw [HeaderMap.get?, getAll_ofEnd_added, getAll_message]
    by_cases hempty : outcomeMessage outcome = ""
    · simp [hempty, strayMessage, HeaderMap.get?]
    · simp [hempty]
  rw [readStatus?_of_number h hnumber, hmessage]
  cases outcome <;> rfl

/-- The fields at the end of a call tell the outcome whatever the trailing metadata is: the code always, and the message
if there is one. Instead of an empty message an entry of the metadata under its name is read, so the outcome itself is
read just when it is a success, or has a message, or no such entry says anything. -/
theorem readStatus?_ofEnd {outcome : Outcome} (h : Tellable outcome) (trailers : Metadata) :
    readStatus? (ofEnd outcome trailers) = some (outcome.mapError fun status =>
      ⟨status.code, if status.message = "" then strayMessage trailers else status.message⟩) ∧
    (readStatus? (ofEnd outcome trailers) = some outcome ↔
      ∀ status, outcome = .error status → status.message = "" → strayMessage trailers = "") := by
  have hread := readStatus?_added h trailers
  refine ⟨hread, ?_⟩
  rw [hread]
  cases outcome with
  | ok => simp
  | error status =>
    obtain ⟨code, message⟩ := status
    by_cases hempty : message = "" <;> simp [hempty]

def strayTrailers : Metadata := .single messageField [0x78]

def loudFailure : Outcome := .error ⟨.unknown, "boom"⟩

def silentFailure : Outcome := .error ⟨.unknown, ""⟩

theorem tellable_unknown (message : String) : Tellable (.error ⟨.unknown, message⟩) := by
  rintro status ⟨⟩
  exact nofun

/-- A message is not touched by what stands beside it. -/
theorem readStatus?_ofEnd_loudFailure :
    readStatus? (ofEnd loudFailure strayTrailers) = some loudFailure := by
  refine (readStatus?_ofEnd (tellable_unknown "boom") strayTrailers).2.mpr ?_
  rintro status ⟨⟩
  decide

theorem strayMessage_strayTrailers : strayMessage strayTrailers = "x" := by
  decide +kernel

/-- A failure that says nothing is read with what a trailing entry says. -/
theorem silentFailure_not_read :
    Tellable silentFailure ∧ readStatus? (ofEnd silentFailure strayTrailers) = some (.error ⟨.unknown, "x"⟩) ∧
      readStatus? (ofEnd silentFailure strayTrailers) ≠ some silentFailure := by
  have hread : readStatus? (ofEnd silentFailure strayTrailers) = some (.error ⟨.unknown, "x"⟩) := by
    simp [readStatus?_added (tellable_unknown ""), silentFailure, strayMessage_strayTrailers]
  refine ⟨tellable_unknown "", hread, ?_⟩
  rw [hread]
  simp [silentFailure]

end RpcConformance.Trailers
