import RpcConformance.Proofs.Trailers
/-!
Header fields as a block of lines are read back line by line (`decodeBlock_encodeBlock`); only the blanks
at the ends of a value are lost (`decodeBlock_spec`). The block at the end of a call therefore tells the
outcome and carries the trailing metadata up to such blanks (`decodeBlock_ofEnd`).
-/
namespace RpcConformance.Trailers

/-- A field that can stand on a line of its own. -/
structure Lined (field : String × Bytes) : Prop where
  name : HeaderMap.name? (Bytes.ofString field.1) = some field.1
  value : HeaderMap.isValue field.2 = true

instance (field : String × Bytes) : Decidable (Lined field) :=
  decidable_of_iff (_ ∧ _) ⟨fun h => ⟨h.1, h.2⟩, fun h => ⟨h.name, h.value⟩⟩

def lineOf (field : String × Bytes) : Bytes := Bytes.ofString field.1 ++ 0x3a :: 0x20 :: (field.2 ++ [0x0d])

/-- A value as it is read from its line. -/
def trimmed (value : Bytes) : Bytes := Text.trimWhere Text.isAsciiSpace value

theorem encodeBlock_eq (headers : HeaderMap) :
    encodeBlock headers = headers.fields.flatMap fun field => lineOf field ++ [0x0a] := by
  simp [encodeBlock, lineOf]

theorem isNameByte_spec {b : UInt8} : HeaderMap.isNameByte b = true →
    (b == 0x0a) = false ∧ (b != 0x3a) = true ∧ Text.isAsciiSpace b = false :=
  Bytes.forall_byte b (by decide +kernel)

theorem isValueByte_spec {b : UInt8} :
    (b == 0x09 || (0x20 ≤ b && b != 0x7f)) = true → (b == 0x0a) = false ∧ b ≠ 0x0d :=
  Bytes.forall_byte b (by decide +kernel)

variable {field : String × Bytes}

theorem Lined.nameByte (h : Lined field) {b : UInt8} (hb : b ∈ Bytes.ofString field.1) :
    (b == 0x0a) = false ∧ (b != 0x3a) = true ∧ Text.isAsciiSpace b = false :=
  isNameByte_spec ((HeaderMap.name?_eq_some_iff.1 h.name).2.1 b hb)

theorem not_feed_of_mem_lineOf (h : Lined field) {b : UInt8} (hb : b ∈ lineOf field) : (b == 0x0a) = false := by
  simp only [lineOf, List.mem_append, List.mem_cons, List.not_mem_nil, or_false] at hb
  rcases hb with hname | rfl | rfl | hvalue | rfl
  · exact (h.nameByte hname).1
  · rfl
  · rfl
  · exact (isValueByte_spec (List.all_eq_true.1 h.value b hvalue)).1
  · rfl

theorem splitOnP_encodeBlock {headers : HeaderMap} (h : ∀ field ∈ headers.fields, Lined field) :
    (encodeBlock headers).splitOnP (· == 0x0a) = headers.fields.map lineOf ++ [[]] := by
  rw [encodeBlock_eq]
  generalize headers.fields = fields at h
  induction fields with
  | nil => rfl
  | cons field fields ih =>
    have hfield : ∀ b ∈ lineOf field, (b == 0x0a) = false := fun b =>
      not_feed_of_mem_lineOf (h field List.mem_cons_self)
    have hfields := ih fun field hmem => h field (List.mem_cons_of_mem _ hmem)
    rw [List.flatMap_cons, List.append_assoc, List.singleton_append,
      List.splitOnP_append_cons_of_forall_mem hfield _ rfl, hfields]
    rfl

theorem withoutReturn_append (bytes : Bytes) : withoutReturn (bytes ++ [0x0d]) = bytes := by
  rw [withoutReturn, List.getLast?_concat, if_pos rfl, List.dropLast_concat]

theorem isValue_trimmed {value : Bytes} (h : HeaderMap.isValue value = true) :
    HeaderMap.isValue (trimmed value) = true :=
  List.all_eq_true.2 fun b hb => List.all_eq_true.1 h b (Text.mem_of_mem_trimWhere hb)

theorem readLine_lineOf (h : Lined field) (headers : HeaderMap) :
    readLine headers (lineOf field) = .ok (headers.append field.1 (trimmed field.2)) := by
  have hline : withoutReturn (lineOf field) = Bytes.ofString field.1 ++ 0x3a :: 0x20 :: field.2 := by
    rw [← withoutReturn_append (Bytes.ofString field.1 ++ 0x3a :: 0x20 :: field.2)]
    simp [lineOf]
  have hbefore : ∀ b ∈ Bytes.ofString field.1, (b != 0x3a) = true := fun b hb => (h.nameByte hb).2.1
  have hname : Text.trimWhere Text.isAsciiSpace (Bytes.ofString field.1) = Bytes.ofString field.1 :=
    Text.trimWhere_of_none fun b hb => (h.nameByte hb).2.2
  have hvalue : Text.trimWhere Text.isAsciiSpace (0x20 :: field.2) = trimmed field.2 := by
    rw [trimmed, Text.trimWhere, Text.trimWhere, List.dropWhile_cons_of_pos rfl]
  have hempty : ¬(Bytes.ofString field.1 ++ 0x3a :: 0x20 :: field.2).isEmpty = true := by simp
  have hcolon : (Bytes.ofString field.1 ++ 0x3a :: 0x20 :: field.2).contains 0x3a = true := by simp
  rw [readLine]
  simp only [hline, hempty, hcolon, List.takeWhile_append_of_pos hbefore, List.dropWhile_append_of_pos hbefore,
    List.takeWhile_cons_of_neg, List.dropWhile_cons_of_neg, bne_self_eq_false, Bool.false_eq_true, not_false_eq_true,
    List.append_nil, List.drop_one, List.tail_cons, hname, h.name, hvalue, isValue_trimmed h.value, if_true, if_false]

theorem decodeBlock_encodeBlock {headers : HeaderMap} (h : ∀ field ∈ headers.fields, Lined field) :
    decodeBlock (encodeBlock headers) =
      .ok (headers.fields.foldl (fun read field => read.append field.1 (trimmed field.2)) .empty) := by
  have hread (fields : List (String × Bytes)) (hfields : ∀ field ∈ fields, Lined field) (read : HeaderMap) :
      (fields.map lineOf ++ [[]]).foldlM readLine read =
        .ok (fields.foldl (fun read field => read.append field.1 (trimmed field.2)) read) := by
    induction fields generalizing read with
    | nil => rfl
    | cons field fields ih =>
      rw [List.map_cons, List.cons_append, List.foldlM_cons, readLine_lineOf (hfields field List.mem_cons_self)]
      exact ih (fun field hmem => hfields field (List.mem_cons_of_mem _ hmem)) _
  rw [decodeBlock, splitOnP_encodeBlock h, hread headers.fields h]

theorem getAll_foldl_append (change : Bytes → Bytes) (fields : List (String × Bytes)) {headers : HeaderMap}
    (hdistinct : headers.Distinct) :
    (fields.foldl (fun read field => read.append field.1 (change field.2)) headers).Distinct ∧
      ∀ name, (fields.foldl (fun read field => read.append field.1 (change field.2)) headers).getAll name =
        headers.getAll name ++ (under name fields).map change := by
  induction fields generalizing headers with
  | nil => exact ⟨hdistinct, fun name => (List.append_nil _).symm⟩
  | cons field fields ih =>
    obtain ⟨name, value⟩ := field
    obtain ⟨hdistinct', hvalues⟩ := ih (hdistinct.append name (change value))
    refine ⟨hdistinct', fun key => ?_⟩
    rw [List.foldl_cons, hvalues]
    by_cases hname : name = key
    · subst hname
      rw [HeaderMap.getAll_append_self, under_cons_self, List.map_cons, List.append_assoc, List.singleton_append]
    · rw [HeaderMap.getAll_append_of_ne _ hname, under_cons_of_ne hname]

/-- What a block is read as: under each name the values it was written with, without the blanks at their ends. -/
theorem decodeBlock_spec {headers : HeaderMap} (hdistinct : headers.Distinct)
    (h : ∀ field ∈ headers.fields, Lined field) :
    ∃ read, decodeBlock (encodeBlock headers) = .ok read ∧ read.Distinct ∧
      ∀ name, read.getAll name = (headers.getAll name).map trimmed := by
  obtain ⟨hread, hvalues⟩ := getAll_foldl_append trimmed headers.fields HeaderMap.distinct_empty
  refine ⟨_, decodeBlock_encodeBlock h, hread, fun name => ?_⟩
  rw [hvalues, HeaderMap.under_fields hdistinct]
  rfl

/-- A value that neither begins nor ends with a space or a tab. -/
def Tight (value : Bytes) : Prop :=
  (∀ b ∈ value.head?, b ≠ 0x20 ∧ b ≠ 0x09) ∧ ∀ b ∈ value.getLast?, b ≠ 0x20 ∧ b ≠ 0x09

instance (value : Bytes) : Decidable (Tight value) := inferInstanceAs (Decidable (_ ∧ _))

theorem isAsciiSpace_of_value {b : UInt8} : (b == 0x09 || (0x20 ≤ b && b != 0x7f)) = true →
    b ≠ 0x20 ∧ b ≠ 0x09 → Text.isAsciiSpace b = false :=
  Bytes.forall_byte b (by decide +kernel)

theorem trimmed_of_tight {value : Bytes} (hvalue : HeaderMap.isValue value = true) (h : Tight value) :
    trimmed value = value := by
  have hbyte := List.all_eq_true.1 hvalue
  exact Text.trimWhere_eq_self_iff.2
    ⟨fun b hb => isAsciiSpace_of_value (hbyte b (List.mem_of_mem_head? hb)) (h.1 b hb),
      fun b hb => isAsciiSpace_of_value (hbyte b (List.mem_of_mem_getLast? hb)) (h.2 b hb)⟩

theorem trimmed_encodeBinary (value : Bytes) : trimmed (Metadata.encodeBinary value) = Metadata.encodeBinary value :=
  Text.trimWhere_of_none fun _ hb => Text.isAsciiSpace_of_lt (Text.Base64.visible_of_mem_encode hb).1

theorem number_visible (outcome : Outcome) :
    ∀ b ∈ Bytes.ofString (Text.Decimal.render (outcomeNumber outcome)), 0x20 < b ∧ b < 0x7f := by
  have hcode (code : Code) : ∀ b ∈ Bytes.ofString (Text.Decimal.render code.number), 0x20 < b ∧ b < 0x7f := by
    cases code <;> decide +kernel
  cases outcome with
  | ok => exact hcode .ok
  | error status => exact hcode status.code

theorem name?_statusField : HeaderMap.name? (Bytes.ofString statusField) = some statusField := by decide +kernel

theorem name?_messageField : HeaderMap.name? (Bytes.ofString messageField) = some messageField := by decide +kernel

section End

variable (outcome : Outcome) {trailers : Metadata} (htrailers : trailers.Sendable)

include htrailers

theorem lined_ofEnd : ∀ field ∈ (ofEnd outcome trailers).fields, Lined field := by
  rintro ⟨name, value⟩ hfield
  have hvalue := mem_under_of_mem hfield
  rw [HeaderMap.under_fields (getAll_ofEnd outcome htrailers).1] at hvalue
  cases hreserved : Metadata.isReserved name with
  | false =>
    rw [getAll_ofEnd_of_free outcome htrailers hreserved] at hvalue
    obtain ⟨found, hfound, rfl⟩ := List.mem_map.1 hvalue
    have hwritable := htrailers (name, found) (mem_of_mem_under hfound)
    exact ⟨hwritable.name, hwritable.isValue_wire⟩
  | true =>
    rw [getAll_ofEnd_of_reserved outcome htrailers hreserved] at hvalue
    by_cases hstatus : name = statusField
    · rw [hstatus, getAll_status, List.mem_singleton] at hvalue
      rw [hstatus, hvalue]
      exact ⟨name?_statusField, HeaderMap.isValue_of_visible fun b hb =>
        ⟨UInt8.le_of_lt (number_visible outcome b hb).1, (number_visible outcome b hb).2⟩⟩
    · by_cases hmessage : name = messageField
      · rw [hmessage, getAll_message] at hvalue
        split at hvalue
        · cases hvalue
        · rw [List.mem_singleton] at hvalue
          rw [hmessage, hvalue]
          exact ⟨name?_messageField, isValue_encode _⟩
      · rw [getAll_writeStatus_of_ne hstatus hmessage] at hvalue
        cases hvalue

/-- The block at the end of a call is read as the outcome it was written for, with a message that lost the
spaces at its ends, and with the trailing metadata. -/
theorem decodeBlock_ofEnd (houtcome : Tellable outcome)
    (htight : ∀ entry ∈ trailers.entries, Metadata.isBinaryKey entry.1 = false → Tight entry.2) :
    ∃ read, decodeBlock (encodeBlock (ofEnd outcome trailers)) = .ok read ∧
      readStatus? read = some (outcome.mapError fun status => ⟨status.code, Text.unspaced status.message⟩) ∧
      (Metadata.ofHeaders read).SameValues trailers := by
  obtain ⟨read, hread, hdistinct, hvalues⟩ :=
    decodeBlock_spec (getAll_ofEnd outcome htrailers).1 (lined_ofEnd outcome htrailers)
  refine ⟨read, hread, ?_, Metadata.sameValues_ofHeaders htrailers hdistinct fun key hkey => ?_⟩
  · have hnumber : read.get? statusField = some (Bytes.ofString (Text.Decimal.render (outcomeNumber outcome))) := by
      rw [HeaderMap.get?, hvalues, getAll_ofEnd_of_reserved outcome htrailers (by decide), getAll_status]
      exact congrArg some (Text.trimWhere_of_none fun b hb => Text.isAsciiSpace_of_lt (number_visible outcome b hb).1)
    have htext : ((read.get? messageField).map Text.Percent.decode).getD "" =
        Text.unspaced (outcomeMessage outcome) := by
      rw [HeaderMap.get?, hvalues, getAll_ofEnd_of_reserved outcome htrailers (by decide), getAll_message]
      split
      · rename_i hempty
        rw [hempty]
        rfl
      · rw [List.map_singleton, trimmed, Text.Percent.trimWhere_encode]
        simp
    rw [readStatus?_of_number houtcome hnumber, htext]
    cases outcome <;> rfl
  · rw [hvalues, getAll_ofEnd_of_free outcome htrailers hkey, List.map_map]
    refine List.map_congr_left fun value hvalue => ?_
    have hmem := mem_of_mem_under hvalue
    rw [Function.comp_apply, Metadata.wire]
    split
    · exact trimmed_encodeBinary value
    · rename_i hbinary
      have htext := Bool.eq_false_iff.2 hbinary
      exact trimmed_of_tight ((htrailers _ hmem).value htext) (htight _ hmem htext)

end End

end RpcConformance.Trailers
