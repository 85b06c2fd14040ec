import RpcConformance.Proofs.Metadata.Grouping
import RpcConformance.Proofs.Trailers.Block
/-!
The lines of a block of header fields. A block may end each line as it likes and hold empty lines anywhere
(`LaidOut`): it is read as its fields one after the other (`LaidOut.foldlM`), so all ways to lay out the same
fields are read alike, and the fields that were written are read back as they were (`block_layout`).
-/
namespace RpcConformance.Trailers

def textOf (field : String × Bytes) : Bytes := Bytes.ofString field.1 ++ 0x3a :: 0x20 :: field.2

def lineEnds : List Bytes := [[0x0a], [0x0d, 0x0a]]

/-- The ways to lay out fields as lines: each line has one of the ends, and empty lines may stand anywhere. -/
inductive LaidOut : List (String × Bytes) → Bytes → Prop
  | done : LaidOut [] []
  | blank {fields : List (String × Bytes)} {block ending : Bytes} (hending : ending ∈ lineEnds)
    (h : LaidOut fields block) : LaidOut fields (ending ++ block)
  | line {fields : List (String × Bytes)} {block ending : Bytes} (field : String × Bytes)
    (hending : ending ∈ lineEnds) (h : LaidOut fields block) :
    LaidOut (field :: fields) (textOf field ++ ending ++ block)

theorem laidOut_encodeBlock (headers : HeaderMap) : LaidOut headers.fields (encodeBlock headers) := by
  rw [encodeBlock_eq]
  induction headers.fields with
  | nil => exact .done
  | cons field fields ih =>
    have hline : lineOf field ++ [0x0a] = textOf field ++ [0x0d, 0x0a] := by simp [lineOf, textOf]
    rw [List.flatMap_cons, hline]
    exact .line field (by simp [lineEnds]) ih

theorem ne_end_of_mem_textOf {field : String × Bytes} (h : Lined field) {b : UInt8} (hb : b ∈ textOf field) :
    (b == 0x0a) = false ∧ b ≠ 0x0d := by
  simp only [textOf, List.mem_append, List.mem_cons] at hb
  rcases hb with hname | rfl | rfl | hvalue
  · refine ⟨(h.nameByte hname).1, ?_⟩
    rintro rfl
    exact absurd (h.nameByte hname).2.2 (by decide)
  · decide
  · decide
  · exact isValueByte_spec (List.all_eq_true.1 h.value b hvalue)

section Lines

variable {text ending : Bytes} (htext : ∀ b ∈ text, (b == 0x0a) = false ∧ b ≠ 0x0d)

include htext

theorem readLine_return (headers : HeaderMap) : readLine headers (text ++ [0x0d]) = readLine headers text := by
  have hlast : text.getLast? ≠ some 0x0d := fun h => (htext 0x0d (List.mem_of_getLast? h)).2 rfl
  have hsame : withoutReturn (text ++ [0x0d]) = withoutReturn text := by
    rw [withoutReturn_append, withoutReturn, if_neg hlast]
  rw [readLine, readLine, hsame]

theorem foldlM_line (hending : ending ∈ lineEnds) (block : Bytes) (headers : HeaderMap) :
    ((text ++ ending ++ block).splitOnP (· == 0x0a)).foldlM readLine headers =
      readLine headers text >>= (block.splitOnP (· == 0x0a)).foldlM readLine := by
  have hfeed : ∀ b ∈ text, (b == 0x0a) = false := fun b hb => (htext b hb).1
  simp only [lineEnds, List.mem_cons, List.not_mem_nil, or_false] at hending
  rcases hending with rfl | rfl
  · rw [List.append_assoc, List.singleton_append, List.splitOnP_append_cons_of_forall_mem hfeed _ rfl,
      List.foldlM_cons]
  · have hreturn : ∀ b ∈ text ++ [0x0d], (b == 0x0a) = false := by
      simpa [or_imp, forall_and] using hfeed
    have hsplit : text ++ [0x0d, 0x0a] ++ block = text ++ [0x0d] ++ 0x0a :: block := by simp
    rw [hsplit, List.splitOnP_append_cons_of_forall_mem hreturn _ rfl, List.foldlM_cons, readLine_return htext]

end Lines

/-- The line of a field is read as that field, its value without the blanks at its ends. -/
theorem readLine_textOf {field : String × Bytes} (h : Lined field) (headers : HeaderMap) :
    readLine headers (textOf field) = .ok (headers.append field.1 (trimmed field.2)) := by
  have hline : lineOf field = textOf field ++ [0x0d] := by simp [lineOf, textOf]
  rw [← readLine_return (fun b => ne_end_of_mem_textOf h), ← hline]
  exact readLine_lineOf h headers

theorem LaidOut.foldlM {fields : List (String × Bytes)} {block : Bytes} (h : LaidOut fields block)
    (hlined : ∀ field ∈ fields, Lined field) (headers : HeaderMap) :
    (block.splitOnP (· == 0x0a)).foldlM readLine headers =
      .ok (fields.foldl (fun read field => read.append field.1 (trimmed field.2)) headers) := by
  induction h generalizing headers with
  | done => rfl
  | @blank fields block ending hending h ih =>
    have hread := @foldlM_line [] ending nofun hending block headers
    rw [List.nil_append] at hread
    exact hread.trans (ih hlined headers)
  | line field hending h ih =>
    obtain ⟨hfield, hfields⟩ := List.forall_mem_cons.1 hlined
    rw [foldlM_line (fun b => ne_end_of_mem_textOf hfield) hending, readLine_textOf hfield]
    exact ih hfields _

/-- Fields that are written as a block are read back as they were, each name with its values in order, where no value
begins or ends with a blank. A block that holds any of the lines, however often, is read the same whatever ends its
lines and wherever it holds empty ones. -/
theorem block_layout {headers : HeaderMap} (hformed : headers.WellFormed)
    (hlined : ∀ field ∈ headers.fields, Lined field) :
    ((∀ field ∈ headers.fields, Tight field.2) → decodeBlock (encodeBlock headers) = .ok headers) ∧
    LaidOut headers.fields (encodeBlock headers) ∧
    ∀ fields, fields ⊆ headers.fields → ∀ block other, LaidOut fields block → LaidOut fields other →
      decodeBlock block = decodeBlock other := by
  refine ⟨fun htight => ?_, laidOut_encodeBlock headers, fun fields hfields block other hblock hother => ?_⟩
  · have hkept : headers.fields.foldl (fun (read : HeaderMap) field => read.append field.1 (trimmed field.2)) .empty =
        headers.fields.foldl (fun (read : HeaderMap) field => read.append field.1 field.2) .empty := by
      refine List.foldl_ext _ _ _ fun read field hfield => ?_
      rw [trimmed_of_tight (hlined field hfield).value (htight field hfield)]
    rw [decodeBlock_encodeBlock hlined, hkept, HeaderMap.foldl_append, hformed.gathered_fields]
  · have hlined' : ∀ field ∈ fields, Lined field := fun field hfield => hlined field (hfields hfield)
    rw [decodeBlock, decodeBlock, hblock.foldlM hlined', hother.foldlM hlined']

def interleaved : HeaderMap :=
  ((HeaderMap.empty.append "x-one" (Bytes.ofString "a: %41 b")).append "x-two" []).append "x-one"
    [0xff, 0x09, 0x3a, 0x80]

theorem block_layout_interleaved :
    interleaved.WellFormed ∧ (∀ field ∈ interleaved.fields, Lined field) ∧
    decodeBlock (encodeBlock interleaved) = .ok interleaved ∧
    decodeBlock (Bytes.ofString "x-two: \r\nx-one: a: %41 b\r\n") =
      decodeBlock (Bytes.ofString "\nx-two: \n\r\nx-one: a: %41 b\n") := by
  have hformed : interleaved.WellFormed := ((HeaderMap.wellFormed_empty.append _ _).append _ _).append _ _
  have hlined : ∀ field ∈ interleaved.fields, Lined field := by decide +kernel
  have htwo : Bytes.ofString "x-two: \r\nx-one: a: %41 b\r\n" =
      textOf ("x-two", []) ++ [0x0d, 0x0a] ++ (textOf ("x-one", Bytes.ofString "a: %41 b") ++ [0x0d, 0x0a] ++ []) := by
    decide +kernel
  have hblank : Bytes.ofString "\nx-two: \n\r\nx-one: a: %41 b\n" =
      [0x0a] ++ (textOf ("x-two", []) ++ [0x0a] ++
        ([0x0d, 0x0a] ++ (textOf ("x-one", Bytes.ofString "a: %41 b") ++ [0x0a] ++ []))) := by
    decide +kernel
  obtain ⟨hread, -, hsame⟩ := block_layout hformed hlined
  refine ⟨hformed, hlined, hread (by decide +kernel), ?_⟩
  rw [htwo, hblank]
  refine hsame [("x-two", []), ("x-one", Bytes.ofString "a: %41 b")] (by decide +kernel) _ _ ?_ ?_
  · exact .line _ (by decide) (.line _ (by decide) .done)
  · exact .blank (by decide) (.line _ (by decide) (.blank (by decide) (.line _ (by decide) .done)))

end RpcConformance.Trailers
