import RpcConformance.Metadata.Header
import RpcConformance.Proofs.Metadata.Values
import RpcConformance.Proofs.Text.RoundTrip
/-!
Metadata as header fields: what can be sent is written as it is (`write_of_sendable`), behind other fields just as alone
(`write_behind`), and what was written is read back with the same values under each key (`sameValues_ofHeaders`).
-/
namespace RpcConformance

namespace HeaderMap

theorem lt_of_isNameByte {b : UInt8} : isNameByte b = true → b < 0x80 :=
  Bytes.forall_byte b (by decide +kernel)

theorem name?_eq_some_iff {bs : Bytes} {name : String} :
    name? bs = some name ↔
      bs ≠ [] ∧ (∀ b ∈ bs, isNameByte b = true) ∧ Bytes.text? (bs.map Bytes.lower) = some name ∧
        bs.length ≤ longestName := by
  rw [name?]
  by_cases hsize : bs = [] ∨ longestName < bs.length
  · rw [if_pos (by simpa using hsize)]
    refine ⟨nofun, fun ⟨hne, _, _, hlength⟩ => ?_⟩
    rcases hsize with hempty | hlong
    · exact absurd hempty hne
    · omega
  · rw [if_neg (by simpa using hsize)]
    rw [not_or, Nat.not_lt] at hsize
    by_cases hall : bs.all isNameByte = true
    · rw [if_pos hall]
      exact ⟨fun h => ⟨hsize.1, List.all_eq_true.1 hall, h, hsize.2⟩, fun h => h.2.2.1⟩
    · rw [if_neg hall]
      exact ⟨nofun, fun h => absurd (List.all_eq_true.2 h.2.1) hall⟩

/-- A name that is given in lower case is spelled by its own bytes. -/
theorem lower_of_name {name : String} (h : name? (Bytes.ofString name) = some name) :
    (Bytes.ofString name).map Bytes.lower = Bytes.ofString name :=
  Bytes.eq_ofString_of_text? (name?_eq_some_iff.1 h).2.2.1

theorem isValue_of_visible {value : Bytes} (h : ∀ b ∈ value, 0x20 ≤ b ∧ b < 0x7f) : isValue value = true := by
  refine List.all_eq_true.2 fun b hb => ?_
  obtain ⟨hlow, hhigh⟩ := h b hb
  have hne : b ≠ 0x7f := by
    rintro rfl
    exact absurd hhigh (by decide)
  simp [hlow, hne]

end HeaderMap

namespace Metadata

theorem toLower_of_lower {b : UInt8} (hb : b < 0x80) :
    Char.toLower (Char.ofNat b.toNat) = Char.ofNat (Bytes.lower b).toNat := by
  have hall : ∀ n : Fin 128, Char.toLower (Char.ofNat n) = Char.ofNat (Bytes.lower (UInt8.ofNat n)).toNat := by
    decide +kernel
  simpa using hall ⟨b.toNat, UInt8.lt_iff_toNat_lt.1 hb⟩

theorem lowerCase_of_name {key : String} (h : HeaderMap.name? (Bytes.ofString key) = some key) :
    lowerCase key = key := by
  have hascii : ∀ b ∈ Bytes.ofString key, b < 0x80 := fun b hb =>
    HeaderMap.lt_of_isNameByte ((HeaderMap.name?_eq_some_iff.1 h).2.1 b hb)
  have hlower := HeaderMap.lower_of_name h
  have hkey := Bytes.text?_ascii hascii
  rw [Bytes.text?_ofString] at hkey
  have hchars : key.toList = (Bytes.ofString key).map fun b => Char.ofNat b.toNat := by
    rw [← String.toList_ofList (l := (Bytes.ofString key).map fun b => Char.ofNat b.toNat), ← Option.some.inj hkey]
  have hfixed : key.toList.map Char.toLower = key.toList := by
    calc key.toList.map Char.toLower
        = (Bytes.ofString key).map fun b => Char.toLower (Char.ofNat b.toNat) := by rw [hchars, List.map_map]; rfl
      _ = (Bytes.ofString key).map fun b => Char.ofNat (Bytes.lower b).toNat :=
          List.map_congr_left fun b hb => toLower_of_lower (hascii b hb)
      _ = ((Bytes.ofString key).map Bytes.lower).map fun b => Char.ofNat b.toNat := by rw [List.map_map]; rfl
      _ = key.toList := by rw [hlower, hchars]
  rw [lowerCase, hfixed, String.ofList_toList]

/-- An entry that can travel among the fields of a message: its key is the name of a field no protocol
owns, and its value, unless it is binary, is text that can be the value of a field. -/
structure Travels (entry : String × Bytes) : Prop where
  name : HeaderMap.name? (Bytes.ofString entry.1) = some entry.1
  free : isReserved entry.1 = false
  value : isBinaryKey entry.1 = false → HeaderMap.isValue entry.2 = true
  text : isBinaryKey entry.1 = false → (Bytes.text? entry.2).isSome = true

/-- Metadata all of which can travel. -/
def Portable (metadata : Metadata) : Prop := ∀ entry ∈ metadata.entries, Travels entry

theorem portable_empty : empty.Portable := fun _ hentry => nomatch hentry

/-- An entry that header fields can hold: its key is the name of a field no protocol owns, and its value,
unless it is binary, can be the value of a field. It need not be text. -/
structure Writable (entry : String × Bytes) : Prop where
  name : HeaderMap.name? (Bytes.ofString entry.1) = some entry.1
  free : isReserved entry.1 = false
  value : isBinaryKey entry.1 = false → HeaderMap.isValue entry.2 = true

theorem writable_iff {entry : String × Bytes} :
    Writable entry ↔ HeaderMap.name? (Bytes.ofString entry.1) = some entry.1 ∧ isReserved entry.1 = false ∧
      (isBinaryKey entry.1 = false → HeaderMap.isValue entry.2 = true) :=
  ⟨fun h => ⟨h.name, h.free, h.value⟩, fun ⟨hname, hfree, hvalue⟩ => ⟨hname, hfree, hvalue⟩⟩

instance (entry : String × Bytes) : Decidable (Writable entry) := decidable_of_iff _ writable_iff.symm

theorem Travels.writable {entry : String × Bytes} (h : Travels entry) : Writable entry :=
  ⟨h.name, h.free, h.value⟩

/-- Metadata all of which header fields can hold. -/
def Sendable (metadata : Metadata) : Prop := ∀ entry ∈ metadata.entries, Writable entry

instance (metadata : Metadata) : Decidable metadata.Sendable :=
  inferInstanceAs (Decidable (∀ entry ∈ metadata.entries, Writable entry))

theorem Portable.sendable {metadata : Metadata} (h : metadata.Portable) : metadata.Sendable :=
  fun entry hentry => (h entry hentry).writable

theorem entries_single {key : String} {value : Bytes} (h : Writable (key, value)) :
    (single key value).entries = [(key, value)] := by
  show [(lowerCase key, value)] = [(key, value)]
  rw [lowerCase_of_name h.name]

theorem sendable_single {key : String} {value : Bytes} (h : Writable (key, value)) : (single key value).Sendable := by
  intro entry hentry
  rw [entries_single h, List.mem_singleton] at hentry
  exact hentry ▸ h

theorem Sendable.under_reserved {metadata : Metadata} (h : metadata.Sendable) {key : String}
    (hreserved : isReserved key = true) : under key metadata.entries = [] := by
  refine under_eq_nil_of_forall fun entry hmem hkey => ?_
  have hfree := (h entry hmem).free
  rw [hkey, hreserved] at hfree
  cases hfree

/-- A value as it travels. -/
def wire (key : String) (value : Bytes) : Bytes := if isBinaryKey key then encodeBinary value else value

theorem isValue_encodeBinary (value : Bytes) : HeaderMap.isValue (encodeBinary value) = true :=
  HeaderMap.isValue_of_visible fun _ hb =>
    ⟨UInt8.le_of_lt (Text.Base64.visible_of_mem_encode hb).1, (Text.Base64.visible_of_mem_encode hb).2⟩

theorem text?_encodeBinary (value : Bytes) :
    ∃ text, Bytes.text? (encodeBinary value) = some text ∧ decodeBinary? text = some value := by
  have hvisible : ∀ b ∈ encodeBinary value, 0x20 < b ∧ b < 0x7f := fun b hb =>
    Text.Base64.visible_of_mem_encode hb
  have hascii : ∀ b ∈ encodeBinary value, b < 0x80 := fun b hb =>
    UInt8.lt_trans (hvisible b hb).2 (by decide)
  refine ⟨_, Bytes.text?_ascii hascii, ?_⟩
  rw [decodeBinary?, Text.trim_ascii hvisible, Bytes.ofString_ascii hascii, encodeBinary,
    Text.Base64.decode?_encode]

theorem Writable.isValue_wire {entry : String × Bytes} (h : Writable entry) :
    HeaderMap.isValue (wire entry.1 entry.2) = true := by
  rw [wire]
  split
  · exact isValue_encodeBinary entry.2
  · rename_i hbinary
    exact h.value (Bool.eq_false_iff.2 hbinary)

theorem wireValue?_eq_wire {entry : String × Bytes} (h : Writable entry) :
    wireValue? entry.1 entry.2 = some (wire entry.1 entry.2) := by
  have hvalue := h.isValue_wire
  rw [wire] at hvalue
  rw [wireValue?, wire, hvalue, if_pos rfl]

/-- Whether the key of an entry names a field also behind a mark. -/
def Markable (mark : String) (entry : String × Bytes) : Prop :=
  HeaderMap.name? (Bytes.ofString (mark ++ entry.1)) = some (mark ++ entry.1)

theorem Writable.markable_empty {entry : String × Bytes} (h : Writable entry) : Markable "" entry := by
  rw [Markable, String.empty_append]
  exact h.name

theorem writeEntry_of_writable {mark : String} {entry : String × Bytes} (hmark : Markable mark entry)
    (h : Writable entry) (headers : HeaderMap) :
    writeEntry mark headers entry = .ok (headers.append (mark ++ entry.1) (wire entry.1 entry.2)) := by
  rw [writeEntry, hmark]
  simp only [wireValue?_eq_wire h]

/-- A value that traveled under a key in lower case is read as it was. -/
theorem insertWire_wire {entry : String × Bytes} (h : lowerCase entry.1 = entry.1) (metadata : Metadata) :
    metadata.insertWire entry.1 (wire entry.1 entry.2) = ⟨metadata.entries ++ [entry]⟩ := by
  have hkey : metadata.insert entry.1 entry.2 = ⟨metadata.entries ++ [entry]⟩ := by
    rw [insert, h]
  rw [insertWire, wire]
  by_cases hbinary : isBinaryKey entry.1 = true
  · obtain ⟨text, htext, hdecode⟩ := text?_encodeBinary entry.2
    simp [hbinary, htext, hdecode, hkey]
  · simp [hbinary, hkey]

/-- Metadata that can be sent is written to the end: every value joins those under its key, which stands after
the mark; under other names nothing changes. -/
theorem writeMarked_of_sendable {mark : String} {metadata : Metadata}
    (hmark : ∀ entry ∈ metadata.entries, Markable mark entry) (h : metadata.Sendable) {headers : HeaderMap}
    (hdistinct : headers.Distinct) :
    ∃ written, metadata.writeMarked headers mark = (written, .ok ()) ∧ written.Distinct ∧
      (∀ key, written.getAll (mark ++ key) =
        headers.getAll (mark ++ key) ++ (under key metadata.entries).map (wire key)) ∧
      ∀ name, (∀ key, mark ++ key ≠ name) → written.getAll name = headers.getAll name := by
  obtain ⟨entries⟩ := metadata
  replace h : ∀ entry ∈ entries, Writable entry := h
  replace hmark : ∀ entry ∈ entries, Markable mark entry := hmark
  rw [writeMarked]
  induction entries generalizing headers with
  | nil => exact ⟨headers, rfl, hdistinct, fun key => (List.append_nil _).symm, fun _ _ => rfl⟩
  | cons entry entries ih =>
    obtain ⟨hentry, hentries⟩ := List.forall_mem_cons.1 h
    obtain ⟨hfirst, hothers⟩ := List.forall_mem_cons.1 hmark
    obtain ⟨written, hwritten, hdistinct', hvalues, hothers⟩ :=
      ih (hdistinct.append (mark ++ entry.1) (wire entry.1 entry.2)) hentries hothers
    refine ⟨written, ?_, hdistinct', fun key => ?_, fun name hname => ?_⟩
    · rw [writeEntries, writeEntry_of_writable hfirst hentry]
      exact hwritten
    · rw [hvalues]
      obtain ⟨name, value⟩ := entry
      by_cases hname : name = key
      · subst hname
        rw [HeaderMap.getAll_append_self, under_cons_self, List.map_cons, List.append_assoc,
          List.singleton_append]
      · have hmarked : mark ++ name ≠ mark ++ key := fun hsame => hname (String.append_right_inj mark |>.1 hsame)
        rw [HeaderMap.getAll_append_of_ne _ hmarked, under_cons_of_ne hname]
    · rw [hothers name hname, HeaderMap.getAll_append_of_ne _ (hname entry.1)]

theorem write_of_sendable {metadata : Metadata} (h : metadata.Sendable) {headers : HeaderMap}
    (hdistinct : headers.Distinct) :
    ∃ written, metadata.write headers = (written, .ok ()) ∧ written.Distinct ∧
      ∀ key, written.getAll key = headers.getAll key ++ (under key metadata.entries).map (wire key) := by
  obtain ⟨written, hwritten, hdistinct', hvalues, -⟩ :=
    writeMarked_of_sendable (fun entry hentry => (h entry hentry).markable_empty) h hdistinct
  simp only [String.empty_append] at hvalues
  exact ⟨written, hwritten, hdistinct', hvalues⟩

/-- Writing entries behind other fields: the fields in front make no difference to what is written and where it stops. -/
theorem writeEntries_behind {front : String → List Bytes} {headers base : HeaderMap}
    (h : ∀ name, headers.getAll name = front name ++ base.getAll name) (mark : String)
    (entries : List (String × Bytes)) :
    (writeEntries mark headers entries).2 = (writeEntries mark base entries).2 ∧
      ∀ name, (writeEntries mark headers entries).1.getAll name =
        front name ++ (writeEntries mark base entries).1.getAll name := by
  induction entries generalizing headers base with
  | nil => exact ⟨rfl, h⟩
  | cons entry entries ih =>
    simp only [writeEntries, writeEntry]
    cases hname : HeaderMap.name? (Bytes.ofString (mark ++ entry.1)) with
    | none => exact ⟨rfl, h⟩
    | some name =>
      cases hvalue : wireValue? entry.1 entry.2 with
      | none => exact ⟨rfl, h⟩
      | some value =>
        refine ih fun other => ?_
        by_cases hsame : name = other
        · subst hsame
          simp [HeaderMap.getAll_append_self, h]
        · simp [HeaderMap.getAll_append_of_ne _ hsame, h]

/-- Metadata behind other fields joins the values under each name, and is written there just when it is written alone. -/
theorem write_behind (metadata : Metadata) (headers : HeaderMap) :
    (metadata.write headers).2 = (metadata.write .empty).2 ∧
      ∀ name, (metadata.write headers).1.getAll name =
        headers.getAll name ++ (metadata.write .empty).1.getAll name := by
  have hstart (name : String) : headers.getAll name = headers.getAll name ++ HeaderMap.empty.getAll name :=
    (List.append_nil _).symm
  exact writeEntries_behind hstart "" metadata.entries

def readField (field : String × Bytes) : List (String × Bytes) :=
  if isReserved field.1 then [] else (empty.insertWire field.1 field.2).entries

theorem insertWire_entries (metadata : Metadata) (key : String) (value : Bytes) :
    (metadata.insertWire key value).entries = metadata.entries ++ (empty.insertWire key value).entries := by
  unfold insertWire
  by_cases hbinary : isBinaryKey key = true
  · rw [if_pos hbinary, if_pos hbinary]
    cases (Bytes.text? value).bind decodeBinary? with
    | none => exact (List.append_nil _).symm
    | some decoded => rfl
  · rw [if_neg hbinary, if_neg hbinary]
    rfl

theorem entries_foldl {α : Type} {read : Metadata → α → Metadata} {entriesOf : α → List (String × Bytes)}
    (h : ∀ metadata field, (read metadata field).entries = metadata.entries ++ entriesOf field)
    (fields : List α) (metadata : Metadata) :
    (fields.foldl read metadata).entries = metadata.entries ++ fields.flatMap entriesOf := by
  induction fields generalizing metadata with
  | nil => exact (List.append_nil _).symm
  | cons field fields ih => rw [List.foldl_cons, ih, h, List.flatMap_cons, List.append_assoc]

theorem entries_ofHeaders (headers : HeaderMap) :
    (ofHeaders headers).entries = headers.fields.flatMap readField := by
  refine entries_foldl (fun metadata field => ?_) headers.fields empty
  rw [readField]
  by_cases hreserved : isReserved field.1 = true
  · simp [hreserved]
  · simp only [hreserved, Bool.false_eq_true, if_false]
    exact insertWire_entries metadata field.1 field.2

theorem readField_wire {entry : String × Bytes} (h : Writable entry) :
    readField (entry.1, wire entry.1 entry.2) = [entry] := by
  rw [readField, h.free, if_neg Bool.false_ne_true]
  exact congrArg entries (insertWire_wire (lowerCase_of_name h.name) empty)

/-- Fields with what can be sent under their names, apart from what the protocols own, are read as just that. -/
theorem sameValues_flatMap {fields : List (String × Bytes)} {metadata : Metadata} (h : metadata.Sendable)
    (hvalues : ∀ key, isReserved key = false → under key fields = (under key metadata.entries).map (wire key)) :
    SameValues ⟨fields.flatMap readField⟩ metadata := by
  have hread : ∀ key value, value ∈ under key metadata.entries →
      readField (key, wire key value) = [(key, value)] := by
    intro key value hvalue
    exact readField_wire (h (key, value) (mem_of_mem_under hvalue))
  have hown : ∀ field ∈ fields, isReserved field.1 = false →
      ∃ value ∈ under field.1 metadata.entries, wire field.1 value = field.2 := by
    intro field hfield hfree
    have hmem := mem_under_of_mem hfield
    rw [hvalues _ hfree] at hmem
    exact List.mem_map.1 hmem
  have hkeys : ∀ field ∈ fields, ∀ found ∈ readField field, found.1 = field.1 := by
    intro field hfield found hfound
    by_cases hreserved : isReserved field.1 = true
    · rw [readField, if_pos hreserved] at hfound
      cases hfound
    · obtain ⟨value, hvalue, hwire⟩ := hown field hfield (Bool.eq_false_iff.2 hreserved)
      have hfield' : field = (field.1, wire field.1 value) := by rw [hwire]
      rw [hfield', hread _ _ hvalue] at hfound
      rw [List.mem_singleton.1 hfound]
  intro key
  rw [under_flatMap hkeys]
  by_cases hreserved : isReserved key = true
  · simp [readField, hreserved, h.under_reserved hreserved]
  · rw [hvalues key (Bool.eq_false_iff.2 hreserved), List.flatMap_map]
    exact flatMap_eq_self fun value hvalue => by rw [hread key value hvalue, under_cons_self, under_nil]

theorem sameValues_ofHeaders {headers : HeaderMap} {metadata : Metadata} (h : metadata.Sendable)
    (hdistinct : headers.Distinct)
    (hvalues : ∀ key, isReserved key = false →
      headers.getAll key = (under key metadata.entries).map (wire key)) :
    (ofHeaders headers).SameValues metadata := by
  have hself : ofHeaders headers = ⟨headers.fields.flatMap readField⟩ := by
    rw [← entries_ofHeaders]
  rw [hself]
  refine sameValues_flatMap h fun key hkey => ?_
  rw [HeaderMap.under_fields hdistinct, hvalues key hkey]

end Metadata
end RpcConformance
