import RpcConformance.Proofs.Json.RoundTrip
import RpcConformance.Proofs.Metadata.Header
/-!
Metadata as a JSON object: reading the members that were written gives the same values under each key
(`sameValues_ofJsonMembers`), though the keys are sorted on both ways.
-/
namespace RpcConformance.Metadata

theorem ofString_lossy {bs : Bytes} (h : (Bytes.text? bs).isSome = true) : Bytes.ofString (Text.lossy bs) = bs := by
  obtain ⟨text, htext⟩ := Option.isSome_iff_exists.1 h
  rw [Text.lossy, htext, Option.getD_some]
  exact (Bytes.eq_ofString_of_text? htext).symm

/-- An entry that JSON can hold: its key stands in lower case, as inserting leaves it, and its value, unless it is
binary, is text. -/
structure Textual (entry : String × Bytes) : Prop where
  key : lowerCase entry.1 = entry.1
  text : isBinaryKey entry.1 = false → (Bytes.text? entry.2).isSome = true

theorem textual_iff {entry : String × Bytes} :
    Textual entry ↔
      lowerCase entry.1 = entry.1 ∧ (isBinaryKey entry.1 = false → (Bytes.text? entry.2).isSome = true) :=
  ⟨fun h => ⟨h.key, h.text⟩, fun ⟨hkey, htext⟩ => ⟨hkey, htext⟩⟩

instance (entry : String × Bytes) : Decidable (Textual entry) := decidable_of_iff _ textual_iff.symm

theorem Travels.textual {entry : String × Bytes} (h : Travels entry) : Textual entry :=
  ⟨lowerCase_of_name h.name, h.text⟩

/-- Metadata all of which JSON can hold. -/
def Legible (metadata : Metadata) : Prop := ∀ entry ∈ metadata.entries, Textual entry

instance (metadata : Metadata) : Decidable metadata.Legible :=
  inferInstanceAs (Decidable (∀ entry ∈ metadata.entries, Textual entry))

theorem Portable.legible {metadata : Metadata} (h : metadata.Portable) : metadata.Legible :=
  fun entry hentry => (h entry hentry).textual

theorem ofString_jsonText {entry : String × Bytes} (h : Textual entry) :
    Bytes.ofString (jsonText entry.1 entry.2) = wire entry.1 entry.2 := by
  rw [jsonText, wire]
  by_cases hbinary : isBinaryKey entry.1 = true
  · obtain ⟨text, htext, _⟩ := text?_encodeBinary entry.2
    rw [if_pos hbinary, if_pos hbinary, ofString_lossy (by rw [htext]; rfl)]
  · rw [if_neg hbinary, if_neg hbinary, ofString_lossy (h.text (Bool.eq_false_iff.2 hbinary))]

theorem written_toJson (metadata : Metadata) : Json.Written metadata.toJson := by
  refine .object fun member hmember => ?_
  obtain ⟨group, _, rfl⟩ := List.mem_map.1 hmember
  refine .array fun item hitem => ?_
  obtain ⟨text, _, rfl⟩ := List.mem_map.1 hitem
  exact .text text

theorem areReadable_texts (depth : Nat) (texts : List String) :
    Json.areReadable depth (texts.map Json.text) = true := by
  induction texts with
  | nil => rfl
  | cons text texts ih => simp [Json.areReadable, Json.isReadable, Json.text, ih]

theorem membersReadable_texts (depth : Nat) (groups : List (String × List String)) :
    Json.membersReadable (depth + 1)
      ((groups.map fun (key, texts) => (key, Json.array (texts.map Json.text))).map Json.spelled) = true := by
  induction groups with
  | nil => rfl
  | cons group groups ih =>
    obtain ⟨key, texts⟩ := group
    rw [List.map_cons, List.map_cons, Json.spelled, Json.membersReadable, ih, Json.unescape?_escape, Json.isReadable,
      areReadable_texts]
    rfl

theorem isReadable_toJson (metadata : Metadata) (depth : Nat) : metadata.toJson.isReadable (depth + 2) = true := by
  rw [toJson, Json.ofMembers_eq, Json.isReadable]
  exact membersReadable_texts depth _

def texts (metadata : Metadata) (key : String) : List String := (under key metadata.entries).map (jsonText key)

theorem under_jsonMembers (metadata : Metadata) (key : String) :
    under key metadata.jsonMembers =
      if metadata.texts key = [] then [] else [.array ((metadata.texts key).map Json.text)] := by
  have htexts := @under_map _ _ key jsonText metadata.entries
  rw [← texts] at htexts
  rw [jsonMembers, under_map (fun _ (texts : List String) => Json.array (texts.map Json.text)), under_grouped, htexts]
  by_cases hnil : metadata.texts key = []
  · rw [if_pos hnil, if_pos hnil, List.map_nil]
  · rw [if_neg hnil, if_neg hnil, List.map_singleton]

theorem under_filterMap {α β : Type} (f : α → Option β) (key : String) (entries : List (String × α)) :
    under key (entries.filterMap fun (key, value) => (f value).map (key, ·)) =
      (under key entries).filterMap f := by
  induction entries with
  | nil => rfl
  | cons entry entries ih =>
    obtain ⟨key', value⟩ := entry
    by_cases hkey : key' = key
    · subst hkey
      rw [under_cons_self]
      cases hvalue : f value with
      | none => simpa [hvalue] using ih
      | some found => simp [hvalue, under_cons_self, ih]
    · rw [under_cons_of_ne hkey]
      cases hvalue : f value with
      | none => simpa [hvalue] using ih
      | some found => simp [hvalue, under_cons_of_ne hkey, ih]

theorem unescaped_spelled (members : List (String × Json)) :
    (members.map Json.spelled).filterMap (fun (key, value) => (Json.unescape? key).map (·, value)) = members := by
  induction members with
  | nil => rfl
  | cons member members ih =>
    obtain ⟨name, value⟩ := member
    rw [List.map_cons, List.filterMap_cons, ih, Json.spelled]
    simp only [Json.unescape?_escape, Option.map_some]

theorem under_sortedMembers (metadata : Metadata) (key : String) :
    under key (sortedMembers (metadata.jsonMembers.map Json.spelled)) = under key metadata.jsonMembers := by
  rw [sortedMembers, unescaped_spelled]
  rw [under_filterMap List.getLast? key, under_grouped, under_jsonMembers]
  by_cases hnil : metadata.texts key = []
  · rw [if_pos hnil, if_pos rfl]
    rfl
  · rw [if_neg hnil, if_neg (List.cons_ne_nil _ _)]
    rfl

def readMember (member : String × Json) : List (String × Bytes) := (empty.insertTexts member.1 member.2).entries

theorem insertTexts_array (metadata : Metadata) (key : String) (items : List Json) :
    (metadata.insertTexts key (.array items)).entries = metadata.entries ++ items.flatMap fun item =>
      match item.string? with
      | some text => (empty.insertWire (lowerCase key) (Bytes.ofString text)).entries
      | none => [] := by
  simp only [insertTexts]
  induction items generalizing metadata with
  | nil => exact (List.append_nil _).symm
  | cons item items ih =>
    rw [List.foldl_cons, ih, List.flatMap_cons, ← List.append_assoc]
    congr 1
    cases item.string? with
    | none => exact (List.append_nil _).symm
    | some text => exact insertWire_entries metadata _ _

theorem insertTexts_entries (metadata : Metadata) (member : String × Json) :
    (metadata.insertTexts member.1 member.2).entries = metadata.entries ++ readMember member := by
  obtain ⟨key, value⟩ := member
  rw [readMember]
  cases value with
  | array items =>
    rw [insertTexts_array, insertTexts_array]
    rfl
  | _ => exact (List.append_nil _).symm

theorem entries_ofJsonMembers (members : List (Bytes × Json)) :
    (ofJsonMembers members).entries = (sortedMembers members).flatMap readMember :=
  entries_foldl insertTexts_entries (sortedMembers members) empty

theorem readMember_texts {key : String} {values : List Bytes} (h : ∀ value ∈ values, Textual (key, value)) :
    readMember (key, .array ((values.map (jsonText key)).map Json.text)) = values.map (key, ·) := by
  rw [readMember, insertTexts_array]
  induction values with
  | nil => rfl
  | cons value values ih =>
    have hvalue := h value List.mem_cons_self
    have hentry : (empty.insertWire (lowerCase key) (Bytes.ofString (jsonText key value))).entries =
        [(key, value)] := by
      rw [hvalue.key, ofString_jsonText hvalue, insertWire_wire hvalue.key]
      rfl
    have htail := ih fun value hmem => h value (List.mem_cons_of_mem _ hmem)
    rw [List.map_cons, List.map_cons, List.flatMap_cons, List.map_cons, Json.string?_text]
    simp only [hentry]
    exact congrArg ((key, value) :: ·) htail

theorem readMember_jsonMembers {metadata : Metadata} (h : metadata.Legible) {key : String} {json : Json}
    (hjson : json ∈ under key metadata.jsonMembers) :
    readMember (key, json) = (under key metadata.entries).map (key, ·) := by
  rw [under_jsonMembers] at hjson
  split at hjson
  · cases hjson
  · rw [List.mem_singleton.1 hjson]
    exact readMember_texts fun value hvalue => h (key, value) (mem_of_mem_under hvalue)

theorem key_of_mem_written {metadata : Metadata} (h : metadata.Legible) {member : String × Json}
    (hmember : member ∈ sortedMembers (metadata.jsonMembers.map Json.spelled)) :
    ∀ found ∈ readMember member, found.1 = member.1 := by
  intro found hfound
  have hjson := mem_under_of_mem hmember
  rw [under_sortedMembers] at hjson
  rw [readMember_jsonMembers h hjson] at hfound
  obtain ⟨value, _, rfl⟩ := List.mem_map.1 hfound
  rfl

/-- Metadata that was written as an object is read back with the same values under each key. -/
theorem sameValues_ofJsonMembers {metadata : Metadata} (h : metadata.Legible) :
    (ofJsonMembers (metadata.jsonMembers.map Json.spelled)).SameValues metadata := by
  intro key
  rw [entries_ofJsonMembers, under_flatMap fun member hmember => key_of_mem_written h hmember, under_sortedMembers]
  by_cases hnil : metadata.texts key = []
  · have hnone : under key metadata.entries = [] := List.map_eq_nil_iff.1 hnil
    rw [under_jsonMembers, if_pos hnil, hnone]
    rfl
  · have hone := under_jsonMembers metadata key
    rw [if_neg hnil] at hone
    rw [hone, List.flatMap_singleton, readMember_jsonMembers h (by rw [hone]; exact List.mem_singleton_self _),
      under_pairs]

end RpcConformance.Metadata
