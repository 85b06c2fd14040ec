import RpcConformance.Proofs.Metadata.Json
import RpcConformance.Proofs.Metadata.Marked
import RpcConformance.Trailers
/-!
Keys that belong to the protocols. Metadata that is read from header fields, with a mark or without, has none of them
(`unreserved_ofHeaders`, `unreserved_ofMarkedHeaders`); metadata that is read from an object has the keys that the object
has (`key_mem_keysOf`).
-/
namespace RpcConformance

namespace Metadata

/-- No key belongs to a protocol. -/
def Unreserved (metadata : Metadata) : Prop := ∀ entry ∈ metadata.entries, isReserved entry.1 = false

theorem unreserved_empty : empty.Unreserved := nofun

theorem Unreserved.extend {metadata other : Metadata} (h : metadata.Unreserved) (hother : other.Unreserved) :
    (metadata.extend other).Unreserved := List.forall_mem_append.2 ⟨h, hother⟩

end Metadata

namespace HeaderMap

def Lower (headers : HeaderMap) : Prop := ∀ field ∈ headers.fields, Metadata.lowerCase field.1 = field.1

theorem lower_empty : empty.Lower := nofun

theorem name?_of_name? {bs : Bytes} {name : String} (h : name? bs = some name) :
    name? (Bytes.ofString name) = some name := by
  obtain ⟨hne, hall, htext, hlength⟩ := name?_eq_some_iff.1 h
  have hbyte (b : UInt8) (hb : isNameByte b = true) :
      isNameByte (Bytes.lower b) = true ∧ Bytes.lower (Bytes.lower b) = Bytes.lower b := by
    revert hb
    exact Bytes.forall_byte b (by decide +kernel)
  have hspelled := Bytes.eq_ofString_of_text? htext
  have hlower : (bs.map Bytes.lower).map Bytes.lower = bs.map Bytes.lower := by
    rw [List.map_map]
    exact List.map_congr_left fun b hb => (hbyte b (hall b hb)).2
  rw [← hspelled]
  refine name?_eq_some_iff.2 ⟨by simpa using hne, ?_, by rw [hlower, htext], by simpa using hlength⟩
  intro b hb
  obtain ⟨b', hb', rfl⟩ := List.mem_map.1 hb
  exact (hbyte b' (hall b' hb')).1

theorem lowerCase_of_name? {bs : Bytes} {name : String} (h : name? bs = some name) :
    Metadata.lowerCase name = name :=
  Metadata.lowerCase_of_name (name?_of_name? h)

theorem fields_appendTo {groups : List (String × List Bytes)} {name : String} {value : Bytes} {field : String × Bytes}
    (h : field ∈ (⟨appendTo name value groups⟩ : HeaderMap).fields) :
    field ∈ (⟨groups⟩ : HeaderMap).fields ∨ field.1 = name := by
  induction groups with
  | nil =>
    simp only [fields, appendTo, List.flatMap_cons, List.flatMap_nil, List.map_cons, List.map_nil, List.append_nil,
      List.mem_singleton] at h
    exact .inr (h ▸ rfl)
  | cons group groups ih =>
    obtain ⟨name', values⟩ := group
    simp only [fields, List.flatMap_cons, List.mem_append] at ih ⊢
    by_cases hname : name' = name
    · simp only [fields, appendTo, hname, if_true, List.flatMap_cons, List.mem_append, List.mem_map] at h ⊢
      rcases h with ⟨value', -, rfl⟩ | h
      · exact .inr rfl
      · exact .inl (.inr h)
    · simp only [fields, appendTo, hname, if_false, List.flatMap_cons, List.mem_append] at h
      rcases h with h | h
      · exact .inl (.inl h)
      · exact (ih h).imp_left .inr

theorem Lower.append {headers : HeaderMap} (h : headers.Lower) {name : String}
    (hname : Metadata.lowerCase name = name) (value : Bytes) : (headers.append name value).Lower := by
  intro field hfield
  rcases fields_appendTo hfield with hold | hnew
  · exact h field hold
  · rw [hnew, hname]

end HeaderMap

namespace Trailers

theorem lower_readLine {headers read : HeaderMap} {line : Bytes} (h : headers.Lower)
    (hread : readLine headers line = .ok read) : read.Lower := by
  simp only [readLine] at hread
  split at hread
  · cases hread
    exact h
  · split at hread
    · split at hread
      · cases hread
      · rename_i name hname
        split at hread
        · cases hread
          exact h.append (HeaderMap.lowerCase_of_name? hname) _
        · cases hread
    · cases hread

theorem lower_decodeBlock {block : Bytes} {headers : HeaderMap} (h : decodeBlock block = .ok headers) :
    headers.Lower := by
  have hlines (lines : List Bytes) {before : HeaderMap} (hbefore : before.Lower)
      (hread : lines.foldlM readLine before = .ok headers) : headers.Lower := by
    induction lines generalizing before with
    | nil =>
      cases hread
      exact hbefore
    | cons line lines ih =>
      rw [List.foldlM_cons] at hread
      cases hline : readLine before line with
      | error status =>
        rw [hline] at hread
        cases hread
      | ok after =>
        rw [hline] at hread
        exact ih (lower_readLine hbefore hline) hread
  exact hlines _ HeaderMap.lower_empty h

end Trailers

namespace Metadata

theorem key_of_insertWire {key : String} {value : Bytes} {entry : String × Bytes}
    (h : entry ∈ (empty.insertWire key value).entries) : entry.1 = lowerCase key := by
  rw [insertWire] at h
  split at h
  · split at h
    · rw [List.mem_singleton.1 h]
    · cases h
  · rw [List.mem_singleton.1 h]

/-- A field in lower case is read as an entry under a key that no protocol owns, or as nothing. -/
theorem free_of_readField {field entry : String × Bytes} (hlower : lowerCase field.1 = field.1)
    (h : entry ∈ readField field) : isReserved entry.1 = false := by
  rw [readField] at h
  split at h
  · cases h
  · rename_i hfree
    rw [key_of_insertWire h, hlower]
    exact Bool.eq_false_iff.2 hfree

theorem unreserved_ofHeaders {headers : HeaderMap} (h : headers.Lower) : (ofHeaders headers).Unreserved := by
  intro entry hentry
  rw [entries_ofHeaders] at hentry
  obtain ⟨field, hfield, hread⟩ := List.mem_flatMap.1 hentry
  exact free_of_readField (h field hfield) hread

/-- What follows a mark in a text in lower case stands in lower case. -/
theorem lowerCase_of_append {mark key : String} (h : lowerCase (mark ++ key) = mark ++ key) : lowerCase key = key := by
  have hchars : (mark.toList ++ key.toList).map Char.toLower = mark.toList ++ key.toList := by
    have hlist := congrArg String.toList h
    rwa [lowerCase, String.toList_ofList, String.toList_append] at hlist
  rw [List.map_append] at hchars
  obtain ⟨-, hkey⟩ := List.append_inj hchars (List.length_map _)
  rw [lowerCase, hkey, String.ofList_toList]

theorem unreserved_ofMarkedHeaders {headers : HeaderMap} (h : headers.Lower) (mark : String) :
    (ofMarkedHeaders headers mark).Unreserved := by
  intro entry hentry
  rw [entries_ofMarkedHeaders] at hentry
  obtain ⟨found, hfound, hread⟩ := List.mem_flatMap.1 hentry
  obtain ⟨field, hfield, hunmarked⟩ := List.mem_filterMap.1 hfound
  have hkey : lowerCase (mark ++ found.1) = mark ++ found.1 := by
    rw [(unmarked_eq_some_iff.1 hunmarked).1]
    exact h field hfield
  exact free_of_readField (lowerCase_of_append hkey) hread

def keysOf (members : List (Bytes × Json)) : List String :=
  members.filterMap fun member => (Json.unescape? member.1).map lowerCase

theorem key_of_mem_sortedMembers {members : List (Bytes × Json)} {member : String × Json}
    (h : member ∈ sortedMembers members) : lowerCase member.1 ∈ keysOf members := by
  obtain ⟨key, value⟩ := member
  have hvalue := mem_under_of_mem h
  rw [sortedMembers, under_filterMap List.getLast? key, under_grouped] at hvalue
  -- The group of the key is not empty, so some member spells the key.
  split at hvalue
  · cases hvalue
  · rename_i hne
    obtain ⟨value', hmem⟩ := List.exists_mem_of_ne_nil _ hne
    obtain ⟨spelled, hspelled, hread⟩ := List.mem_filterMap.1 (mem_of_mem_under hmem)
    obtain ⟨name, hname, hpair⟩ := Option.map_eq_some_iff.1 hread
    cases hpair
    exact List.mem_filterMap.2 ⟨spelled, hspelled, by rw [hname]; rfl⟩

theorem lowerCase_lowerCase (key : String) : lowerCase (lowerCase key) = lowerCase key := by
  have hkept (c : Char) (h : ¬('A'.val ≤ c.val ∧ c.val ≤ 'Z'.val)) : c.toLower = c := dif_neg h
  have hchar (c : Char) : c.toLower.toLower = c.toLower := by
    by_cases hupper : 'A'.val ≤ c.val ∧ c.val ≤ 'Z'.val
    · have hval : c.toLower.val = c.val + ('a'.val - 'A'.val) := congrArg Char.val (dif_pos hupper)
      have hlower : ¬(c.val + ('a'.val - 'A'.val) ≤ 'Z'.val) := by grind
      exact hkept _ fun h => hlower (hval ▸ h.2)
    · rw [hkept c hupper, hkept c hupper]
  rw [lowerCase, lowerCase, String.toList_ofList, List.map_map]
  exact congrArg String.ofList (List.map_congr_left fun c _ => hchar c)

theorem key_of_mem_readMember {member : String × Json} {entry : String × Bytes} (h : entry ∈ readMember member) :
    entry.1 = lowerCase member.1 := by
  obtain ⟨key, value⟩ := member
  rw [readMember] at h
  cases value with
  | array items =>
    rw [insertTexts_array] at h
    rcases List.mem_append.1 h with hnone | hsome
    · cases hnone
    · obtain ⟨item, -, hentry⟩ := List.mem_flatMap.1 hsome
      split at hentry
      · rw [key_of_insertWire hentry, lowerCase_lowerCase]
      · cases hentry
  | _ => cases h

/-- The keys of metadata that is read from an object are keys of the object. -/
theorem key_mem_keysOf {members : List (Bytes × Json)} {entry : String × Bytes}
    (h : entry ∈ (ofJsonMembers members).entries) : entry.1 ∈ keysOf members := by
  rw [entries_ofJsonMembers] at h
  obtain ⟨member, hmember, hread⟩ := List.mem_flatMap.1 h
  rw [key_of_mem_readMember hread]
  exact key_of_mem_sortedMembers hmember

end Metadata
end RpcConformance
