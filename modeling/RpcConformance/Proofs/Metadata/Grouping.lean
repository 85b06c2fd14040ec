import Mathlib.Data.List.Basic
import Mathlib.Data.List.Induction
import RpcConformance.Proofs.Metadata.Marked
/-!
Header fields bring the entries of metadata together by their keys. The names of the fields stand in the order in which
they were first added, each with its values in order (`foldl_append`, `WellFormed.gathered_fields`), so what is read
back are the same entries key by key (`write_roundTrip`), also where every key stands behind the mark of trailers.
-/
namespace RpcConformance

/-- Induction that follows `List.eraseDups`: what holds of a list holds of what is left of it by any filter. -/
theorem filter_induction {α : Type} {motive : List α → Prop} (nil : motive [])
    (cons : ∀ value values, (∀ p, motive (values.filter p)) → motive (value :: values)) (values : List α) :
    motive values := by
  induction hlength : values.length using Nat.strongRecOn generalizing values with
  | ind length ih =>
    cases values with
    | nil => exact nil
    | cons value values =>
      refine cons value values fun p => ih _ ?_ _ rfl
      rw [← hlength]
      exact Nat.lt_succ_of_le (List.length_filter_le p values)

section KeyByKey

variable {α β : Type}

/-- The entries of a list key by key: the keys in the order in which they first appear, each with its values in
order. -/
def keyByKey (entries : List (String × α)) : List (String × α) :=
  (entries.map (·.1)).eraseDups.flatMap fun key => (under key entries).map (key, ·)

theorem mem_of_mem_keyByKey {entries : List (String × α)} {entry : String × α} (h : entry ∈ keyByKey entries) :
    entry ∈ entries := by
  obtain ⟨key, -, hentry⟩ := List.mem_flatMap.1 h
  obtain ⟨value, hvalue, rfl⟩ := List.mem_map.1 hentry
  exact mem_of_mem_under hvalue

theorem under_filter_self (key : String) (entries : List (String × α)) :
    (under key entries).map (key, ·) = entries.filter (·.1 = key) := by
  induction entries with
  | nil => rfl
  | cons entry entries ih =>
    obtain ⟨key', value⟩ := entry
    by_cases hkey : key' = key
    · subst hkey
      simp [under_cons_self, ih]
    · simp [under_cons_of_ne hkey, hkey, ih]

theorem under_filter_of_ne {key key' : String} (h : key' ≠ key) (entries : List (String × α)) :
    under key (entries.filter fun entry => !decide (entry.1 = key')) = under key entries := by
  induction entries with
  | nil => rfl
  | cons entry entries ih =>
    obtain ⟨name, value⟩ := entry
    by_cases hname : name = key'
    · subst hname
      simp [under_cons_of_ne h, ih]
    · by_cases hkey : name = key
      · subst hkey
        simp [hname, under_cons_self, ih]
      · simp [hname, under_cons_of_ne hkey, ih]

/-- The entries of the first key come first, and then the others key by key. -/
theorem keyByKey_cons (key : String) (value : α) (entries : List (String × α)) :
    keyByKey ((key, value) :: entries) =
      ((key, value) :: entries).filter (·.1 = key) ++
        keyByKey (entries.filter fun entry => !decide (entry.1 = key)) := by
  have hothers : (entries.filter fun entry => !decide (entry.1 = key)).map (·.1) =
      (entries.map (·.1)).filter fun name => !name == key := by
    rw [List.filter_map]
    rfl
  rw [keyByKey, List.map_cons, List.eraseDups_cons, List.flatMap_cons, under_filter_self, ← hothers, keyByKey]
  congr 1
  refine List.flatMap_congr fun name hname => ?_
  obtain ⟨entry, hentry, rfl⟩ := List.mem_map.1 (List.mem_eraseDups.1 hname)
  have hne : entry.1 ≠ key := by simpa using (List.mem_filter.1 hentry).2
  rw [under_cons_of_ne hne.symm, under_filter_of_ne hne.symm]

theorem keyByKey_perm (entries : List (String × α)) : (keyByKey entries).Perm entries := by
  induction entries using filter_induction with
  | nil => exact .nil
  | cons entry entries ih =>
    obtain ⟨key, value⟩ := entry
    rw [keyByKey_cons]
    refine ((ih fun entry => !decide (entry.1 = key)).append_left _).trans ?_
    simpa using List.filter_append_perm (·.1 = key) ((key, value) :: entries)

theorem eraseDups_map {f : String → String} (hf : f.Injective) (names : List String) :
    (names.map f).eraseDups = names.eraseDups.map f := by
  induction names using filter_induction with
  | nil => rfl
  | cons name names ih =>
    have hfilter : ((names.map f).filter fun other => !other == f name) =
        (names.filter fun other => !other == name).map f := by
      rw [List.filter_map]
      congr 1
      refine List.filter_congr fun other _ => ?_
      exact congrArg (!·) (Bool.eq_iff_iff.2 (by simpa using hf.eq_iff))
    rw [List.map_cons, List.eraseDups_cons, List.eraseDups_cons, List.map_cons, hfilter, ih]

/-- Where keys are renamed, but no two to the same, entries are together that were so before. -/
theorem keyByKey_map {f : String → String} (hf : f.Injective) (g : String → α → β) (entries : List (String × α)) :
    keyByKey (entries.map fun entry => (f entry.1, g entry.1 entry.2)) =
      (keyByKey entries).map fun entry => (f entry.1, g entry.1 entry.2) := by
  have hunder (key : String) (entries : List (String × α)) :
      under (f key) (entries.map fun entry => (f entry.1, g entry.1 entry.2)) = (under key entries).map (g key) := by
    induction entries with
    | nil => rfl
    | cons entry entries ih =>
      obtain ⟨name, value⟩ := entry
      by_cases hname : name = key
      · subst hname
        simp [under_cons_self, ih]
      · simp [under_cons_of_ne hname, under_cons_of_ne (hf.ne hname), ih]
  have hkeys : (entries.map fun entry => (f entry.1, g entry.1 entry.2)).map (·.1) = (entries.map (·.1)).map f := by
    simp
  rw [keyByKey, hkeys, eraseDups_map hf, keyByKey, List.flatMap_map, List.map_flatMap]
  refine List.flatMap_congr fun key _ => ?_
  simp [hunder]

end KeyByKey

namespace HeaderMap

section Groups

variable {name : String} {value : Bytes} {names : List String} {values : String → List Bytes}

theorem appendTo_of_notMem (h : name ∉ names) :
    appendTo name value (names.map fun other => (other, values other)) =
      (names.map fun other => (other, values other)) ++ [(name, [value])] := by
  induction names with
  | nil => rfl
  | cons other names ih =>
    obtain ⟨hother, hnames⟩ := List.ne_and_not_mem_of_not_mem_cons h
    simp [appendTo, Ne.symm hother, ih hnames]

theorem appendTo_of_mem (hnodup : names.Nodup) (h : name ∈ names) :
    appendTo name value (names.map fun other => (other, values other)) =
      names.map fun other => (other, if other = name then values other ++ [value] else values other) := by
  induction names with
  | nil => simp at h
  | cons other names ih =>
    obtain ⟨hnotMem, hnames⟩ := List.nodup_cons.1 hnodup
    by_cases hother : other = name
    · subst hother
      have hrest : ∀ found ∈ names, found ≠ other := fun found hfound heq => hnotMem (heq ▸ hfound)
      simp +contextual [appendTo, hrest]
    · have hmem : name ∈ names := (List.mem_cons.1 h).resolve_left (Ne.symm hother)
      simp [appendTo, hother, ih hnames hmem]

end Groups

theorem nodup_eraseDups (names : List String) : names.eraseDups.Nodup := by
  induction names using filter_induction with
  | nil => exact List.nodup_nil
  | cons name names ih =>
    rw [List.eraseDups_cons, List.nodup_cons]
    exact ⟨by simp, ih _⟩

def gathered (fields : List (String × Bytes)) : HeaderMap :=
  ⟨(fields.map (·.1)).eraseDups.map fun name => (name, under name fields)⟩

theorem gathered_append (fields : List (String × Bytes)) (name : String) (value : Bytes) :
    gathered (fields ++ [(name, value)]) = (gathered fields).append name value := by
  have hunder (other : String) : under other (fields ++ [(name, value)]) =
      if other = name then under other fields ++ [value] else under other fields := by
    by_cases hother : other = name
    · subst hother
      simp [under_cons_self]
    · simp [under_cons_of_ne (Ne.symm hother), hother]
  rw [gathered, gathered, append, List.map_append, List.eraseDups_append]
  by_cases hmem : name ∈ fields.map (·.1)
  · have hnone : ([name].removeAll (fields.map (·.1))).eraseDups = [] := by
      simp_all [List.removeAll]
    rw [appendTo_of_mem (nodup_eraseDups _) (List.mem_eraseDups.2 hmem), List.map_singleton, hnone, List.append_nil]
    simp only [hunder]
  · have hone : ([name].removeAll (fields.map (·.1))).eraseDups = [name] := by
      simp_all [List.removeAll, List.eraseDups_cons]
    have hnone : under name fields = [] :=
      under_eq_nil_of_forall fun field hfield hname => hmem (hname ▸ List.mem_map_of_mem hfield)
    rw [appendTo_of_notMem (fun h => hmem (List.mem_eraseDups.1 h)), List.map_singleton, hone, List.map_append]
    congr 2
    · refine List.map_congr_left fun other hother => ?_
      have hne : other ≠ name := fun heq => hmem (heq ▸ List.mem_eraseDups.1 hother)
      rw [hunder, if_neg hne]
    · simp [hunder, hnone]

theorem foldl_append (fields : List (String × Bytes)) :
    fields.foldl (fun headers field => headers.append field.1 field.2) .empty = gathered fields := by
  induction fields using List.reverseRecOn with
  | nil => rfl
  | append_singleton fields field ih => rw [List.foldl_append, List.foldl_cons, List.foldl_nil, ih, gathered_append]

theorem fields_gathered (given : List (String × Bytes)) : (gathered given).fields = keyByKey given := by
  rw [fields, gathered, List.flatMap_map, keyByKey]

/-- Header fields as they come about: each name has one group, and no group is without values. -/
structure WellFormed (headers : HeaderMap) : Prop where
  distinct : headers.Distinct
  filled : ∀ group ∈ headers.groups, group.2 ≠ []

theorem wellFormed_empty : WellFormed .empty := ⟨distinct_empty, nofun⟩

theorem filled_appendTo (name : String) (value : Bytes) {groups : List (String × List Bytes)}
    (h : ∀ group ∈ groups, group.2 ≠ []) : ∀ group ∈ appendTo name value groups, group.2 ≠ [] := by
  induction groups with
  | nil => simp [appendTo]
  | cons group groups ih =>
    obtain ⟨hgroup, hgroups⟩ := List.forall_mem_cons.1 h
    by_cases hname : group.1 = name
    · simpa [appendTo, hname] using fun name values => hgroups (name, values)
    · have hrest := ih hgroups
      simpa [appendTo, hname, hgroup] using fun name values => hrest (name, values)

theorem WellFormed.append {headers : HeaderMap} (h : headers.WellFormed) (name : String) (value : Bytes) :
    (headers.append name value).WellFormed :=
  ⟨h.distinct.append name value, filled_appendTo name value h.filled⟩

section Distinct

variable {name : String} {values : List Bytes} {groups : List (String × List Bytes)}

theorem Distinct.under_eq_nil (h : Distinct ⟨(name, values) :: groups⟩) : under name groups = [] := by
  have hname := h name
  rw [under_cons_self, List.length_cons] at hname
  exact List.eq_nil_of_length_eq_zero (Nat.le_zero.1 (Nat.le_of_succ_le_succ hname))

theorem Distinct.tail (h : Distinct ⟨(name, values) :: groups⟩) : Distinct ⟨groups⟩ := by
  intro key
  by_cases hkey : name = key
  · subst hkey
    simp [h.under_eq_nil]
  · simpa [under_cons_of_ne hkey] using h key

theorem Distinct.ne_of_mem (h : Distinct ⟨(name, values) :: groups⟩) {group : String × List Bytes}
    (hgroup : group ∈ groups) : group.1 ≠ name := by
  rintro rfl
  have hmem : group.2 ∈ under group.1 groups := mem_under_of_mem hgroup
  simp [h.under_eq_nil] at hmem

theorem Distinct.under_of_mem (h : Distinct ⟨groups⟩) (hgroup : (name, values) ∈ groups) :
    under name groups = [values] := by
  have hmem := mem_under_of_mem hgroup
  have hone := h name
  match hunder : under name groups with
  | [] => simp [hunder] at hmem
  | [found] =>
    rw [hunder, List.mem_singleton] at hmem
    rw [hmem]
  | _ :: _ :: _ => simp [hunder] at hone

end Distinct

theorem WellFormed.eraseDups_names {groups : List (String × List Bytes)} (h : WellFormed ⟨groups⟩) :
    ((fields ⟨groups⟩).map (·.1)).eraseDups = groups.map (·.1) := by
  induction groups with
  | nil => rfl
  | cons group groups ih =>
    obtain ⟨name, values⟩ := group
    obtain ⟨hvalues, hgroups⟩ := List.forall_mem_cons.1 h.filled
    obtain ⟨value, values, rfl⟩ := List.exists_cons_of_ne_nil hvalues
    have hfields : (fields ⟨(name, value :: values) :: groups⟩).map (·.1) =
        name :: (values.map fun _ => name) ++ (fields ⟨groups⟩).map (·.1) := by
      simp [fields, Function.comp_def]
    have hothers : ((fields ⟨groups⟩).map (·.1)).filter (fun other => !other == name) =
        (fields ⟨groups⟩).map (·.1) := by
      refine List.filter_eq_self.2 fun other hother => ?_
      simp only [fields, List.mem_map, List.mem_flatMap] at hother
      obtain ⟨_, ⟨group, hgroup, _, -, rfl⟩, rfl⟩ := hother
      simpa using h.distinct.ne_of_mem hgroup
    rw [hfields, List.cons_append, List.eraseDups_cons, List.filter_append, hothers]
    simp [ih ⟨h.distinct.tail, hgroups⟩]

theorem WellFormed.gathered_fields {headers : HeaderMap} (h : headers.WellFormed) :
    gathered headers.fields = headers := by
  have hgroup : ∀ group ∈ headers.groups, (group.1, under group.1 headers.fields) = group := by
    rintro ⟨name, values⟩ hgroup
    rw [under_fields h.distinct, getAll_eq_under, h.distinct.under_of_mem hgroup]
    rfl
  rw [gathered, h.eraseDups_names, List.map_map]
  exact congrArg HeaderMap.mk ((List.map_congr_left hgroup).trans (List.map_id _))

end HeaderMap

namespace Metadata

def wireField (mark : String) (entry : String × Bytes) : String × Bytes := (mark ++ entry.1, wire entry.1 entry.2)

theorem writeEntries_of_writable {mark : String} {entries : List (String × Bytes)}
    (hmark : ∀ entry ∈ entries, Markable mark entry) (h : ∀ entry ∈ entries, Writable entry) (headers : HeaderMap) :
    writeEntries mark headers entries =
      ((entries.map (wireField mark)).foldl (fun headers field => headers.append field.1 field.2) headers, .ok ()) := by
  induction entries generalizing headers with
  | nil => rfl
  | cons entry entries ih =>
    obtain ⟨hentry, hentries⟩ := List.forall_mem_cons.1 h
    obtain ⟨hfirst, hothers⟩ := List.forall_mem_cons.1 hmark
    rw [writeEntries, writeEntry_of_writable hfirst hentry]
    exact ih hothers hentries _

/-- Metadata that can be sent is written to empty header fields to the end, and these hold its entries key by key. -/
theorem exists_written {mark : String} {metadata : Metadata} (hmark : ∀ entry ∈ metadata.entries, Markable mark entry)
    (h : metadata.Sendable) :
    ∃ written, metadata.writeMarked .empty mark = (written, .ok ()) ∧
      written.fields = (keyByKey metadata.entries).map (wireField mark) := by
  have hinjective : Function.Injective (mark ++ ·) := fun _ _ heq => (String.append_right_inj mark).1 heq
  refine ⟨.gathered (metadata.entries.map (wireField mark)), ?_, ?_⟩
  · rw [writeMarked, writeEntries_of_writable hmark h, HeaderMap.foldl_append]
  · rw [HeaderMap.fields_gathered]
    exact keyByKey_map hinjective wire metadata.entries

/-- A key is not empty, so it is there when its mark is taken off. -/
theorem unmarked_wireField {mark : String} {entry : String × Bytes} (h : Writable entry) :
    unmarked mark (wireField mark entry) = some (entry.1, wire entry.1 entry.2) := by
  refine unmarked_eq_some_iff.2 ⟨rfl, fun hempty => ?_, rfl⟩
  have hname := (HeaderMap.name?_eq_some_iff.1 h.name).1
  rw [hempty] at hname
  exact hname rfl

theorem readField_keyByKey {metadata : Metadata} (h : metadata.Sendable) :
    (keyByKey metadata.entries).flatMap (fun entry => readField (entry.1, wire entry.1 entry.2)) =
      keyByKey metadata.entries :=
  flatMap_eq_self fun entry hentry => readField_wire (h entry (mem_of_mem_keyByKey hentry))

/-- Fields that hold metadata behind a mark are read as that metadata key by key. -/
theorem ofMarkedHeaders_written {mark : String} {metadata : Metadata} (h : metadata.Sendable) {written : HeaderMap}
    (hfields : written.fields = (keyByKey metadata.entries).map (wireField mark)) :
    ofMarkedHeaders written mark = ⟨keyByKey metadata.entries⟩ := by
  have hunmarked : ((keyByKey metadata.entries).map (wireField mark)).filterMap (unmarked mark) =
      (keyByKey metadata.entries).map fun entry => (entry.1, wire entry.1 entry.2) := by
    rw [List.filterMap_map, ← List.filterMap_eq_map]
    exact List.filterMap_congr fun entry hentry => unmarked_wireField (h entry (mem_of_mem_keyByKey hentry))
  refine congrArg Metadata.mk ((entries_ofMarkedHeaders written mark).trans ?_)
  rw [hfields, hunmarked, List.flatMap_map, readField_keyByKey h]

/-- Metadata that header fields can hold is written to them as a whole and read back with its entries key by key: no
entry is lost and none is added. Behind the mark of trailers the same holds up to the first key that has no room there,
and so of all metadata without such a key; where there is one, the writer fails. -/
theorem write_roundTrip {metadata : Metadata} (h : metadata.Sendable) :
    (keyByKey metadata.entries).Perm metadata.entries ∧
    (∃ written, metadata.write .empty = (written, .ok ()) ∧ ofHeaders written = ⟨keyByKey metadata.entries⟩) ∧
    (∃ written outcome, metadata.writeMarked .empty trailerMark = (written, outcome) ∧
      ofMarkedHeaders written trailerMark = ⟨keyByKey metadata.shortPart.entries⟩ ∧
      (outcome = .ok () ↔ metadata.shortPart = metadata)) ∧
    (metadata.shortPart = metadata ↔ ∀ entry ∈ metadata.entries, isShort entry.1 = true) := by
  refine ⟨keyByKey_perm _, ?_, ?_, shortPart_eq_self_iff⟩
  · obtain ⟨written, hwritten, hfields⟩ := exists_written (fun entry hentry => (h entry hentry).markable_empty) h
    refine ⟨written, hwritten, congrArg Metadata.mk ((entries_ofHeaders written).trans ?_)⟩
    rw [hfields, List.flatMap_map]
    simpa [wireField] using readField_keyByKey h
  · obtain ⟨written, hwritten, hfields⟩ := exists_written (markable_shortPart h) h.shortPart
    obtain ⟨hsame, houtcome⟩ := writeMarked_shortPart h .empty
    refine ⟨written, _, Prod.ext (hsame.trans ?_) rfl, ofMarkedHeaders_written h.shortPart hfields, houtcome⟩
    rw [hwritten]

def alternating : Metadata :=
  ⟨[("x-bin", [0xff, 0x0a]), ("trailers", [0x61]), ("x-bin", []), ("trailers", [0x20, 0xff]), ("trailers", [0x61])]⟩

theorem write_roundTrip_alternating :
    alternating.Sendable ∧
    ∃ written, alternating.writeMarked .empty trailerMark = (written, .ok ()) ∧
      ofMarkedHeaders written trailerMark =
        ⟨[("x-bin", [0xff, 0x0a]), ("x-bin", []), ("trailers", [0x61]), ("trailers", [0x20, 0xff]),
          ("trailers", [0x61])]⟩ := by
  have hsendable : alternating.Sendable := by decide +kernel
  have hkeys : keyByKey alternating.entries =
      [("x-bin", [0xff, 0x0a]), ("x-bin", []), ("trailers", [0x61]), ("trailers", [0x20, 0xff]),
        ("trailers", [0x61])] := by decide +kernel
  obtain ⟨-, -, ⟨written, outcome, hwritten, hread, houtcome⟩, hshort⟩ := write_roundTrip hsendable
  have hwhole : alternating.shortPart = alternating := hshort.2 (by decide +kernel)
  rw [hwhole, hkeys] at hread
  rw [houtcome.2 hwhole] at hwritten
  exact ⟨hsendable, written, hwritten, hread⟩

/-- A key without room behind the mark is written without it only. -/
theorem writeMarked_long :
    long.Sendable ∧ (long.write .empty).2 = .ok () ∧
      long.writeMarked .empty trailerMark = (.empty, .error (.internal ("invalid metadata key: " ++ repeated 65528))) := by
  obtain ⟨written, hwritten, -⟩ := write_of_sendable sendable_long HeaderMap.distinct_empty
  have hlong : isShort (repeated 65528) = false := (isShort_repeated 65528).trans (by decide)
  refine ⟨sendable_long, by rw [hwritten], ?_⟩
  rw [writeMarked, long, writeEntries, @writeEntry_of_long (repeated 65528, [0x76]) hlong]

end Metadata
end RpcConformance
