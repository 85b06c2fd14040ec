import Mathlib.Data.List.TakeWhile
import RpcConformance.Proofs.Metadata.Header
/-!
Metadata under names that start with a mark, as a unary response carries its trailers: it is written up to the first
key that has no room behind the mark (`writeMarked_shortPart`), and what was written is read back with the same values
under each key (`sameValues_ofMarkedHeaders`).
-/
namespace RpcConformance.Metadata

/-- Only a mark and a key make a name that has the key after the mark. -/
theorem afterMark?_eq_some_iff {mark name key : String} : afterMark? mark name = some key ↔ mark ++ key = name := by
  rw [afterMark?, startsWith]
  constructor
  · intro h
    split at h
    · rename_i hstarts
      obtain ⟨rest, hrest⟩ := List.isPrefixOf_iff_prefix.1 hstarts
      rw [← Option.some.inj h, ← String.toList_inj, String.toList_append, String.toList_ofList, ← hrest,
        ← String.length_toList, List.drop_left]
    · cases h
  · rintro rfl
    have hstarts : mark.toList.isPrefixOf (mark ++ key).toList = true := by
      rw [String.toList_append]
      exact List.isPrefixOf_iff_prefix.2 (List.prefix_append _ _)
    rw [if_pos hstarts, String.toList_append, ← String.length_toList, List.drop_left, String.ofList_toList]

/-- Whether a key has room behind the mark of trailers: no name is longer than `HeaderMap.longestName`. -/
def isShort (key : String) : Bool := (Bytes.ofString (trailerMark ++ key)).length ≤ HeaderMap.longestName

/-- A key can stand behind the mark of trailers just if there is room for both. -/
theorem Writable.markable_trailerMark_iff {entry : String × Bytes} (h : Writable entry) :
    Markable trailerMark entry ↔ isShort entry.1 = true := by
  obtain ⟨-, hall, -, -⟩ := HeaderMap.name?_eq_some_iff.1 h.name
  have hmark : ∀ b ∈ Bytes.ofString trailerMark, HeaderMap.isNameByte b = true := by decide +kernel
  have hlower : (Bytes.ofString trailerMark).map Bytes.lower = Bytes.ofString trailerMark := by decide +kernel
  have hself : (Bytes.ofString (trailerMark ++ entry.1)).map Bytes.lower =
      Bytes.ofString (trailerMark ++ entry.1) := by
    rw [Bytes.ofString_append, List.map_append, hlower, HeaderMap.lower_of_name h.name]
  rw [isShort, decide_eq_true_iff, Markable]
  refine ⟨fun hname => (HeaderMap.name?_eq_some_iff.1 hname).2.2.2, fun hroom =>
    HeaderMap.name?_eq_some_iff.2 ⟨?_, ?_, ?_, hroom⟩⟩
  · rw [Bytes.ofString_append]
    exact List.append_ne_nil_of_left_ne_nil (by decide +kernel) _
  · rw [Bytes.ofString_append]
    exact List.forall_mem_append.2 ⟨hmark, hall⟩
  · rw [hself, Bytes.text?_ofString]

theorem writeEntry_of_long {entry : String × Bytes} (hlong : isShort entry.1 = false) (headers : HeaderMap) :
    writeEntry trailerMark headers entry = .error (.internal ("invalid metadata key: " ++ entry.1)) := by
  have hnone : HeaderMap.name? (Bytes.ofString (trailerMark ++ entry.1)) = none := by
    refine Option.eq_none_iff_forall_ne_some.2 fun name hname => ?_
    have hroom := (HeaderMap.name?_eq_some_iff.1 hname).2.2.2
    rw [isShort, decide_eq_false_iff_not] at hlong
    exact hlong hroom
  rw [writeEntry, hnone]

/-- The entries before the first whose key has no room behind the mark of trailers. -/
def shortPart (metadata : Metadata) : Metadata := ⟨metadata.entries.takeWhile (isShort ·.1)⟩

theorem Sendable.shortPart {metadata : Metadata} (h : metadata.Sendable) : metadata.shortPart.Sendable :=
  fun _ hentry => h _ (List.takeWhile_subset _ hentry)

theorem shortPart_eq_self_iff {metadata : Metadata} :
    metadata.shortPart = metadata ↔ ∀ entry ∈ metadata.entries, isShort entry.1 = true := by
  rw [← List.takeWhile_eq_self_iff]
  exact ⟨congrArg entries, congrArg Metadata.mk⟩

theorem markable_shortPart {metadata : Metadata} (h : metadata.Sendable) :
    ∀ entry ∈ metadata.shortPart.entries, Markable trailerMark entry := by
  intro entry hentry
  have hshort := List.all_eq_true.1 List.all_takeWhile entry hentry
  exact (h.shortPart entry hentry).markable_trailerMark_iff.2 hshort

/-- Behind the mark of trailers the entries are written up to the first whose key has no room there. -/
theorem writeMarked_shortPart {metadata : Metadata} (h : metadata.Sendable) (headers : HeaderMap) :
    (metadata.writeMarked headers trailerMark).1 = (metadata.shortPart.writeMarked headers trailerMark).1 ∧
      ((metadata.writeMarked headers trailerMark).2 = .ok () ↔ metadata.shortPart = metadata) := by
  rw [shortPart_eq_self_iff, writeMarked, writeMarked, Metadata.shortPart]
  obtain ⟨entries⟩ := metadata
  replace h : ∀ entry ∈ entries, Writable entry := h
  induction entries generalizing headers with
  | nil => exact ⟨rfl, by simp [writeEntries]⟩
  | cons entry entries ih =>
    obtain ⟨hentry, hentries⟩ := List.forall_mem_cons.1 h
    cases hshort : isShort entry.1 with
    | false =>
      simp only [List.takeWhile_cons, hshort, Bool.false_eq_true, if_false, writeEntries, writeEntry_of_long hshort]
      simp [hshort]
    | true =>
      have hwrite := writeEntry_of_writable (hentry.markable_trailerMark_iff.2 hshort) hentry headers
      obtain ⟨hfields, houtcome⟩ := ih (headers.append (trailerMark ++ entry.1) (wire entry.1 entry.2)) hentries
      simp only [List.takeWhile_cons, hshort, if_true, writeEntries, hwrite]
      exact ⟨hfields, by simpa [hshort] using houtcome⟩

theorem isReserved_marked (key : String) : isReserved (trailerMark ++ key) = true := by
  have hstarts : startsWith trailerMark (trailerMark ++ key) = true := by
    rw [startsWith, String.toList_append]
    exact List.isPrefixOf_iff_prefix.2 (List.prefix_append _ _)
  rw [isReserved, reservedMarks]
  simp [hstarts]

def unmarked (mark : String) (field : String × Bytes) : Option (String × Bytes) :=
  match afterMark? mark field.1 with
  | some key => if key = "" then none else some (key, field.2)
  | none => none

theorem unmarked_eq_some_iff {mark : String} {field found : String × Bytes} :
    unmarked mark field = some found ↔ mark ++ found.1 = field.1 ∧ found.1 ≠ "" ∧ found.2 = field.2 := by
  rw [← afterMark?_eq_some_iff, unmarked]
  cases afterMark? mark field.1 with
  | none => simp
  | some key =>
    obtain ⟨key', value⟩ := found
    by_cases hkey : key = ""
    · simp only [if_pos hkey]
      exact ⟨nofun, fun ⟨hsame, hne, _⟩ => absurd ((Option.some.inj hsame).symm.trans hkey) hne⟩
    · simp only [if_neg hkey]
      constructor
      · intro h
        cases h
        exact ⟨rfl, hkey, rfl⟩
      · rintro ⟨hsame, -, rfl⟩
        rw [Option.some.inj hsame]

theorem entries_ofMarkedHeaders (headers : HeaderMap) (mark : String) :
    (ofMarkedHeaders headers mark).entries = (headers.fields.filterMap (unmarked mark)).flatMap readField := by
  have hflat (fields : List (String × Bytes)) :
      (fields.filterMap (unmarked mark)).flatMap readField =
        fields.flatMap fun field => ((unmarked mark field).map readField).getD [] := by
    induction fields with
    | nil => rfl
    | cons field fields ih =>
      rw [List.flatMap_cons, ← ih]
      cases hfield : unmarked mark field with
      | none => rw [List.filterMap_cons_none hfield]; rfl
      | some found => rw [List.filterMap_cons_some hfield, List.flatMap_cons]; rfl
  rw [hflat]
  refine entries_foldl (fun metadata field => ?_) headers.fields empty
  obtain ⟨name, value⟩ := field
  simp only [unmarked]
  cases hmark : afterMark? mark name with
  | none => exact (List.append_nil _).symm
  | some key =>
    by_cases hempty : key = ""
    · simp [hempty]
    · by_cases hreserved : isReserved key = true
      · simp [hempty, hreserved, readField]
      · simp [hempty, hreserved, readField, insertWire_entries metadata key value]

/-- Under a key stand the values of the fields with that key after the mark. -/
theorem under_unmarked {mark key : String} (hkey : key ≠ "") (fields : List (String × Bytes)) :
    under key (fields.filterMap (unmarked mark)) = under (mark ++ key) fields := by
  induction fields with
  | nil => rfl
  | cons field fields ih =>
    obtain ⟨name, value⟩ := field
    by_cases hname : name = mark ++ key
    · have hfound : unmarked mark (name, value) = some (key, value) :=
        unmarked_eq_some_iff.2 ⟨hname.symm, hkey, rfl⟩
      rw [List.filterMap_cons_some hfound, hname, under_cons_self, under_cons_self, ih]
    · rw [under_cons_of_ne hname, ← ih]
      cases hfound : unmarked mark (name, value) with
      | none => rw [List.filterMap_cons_none hfound]
      | some found =>
        have hother : found.1 ≠ key := by
          rintro rfl
          exact hname (unmarked_eq_some_iff.1 hfound).1.symm
        rw [List.filterMap_cons_some hfound, under_cons_of_ne hother]

theorem sameValues_ofMarkedHeaders {headers : HeaderMap} {metadata : Metadata} (h : metadata.Sendable)
    (hdistinct : headers.Distinct)
    (hvalues : ∀ key, headers.getAll (trailerMark ++ key) = (under key metadata.entries).map (wire key)) :
    (ofMarkedHeaders headers trailerMark).SameValues metadata := by
  have hself : ofMarkedHeaders headers trailerMark =
      ⟨(headers.fields.filterMap (unmarked trailerMark)).flatMap readField⟩ := by
    rw [← entries_ofMarkedHeaders]
  rw [hself]
  refine sameValues_flatMap h fun key _ => ?_
  by_cases hkey : key = ""
  · have hnone : under key metadata.entries = [] := by
      refine under_eq_nil_of_forall fun entry hentry hname => ?_
      have hspelled := (HeaderMap.name?_eq_some_iff.1 (h entry hentry).name).1
      rw [hname, hkey] at hspelled
      exact hspelled rfl
    rw [hnone, List.map_nil]
    refine under_eq_nil_of_forall fun found hfound hname => ?_
    obtain ⟨field, -, hfield⟩ := List.mem_filterMap.1 hfound
    exact (unmarked_eq_some_iff.1 hfield).2.1 (hname.trans hkey)
  · rw [under_unmarked hkey, HeaderMap.under_fields hdistinct, hvalues]

theorem isReserved_of_head {key : String} (h : key.toList.head? = some 'x') : isReserved key = false := by
  have hnames : ∀ name ∈ reservedNames, name.toList.head? ≠ some 'x' := by decide
  have hmarks : ∀ mark ∈ reservedMarks, mark.toList.head? ≠ some 'x' := by decide
  have hfilled : ∀ mark ∈ reservedMarks, mark.toList ≠ [] := by decide
  rw [isReserved, Bool.or_eq_false_iff]
  constructor
  · rw [Bool.eq_false_iff, Ne, List.contains_iff_mem]
    exact fun hmem => hnames key hmem h
  · refine List.any_eq_false.2 fun mark hmark hstarts => ?_
    obtain ⟨c, chars, hchars⟩ := List.exists_cons_of_ne_nil (hfilled mark hmark)
    obtain ⟨rest, hrest⟩ := List.isPrefixOf_iff_prefix.1 hstarts
    rw [← hrest, hchars, List.cons_append, List.head?_cons] at h
    have hfirst : mark.toList.head? = some c := by rw [hchars, List.head?_cons]
    exact hmarks mark hmark (hfirst.trans h)

def repeated (n : Nat) : String := String.ofList (List.replicate n 'x')

theorem ofString_repeated (n : Nat) : Bytes.ofString (repeated n) = List.replicate n 0x78 := by
  have hascii : ∀ b ∈ List.replicate n (0x78 : UInt8), b < 0x80 := fun b hb => List.eq_of_mem_replicate hb ▸ by decide
  have hspelled := Bytes.ofString_ascii hascii
  rwa [List.map_replicate] at hspelled

theorem writable_repeated {n : Nat} (hpos : 0 < n) (hroom : n ≤ HeaderMap.longestName) (value : Bytes)
    (hvalue : HeaderMap.isValue value = true) : Writable (repeated n, value) := by
  have hbytes := ofString_repeated n
  refine ⟨HeaderMap.name?_eq_some_iff.2 ⟨?_, ?_, ?_, ?_⟩, isReserved_of_head ?_, fun _ => hvalue⟩
  · rw [hbytes]
    simpa using hpos.ne'
  · rw [hbytes]
    exact fun b hb => List.eq_of_mem_replicate hb ▸ by decide
  · rw [← Bytes.text?_ofString, hbytes, List.map_replicate]
    rfl
  · simpa [hbytes] using hroom
  · simp [repeated, List.head?_replicate, hpos.ne']

theorem isShort_repeated (n : Nat) : isShort (repeated n) = decide (n + 8 ≤ HeaderMap.longestName) := by
  have hmark : (Bytes.ofString trailerMark).length = 8 := by decide +kernel
  rw [isShort, Bytes.ofString_append, List.length_append, hmark, ofString_repeated, List.length_replicate,
    Nat.add_comm]

/-- Metadata with a key that is a name by itself and has no room behind the mark of trailers. -/
def long : Metadata := ⟨[(repeated 65528, [0x76])]⟩

theorem sendable_long : long.Sendable :=
  List.forall_mem_singleton.2 (writable_repeated (by decide) (by decide) [0x76] (by decide))

theorem shortPart_long : long.shortPart = empty := by
  rw [shortPart, long, List.takeWhile_cons, isShort_repeated]
  rfl

end RpcConformance.Metadata
