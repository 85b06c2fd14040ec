import RpcConformance.Metadata.Json
/-!
The values under a key (`under`), which is all that matters about metadata: the order in which keys
appear does not (`SameValues`). Grouping entries by key keeps the values under each
(`under_grouped`), and so do header fields (`under_fields`).
-/
namespace RpcConformance

/-- The values under a key, in order. -/
def under {α : Type} (key : String) (entries : List (String × α)) : List α :=
  entries.filterMap fun (key', value) => if key' = key then some value else none

section Under

variable {α β : Type} {key key' : String}

@[simp] theorem under_nil : under key ([] : List (String × α)) = [] := rfl

theorem under_cons_self (key : String) (value : α) (entries : List (String × α)) :
    under key ((key, value) :: entries) = value :: under key entries := by
  simp [under]

theorem under_cons_of_ne (h : key' ≠ key) (value : α) (entries : List (String × α)) :
    under key ((key', value) :: entries) = under key entries := by
  simp [under, h]

@[simp] theorem under_append (entries more : List (String × α)) :
    under key (entries ++ more) = under key entries ++ under key more := List.filterMap_append

theorem mem_of_mem_under {value : α} {entries : List (String × α)} (h : value ∈ under key entries) :
    (key, value) ∈ entries := by
  obtain ⟨⟨key', value'⟩, hmem, hvalue⟩ := List.mem_filterMap.1 h
  simp only at hvalue
  split at hvalue
  · rename_i hkey
    subst hkey
    cases hvalue
    exact hmem
  · cases hvalue

theorem mem_under_of_mem {value : α} {entries : List (String × α)} (h : (key, value) ∈ entries) :
    value ∈ under key entries :=
  List.mem_filterMap.2 ⟨(key, value), h, if_pos rfl⟩

theorem under_eq_nil_of_forall {entries : List (String × α)} (h : ∀ entry ∈ entries, entry.1 ≠ key) :
    under key entries = [] := by
  induction entries with
  | nil => rfl
  | cons entry entries ih =>
    rw [under_cons_of_ne (h entry List.mem_cons_self),
      ih fun entry hmem => h entry (List.mem_cons_of_mem _ hmem)]

theorem under_map (f : String → α → β) (entries : List (String × α)) :
    under key (entries.map fun (key, value) => (key, f key value)) = (under key entries).map (f key) := by
  induction entries with
  | nil => rfl
  | cons entry entries ih =>
    obtain ⟨key', value⟩ := entry
    rw [List.map_cons]
    by_cases hkey : key' = key
    · subst hkey
      rw [under_cons_self, under_cons_self, List.map_cons, ih]
    · rw [under_cons_of_ne hkey, under_cons_of_ne hkey, ih]

theorem under_pairs (key : String) (values : List α) : under key (values.map (key, ·)) = values := by
  induction values with
  | nil => rfl
  | cons value values ih => rw [List.map_cons, under_cons_self, ih]

/-- Where every entry leads to entries under its own key, the values under a key come from the values
under that key. -/
theorem under_flatMap {f : String × α → List (String × β)} {entries : List (String × α)}
    (h : ∀ entry ∈ entries, ∀ found ∈ f entry, found.1 = entry.1) (key : String) :
    under key (entries.flatMap f) = (under key entries).flatMap fun value => under key (f (key, value)) := by
  induction entries with
  | nil => rfl
  | cons entry entries ih =>
    obtain ⟨key', value⟩ := entry
    have htail := ih fun entry hmem => h entry (List.mem_cons_of_mem _ hmem)
    rw [List.flatMap_cons, under_append, htail]
    by_cases hkey : key' = key
    · subst hkey
      rw [under_cons_self, List.flatMap_cons]
    · have hnone : under key (f (key', value)) = [] := by
        refine under_eq_nil_of_forall fun found hmem => ?_
        rw [h (key', value) List.mem_cons_self found hmem]
        exact hkey
      rw [hnone, under_cons_of_ne hkey, List.nil_append]

theorem flatMap_eq_self {f : α → List α} {values : List α} (h : ∀ value ∈ values, f value = [value]) :
    values.flatMap f = values := by
  induction values with
  | nil => rfl
  | cons value values ih =>
    rw [List.flatMap_cons, h value List.mem_cons_self,
      ih fun value hmem => h value (List.mem_cons_of_mem _ hmem), List.singleton_append]

end Under

namespace Metadata

theorem getAll_eq_under (metadata : Metadata) (key : String) :
    metadata.getAll key = under (lowerCase key) metadata.entries := rfl

theorem getAll_single (key : String) (value : Bytes) : (single key value).getAll key = [value] :=
  under_cons_self _ _ _

/-- Whether two pieces of metadata have the same values under each key, in the same order. -/
def SameValues (metadata other : Metadata) : Prop :=
  ∀ key, under key metadata.entries = under key other.entries

theorem SameValues.getAll {metadata other : Metadata} (h : metadata.SameValues other) (key : String) :
    metadata.getAll key = other.getAll key := h (lowerCase key)

def Ascending {α : Type} (groups : List (String × List α)) : Prop :=
  groups.Pairwise fun group next => group.1 < next.1

section Grouped

variable {α : Type} {key : String} {groups : List (String × List α)}

theorem key_of_mem_addSorted {value : α} {group : String × List α} (h : group ∈ addSorted key value groups) :
    group.1 = key ∨ ∃ other ∈ groups, other.1 = group.1 := by
  induction groups with
  | nil =>
    rw [List.mem_singleton.1 h]
    exact .inl rfl
  | cons other groups ih =>
    obtain ⟨key', values⟩ := other
    rw [addSorted] at h
    split at h
    · rename_i hkey
      rcases List.mem_cons.1 h with rfl | hmem
      · exact .inl hkey.symm
      · exact .inr ⟨group, List.mem_cons_of_mem _ hmem, rfl⟩
    · split at h
      · rcases List.mem_cons.1 h with rfl | hmem
        · exact .inl rfl
        · exact .inr ⟨group, hmem, rfl⟩
      · rcases List.mem_cons.1 h with rfl | hmem
        · exact .inr ⟨_, List.mem_cons_self, rfl⟩
        · rcases ih hmem with hkey | ⟨found, hfound, hkey⟩
          · exact .inl hkey
          · exact .inr ⟨found, List.mem_cons_of_mem _ hfound, hkey⟩

theorem Ascending.addSorted (h : Ascending groups) (key : String) (value : α) :
    Ascending (addSorted key value groups) := by
  induction groups with
  | nil => exact List.pairwise_singleton _ _
  | cons group groups ih =>
    obtain ⟨key', values⟩ := group
    obtain ⟨hhead, htail⟩ := List.pairwise_cons.1 h
    rw [Metadata.addSorted]
    split
    · exact List.pairwise_cons.2 ⟨hhead, htail⟩
    · rename_i hne
      split
      · rename_i hlt
        refine List.pairwise_cons.2 ⟨fun other hother => ?_, h⟩
        rcases List.mem_cons.1 hother with rfl | hmem
        · exact hlt
        · exact String.lt_trans hlt (hhead other hmem)
      · rename_i hge
        refine List.pairwise_cons.2 ⟨fun other hother => ?_, ih htail⟩
        rcases key_of_mem_addSorted hother with hkey | ⟨found, hfound, hkey⟩
        · rw [hkey]
          exact String.not_le.1 fun hle => hne (String.le_antisymm hle (String.not_lt.1 hge))
        · exact hkey ▸ hhead found hfound

theorem under_addSorted_of_ne {key' : String} (h : key' ≠ key) (value : α) (groups : List (String × List α)) :
    under key (addSorted key' value groups) = under key groups := by
  induction groups with
  | nil => exact under_cons_of_ne h _ _
  | cons group groups ih =>
    obtain ⟨name, values⟩ := group
    rw [addSorted]
    split
    · rename_i hname
      subst hname
      rw [under_cons_of_ne h, under_cons_of_ne h]
    · split
      · rw [under_cons_of_ne h]
      · by_cases hkey : name = key
        · subst hkey
          rw [under_cons_self, under_cons_self, ih]
        · rw [under_cons_of_ne hkey, under_cons_of_ne hkey, ih]

theorem under_addSorted_self (h : Ascending groups) (key : String) (value : α) :
    under key (addSorted key value groups) = [(under key groups).flatten ++ [value]] := by
  induction groups with
  | nil => exact under_cons_self key _ _
  | cons group groups ih =>
    obtain ⟨name, values⟩ := group
    obtain ⟨hhead, htail⟩ := List.pairwise_cons.1 h
    have habsent : ∀ {name : String}, (∀ other ∈ groups, name < other.1) → under name groups = [] := by
      intro name hname
      refine under_eq_nil_of_forall fun other hother heq => ?_
      exact String.lt_irrefl name (by simpa [heq] using hname other hother)
    rw [addSorted]
    split
    · rename_i hname
      subst hname
      rw [under_cons_self, under_cons_self, habsent hhead]
      simp
    · rename_i hne
      split
      · rename_i hlt
        have hall : ∀ other ∈ groups, key < other.1 := fun other hother =>
          String.lt_trans hlt (hhead other hother)
        rw [under_cons_self, under_cons_of_ne (Ne.symm hne), habsent hall]
        rfl
      · rw [under_cons_of_ne (Ne.symm hne), under_cons_of_ne (Ne.symm hne), ih htail]

theorem ascending_grouped (entries : List (String × α)) : Ascending (grouped entries) := by
  have hfold : ∀ groups : List (String × List α), Ascending groups →
      Ascending (entries.foldl (fun groups (key, value) => addSorted key value groups) groups) := by
    induction entries with
    | nil => exact fun _ h => h
    | cons entry entries ih => exact fun groups h => ih _ (h.addSorted entry.1 entry.2)
  exact hfold [] List.Pairwise.nil

theorem under_grouped (key : String) (entries : List (String × α)) :
    under key (grouped entries) = if under key entries = [] then [] else [under key entries] := by
  have hfold : ∀ groups : List (String × List α), Ascending groups →
      under key (entries.foldl (fun groups (key, value) => addSorted key value groups) groups) =
        if under key entries = [] then under key groups
        else [(under key groups).flatten ++ under key entries] := by
    induction entries with
    | nil => exact fun _ _ => rfl
    | cons entry entries ih =>
      obtain ⟨key', value⟩ := entry
      intro groups h
      rw [List.foldl_cons, ih _ (h.addSorted key' value)]
      by_cases hkey : key' = key
      · subst hkey
        rw [under_addSorted_self h, under_cons_self]
        by_cases hnil : under key' entries = [] <;> simp [hnil]
      · rw [under_addSorted_of_ne hkey, under_cons_of_ne hkey]
  exact hfold [] List.Pairwise.nil

end Grouped

end Metadata

namespace HeaderMap

/-- Whether every name has one group at most. -/
def Distinct (headers : HeaderMap) : Prop := ∀ name, (under name headers.groups).length ≤ 1

theorem getAll_eq_under (headers : HeaderMap) (name : String) :
    headers.getAll name = (under name headers.groups).headD [] := by
  rw [getAll]
  induction headers.groups with
  | nil => rfl
  | cons group groups ih =>
    obtain ⟨name', values⟩ := group
    by_cases hname : name' = name
    · subst hname
      rw [under_cons_self, List.find?_cons_of_pos (by simp)]
      rfl
    · rw [under_cons_of_ne hname, List.find?_cons_of_neg (by simp [hname]), ih]

theorem under_fields {headers : HeaderMap} (h : headers.Distinct) (name : String) :
    under name headers.fields = headers.getAll name := by
  have hflat : under name headers.fields = (under name headers.groups).flatten := by
    have hkeys : ∀ group ∈ headers.groups, ∀ field ∈ group.2.map (group.1, ·), field.1 = group.1 := by
      intro group _ field hfield
      obtain ⟨value, _, rfl⟩ := List.mem_map.1 hfield
      rfl
    rw [fields, under_flatMap hkeys]
    simp [under_pairs, List.flatMap_id']
  have hone := h name
  rw [hflat, getAll_eq_under]
  match hgroups : under name headers.groups with
  | [] => rfl
  | [values] => simp
  | _ :: _ :: _ => simp [hgroups] at hone

def adjust (name : String) (change : List Bytes → List Bytes) :
    List (String × List Bytes) → List (String × List Bytes)
  | [] => [(name, change [])]
  | (name', values) :: rest =>
    if name' = name then (name', change values) :: rest else (name', values) :: adjust name change rest

theorem appendTo_eq_adjust (name : String) (value : Bytes) (groups : List (String × List Bytes)) :
    appendTo name value groups = adjust name (· ++ [value]) groups := by
  induction groups with
  | nil => rfl
  | cons group groups ih =>
    obtain ⟨name', values⟩ := group
    rw [appendTo, adjust, ih]

theorem insertInto_eq_adjust (name : String) (value : Bytes) (groups : List (String × List Bytes)) :
    insertInto name value groups = adjust name (fun _ => [value]) groups := by
  induction groups with
  | nil => rfl
  | cons group groups ih =>
    obtain ⟨name', values⟩ := group
    rw [insertInto, adjust, ih]

theorem under_adjust_self (name : String) (change : List Bytes → List Bytes)
    (groups : List (String × List Bytes)) :
    under name (adjust name change groups) =
      change ((under name groups).headD []) :: (under name groups).tail := by
  induction groups with
  | nil => exact under_cons_self name _ _
  | cons group groups ih =>
    obtain ⟨name', values⟩ := group
    rw [adjust]
    split
    · rename_i hname
      subst hname
      rw [under_cons_self, under_cons_self]
      rfl
    · rename_i hname
      rw [under_cons_of_ne hname, under_cons_of_ne hname, ih]

theorem under_adjust_of_ne {name name' : String} (h : name' ≠ name) (change : List Bytes → List Bytes)
    (groups : List (String × List Bytes)) : under name (adjust name' change groups) = under name groups := by
  induction groups with
  | nil => exact under_cons_of_ne h _ _
  | cons group groups ih =>
    obtain ⟨other, values⟩ := group
    rw [adjust]
    split
    · rename_i hother
      subst hother
      rw [under_cons_of_ne h, under_cons_of_ne h]
    · by_cases hkey : other = name
      · subst hkey
        rw [under_cons_self, under_cons_self, ih]
      · rw [under_cons_of_ne hkey, under_cons_of_ne hkey, ih]

theorem distinct_adjust {groups : List (String × List Bytes)} (h : Distinct ⟨groups⟩) (name : String)
    (change : List Bytes → List Bytes) : Distinct ⟨adjust name change groups⟩ := by
  intro key
  have hkey := h key
  by_cases hname : name = key
  · subst hname
    rw [under_adjust_self, List.length_cons, List.length_tail]
    simp only at hkey
    omega
  · rw [under_adjust_of_ne hname]
    exact hkey

theorem distinct_empty : Distinct .empty := fun _ => Nat.zero_le 1

theorem Distinct.append {headers : HeaderMap} (h : headers.Distinct) (name : String) (value : Bytes) :
    (headers.append name value).Distinct := by
  rw [HeaderMap.append, appendTo_eq_adjust]
  exact distinct_adjust h name _

theorem Distinct.insert {headers : HeaderMap} (h : headers.Distinct) (name : String) (value : Bytes) :
    (headers.insert name value).Distinct := by
  rw [HeaderMap.insert, insertInto_eq_adjust]
  exact distinct_adjust h name _

theorem getAll_append_self (headers : HeaderMap) (name : String) (value : Bytes) :
    (headers.append name value).getAll name = headers.getAll name ++ [value] := by
  rw [getAll_eq_under, append, appendTo_eq_adjust, under_adjust_self, getAll_eq_under]
  rfl

theorem getAll_append_of_ne (headers : HeaderMap) {name name' : String} (h : name' ≠ name) (value : Bytes) :
    (headers.append name' value).getAll name = headers.getAll name := by
  rw [getAll_eq_under, append, appendTo_eq_adjust, under_adjust_of_ne h, getAll_eq_under]

theorem getAll_insert_self (headers : HeaderMap) (name : String) (value : Bytes) :
    (headers.insert name value).getAll name = [value] := by
  rw [getAll_eq_under, insert, insertInto_eq_adjust, under_adjust_self]
  rfl

theorem getAll_insert_of_ne (headers : HeaderMap) {name name' : String} (h : name' ≠ name) (value : Bytes) :
    (headers.insert name' value).getAll name = headers.getAll name := by
  rw [getAll_eq_under, insert, insertInto_eq_adjust, under_adjust_of_ne h, getAll_eq_under]

end HeaderMap
end RpcConformance
