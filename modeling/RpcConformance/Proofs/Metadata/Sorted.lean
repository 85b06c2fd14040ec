import RpcConformance.Proofs.Metadata.Grouping
import RpcConformance.Proofs.Metadata.Json
import RpcConformance.Proofs.Text.Order
/-!
Metadata survives JSON. An object holds its keys in the order of their bytes and the values of each key in an array, so
what is read back are the entries sorted by key (`byKey`), those of one key in the order in which they were
(`toJson_roundTrip`).
-/
namespace RpcConformance

def SortedByKey {α : Type} (entries : List (String × α)) : Prop :=
  entries.Pairwise fun entry next => entry.1 ≤ next.1

section SortedByKey

variable {α : Type} {entries others : List (String × α)}

theorem under_eq_nil_of_lt {key : String} {entry : String × α} (h : SortedByKey (entry :: entries))
    (hkey : key < entry.1) : under key (entry :: entries) = [] := by
  refine under_eq_nil_of_forall fun other hother heq => ?_
  have hle : entry.1 ≤ other.1 := by
    rcases List.mem_cons.1 hother with rfl | hmem
    · exact String.le_refl _
    · exact (List.pairwise_cons.1 h).1 other hmem
  exact String.not_le.2 hkey (heq ▸ hle)

theorem SortedByKey.eq_of_under (h : SortedByKey entries) (hothers : SortedByKey others)
    (hsame : ∀ key, under key entries = under key others) : entries = others := by
  induction entries generalizing others with
  | nil =>
    cases others with
    | nil => rfl
    | cons other others =>
      have hnone := hsame other.1
      rw [under_cons_self] at hnone
      cases hnone
  | cons entry entries ih =>
    obtain ⟨key, value⟩ := entry
    cases others with
    | nil =>
      have hnone := hsame key
      rw [under_cons_self] at hnone
      cases hnone
    | cons other others =>
      obtain ⟨key', value'⟩ := other
      -- Were one of the first keys the lesser, the other list would have no value under it.
      have hkey : key = key' := by
        refine String.le_antisymm (String.not_lt.1 fun hlt => ?_) (String.not_lt.1 fun hlt => ?_)
        · have hnone := hsame key'
          rw [under_eq_nil_of_lt h hlt, under_cons_self] at hnone
          cases hnone
        · have hnone := hsame key
          rw [under_eq_nil_of_lt hothers hlt, under_cons_self] at hnone
          cases hnone
      subst hkey
      have hfirst := hsame key
      rw [under_cons_self, under_cons_self] at hfirst
      obtain ⟨rfl, -⟩ := List.cons.inj hfirst
      have hrest : ∀ name, under name entries = under name others := by
        intro name
        have hname := hsame name
        by_cases hself : key = name
        · subst hself
          rw [under_cons_self, under_cons_self] at hname
          exact (List.cons.inj hname).2
        · rwa [under_cons_of_ne hself, under_cons_of_ne hself] at hname
      rw [ih (List.pairwise_cons.1 h).2 (List.pairwise_cons.1 hothers).2 hrest]

theorem under_mergeSort {le : String × α → String × α → Bool}
    (htrans : ∀ a b c, le a b = true → le b c = true → le a c = true)
    (htotal : ∀ a b, (le a b || le b a) = true) (hkey : ∀ a b, a.1 = b.1 → le a b = true) (key : String)
    (entries : List (String × α)) : under key (entries.mergeSort le) = under key entries := by
  have hpairwise : (entries.filter (·.1 = key)).Pairwise fun a b => le a b = true := by
    refine List.pairwise_of_forall_mem_list fun a ha b hb => hkey a b ?_
    rw [of_decide_eq_true (List.mem_filter.1 ha).2, of_decide_eq_true (List.mem_filter.1 hb).2]
  have hsublist : (entries.filter (·.1 = key)).Sublist ((entries.mergeSort le).filter (·.1 = key)) := by
    have hsort := List.sublist_mergeSort htrans htotal hpairwise List.filter_sublist
    simpa using hsort.filter (·.1 = key)
  have hlength := ((List.mergeSort_perm entries le).filter (·.1 = key)).length_eq
  have hfilter := hsublist.eq_of_length hlength.symm
  rw [← under_filter_self, ← under_filter_self] at hfilter
  exact (List.map_injective_iff.2 (fun _ _ heq => (Prod.mk.inj heq).2) hfilter).symm

end SortedByKey

namespace Metadata

/-- Whether the key of an entry comes before that of another or is the same, by the bytes of the keys. -/
def keyLe (entry other : String × Bytes) : Bool := decide (Bytes.ofString entry.1 ≤ Bytes.ofString other.1)

theorem keyLe_iff {entry other : String × Bytes} : keyLe entry other = true ↔ entry.1 ≤ other.1 := by
  rw [keyLe, decide_eq_true_iff, Bytes.ofString_le_ofString_iff]

theorem keyLe_trans (a b c : String × Bytes) (hab : keyLe a b = true) (hbc : keyLe b c = true) : keyLe a c = true :=
  keyLe_iff.2 (String.le_trans (keyLe_iff.1 hab) (keyLe_iff.1 hbc))

theorem keyLe_total (a b : String × Bytes) : (keyLe a b || keyLe b a) = true := by
  rw [Bool.or_eq_true, keyLe_iff, keyLe_iff]
  exact String.le_total a.1 b.1

/-- The entries sorted by the bytes of their keys; those of one key stay in order. -/
def byKey (metadata : Metadata) : Metadata := ⟨metadata.entries.mergeSort keyLe⟩

theorem sortedByKey_byKey (metadata : Metadata) : SortedByKey metadata.byKey.entries :=
  (List.pairwise_mergeSort keyLe_trans keyLe_total metadata.entries).imp fun h => keyLe_iff.1 h

theorem sameValues_byKey (metadata : Metadata) : metadata.byKey.SameValues metadata := fun key =>
  under_mergeSort keyLe_trans keyLe_total (fun _ _ heq => keyLe_iff.2 (heq ▸ String.le_refl _)) key metadata.entries

theorem ascending_sortedMembers (members : List (Bytes × Json)) :
    (sortedMembers members).Pairwise fun member next => member.1 < next.1 := by
  rw [sortedMembers, List.pairwise_filterMap]
  refine (ascending_grouped _).imp fun {group next} hlt member hmember member' hmember' => ?_
  obtain ⟨json, -, rfl⟩ := Option.map_eq_some_iff.1 hmember
  obtain ⟨json', -, rfl⟩ := Option.map_eq_some_iff.1 hmember'
  exact hlt

theorem sortedByKey_ofJsonMembers {metadata : Metadata} (h : metadata.Legible) :
    SortedByKey (ofJsonMembers (metadata.jsonMembers.map Json.spelled)).entries := by
  rw [entries_ofJsonMembers, SortedByKey, List.pairwise_flatMap]
  have hkeys : ∀ member ∈ sortedMembers (metadata.jsonMembers.map Json.spelled), ∀ found ∈ readMember member,
      found.1 = member.1 := fun member hmember => key_of_mem_written h hmember
  constructor
  · intro member hmember
    refine List.pairwise_of_forall_mem_list fun found hfound other hother => ?_
    have hsame : found.1 = other.1 := (hkeys member hmember found hfound).trans (hkeys member hmember other hother).symm
    exact hsame ▸ String.le_refl found.1
  · refine (ascending_sortedMembers _).imp_of_mem fun {member next} hmember hnext hlt found hfound other hother => ?_
    rw [hkeys member hmember found hfound, hkeys next hnext other hother]
    exact String.not_lt.1 (String.lt_asymm hlt)

theorem ofJsonMembers_eq_byKey {metadata : Metadata} (h : metadata.Legible) :
    ofJsonMembers (metadata.jsonMembers.map Json.spelled) = metadata.byKey := by
  have hsame (key : String) :
      under key (ofJsonMembers (metadata.jsonMembers.map Json.spelled)).entries = under key metadata.byKey.entries :=
    (sameValues_ofJsonMembers h key).trans (sameValues_byKey metadata key).symm
  exact congrArg Metadata.mk ((sortedByKey_ofJsonMembers h).eq_of_under (sortedByKey_byKey metadata) hsame)

/-- Metadata whose keys stand as inserting leaves them, and whose values are text where they are not binary, is read from
the object it was written as, and from the bytes of that object, with its entries sorted by the bytes of the keys: none is
lost, none is added or changed, and the values of one key stay in order. -/
theorem toJson_roundTrip {metadata : Metadata} (h : metadata.Legible) :
    (∃ members, metadata.toJson = .object members ∧ ofJsonMembers members = metadata.byKey) ∧
    parseJson? metadata.toJson.render = some metadata.byKey ∧
    metadata.byKey.entries.Perm metadata.entries ∧
    metadata.byKey.entries.Pairwise (fun entry next => Bytes.ofString entry.1 ≤ Bytes.ofString next.1) ∧
    metadata.byKey.SameValues metadata := by
  have hobject : metadata.toJson = .object (metadata.jsonMembers.map Json.spelled) := Json.ofMembers_eq _
  have hread := ofJsonMembers_eq_byKey h
  refine ⟨⟨_, hobject, hread⟩, ?_, List.mergeSort_perm _ _, ?_, sameValues_byKey metadata⟩
  · have hparse := Json.parse?_render metadata.written_toJson
    have hreadable : metadata.toJson.isReadable Json.maxDepth = true := metadata.isReadable_toJson _
    have hwhole : Json.parseWhole? metadata.toJson.render = some metadata.toJson := by
      rw [Json.parseWhole?, hparse, Option.filter_some, if_pos hreadable]
    rw [parseJson?, hwhole, hobject]
    exact congrArg some hread
  · exact (sortedByKey_byKey metadata).imp fun hle => Bytes.ofString_le_ofString_iff.2 hle

def scattered : Metadata :=
  ⟨[("😀", [0x61]), ("x-bin", [0xff, 0x00]), ("b", [0x22, 0x5c]), ("｡", [0xc3, 0xa9]), ("x-bin", []),
    ("", [0x0a]), ("b", [0x61]), ("x-bin", [0xff, 0x00])]⟩

theorem legible_scattered : scattered.Legible := by decide +kernel

theorem byKey_scattered :
    scattered.byKey =
      ⟨[("", [0x0a]), ("b", [0x22, 0x5c]), ("b", [0x61]), ("x-bin", [0xff, 0x00]), ("x-bin", []),
        ("x-bin", [0xff, 0x00]), ("｡", [0xc3, 0xa9]), ("😀", [0x61])]⟩ :=
  (ofJsonMembers_eq_byKey legible_scattered).symm.trans (by decide +kernel)

theorem toJson_roundTrip_scattered :
    scattered.Legible ∧
    ∃ members, scattered.toJson = .object members ∧
      ofJsonMembers members =
        ⟨[("", [0x0a]), ("b", [0x22, 0x5c]), ("b", [0x61]), ("x-bin", [0xff, 0x00]), ("x-bin", []),
          ("x-bin", [0xff, 0x00]), ("｡", [0xc3, 0xa9]), ("😀", [0x61])]⟩ :=
  ⟨legible_scattered, byKey_scattered ▸ (toJson_roundTrip legible_scattered).1⟩

end Metadata
end RpcConformance
