import ModuleInspector.Proofs.Text.Folding
import Mathlib.Data.List.Basic

/-!
# Stable sorting

Listings are sorted by a key and keep the given order where keys are equal. A sorted list is
therefore determined by its items and the order they were given in: sorting commutes with
filtering and with maps that keep the keys, and where keys are distinct it forgets the given
order.
-/

namespace ModuleInspector.Text

variable {α β : Type} {key : α → String} {items : List α}

section Stability

variable {le : α → α → Bool} (htrans : ∀ a b c, le a b = true → le b c = true → le a c = true)
  (htotal : ∀ a b, (le a b || le b a) = true)

include htrans htotal

/-- The first item is sorted in behind the items that have to come before it, and in front of all
others. -/
theorem mergeSort_cons_eq (a : α) (items : List α) :
    (a :: items).mergeSort le = ((items.mergeSort le).filter fun b => !le a b) ++
        a :: (items.mergeSort le).filter (le a) ∧
      items.mergeSort le = ((items.mergeSort le).filter fun b => !le a b) ++
        (items.mergeSort le).filter (le a) := by
  obtain ⟨front, back, hsorted, hrest, hfront⟩ := List.mergeSort_cons htrans htotal a items
  have hback : ∀ b ∈ back, le a b = true := by
    have hpairwise := List.pairwise_mergeSort htrans htotal (a :: items)
    rw [hsorted] at hpairwise
    exact (List.pairwise_cons.mp (List.pairwise_append.mp hpairwise).2.1).1
  have hbefore : (items.mergeSort le).filter (fun b => !le a b) = front := by
    have hnone : back.filter (fun b => !le a b) = [] :=
      List.filter_eq_nil_iff.mpr fun b hb => by simp [hback b hb]
    rw [hrest, List.filter_append, hnone, List.append_nil, List.filter_eq_self.mpr hfront]
  have hbehind : (items.mergeSort le).filter (le a) = back := by
    have hnone : front.filter (le a) = [] :=
      List.filter_eq_nil_iff.mpr fun b hb => by simpa using hfront b hb
    rw [hrest, List.filter_append, hnone, List.nil_append, List.filter_eq_self.mpr hback]
  rw [hbefore, hbehind]
  exact ⟨hsorted, hrest⟩

/-- Sorting the items that pass a test is keeping those of the sorted items. The induction is on
the items: the first one, if it passes, has the same neighbours in both. -/
theorem filter_mergeSort (p : α → Bool) (items : List α) :
    (items.mergeSort le).filter p = (items.filter p).mergeSort le := by
  induction items with
  | nil => simp
  | cons a items ih =>
    obtain ⟨hsorted, hrest⟩ := mergeSort_cons_eq htrans htotal a items
    cases ha : p a with
    | false =>
      have hfirst : ¬p a = true := by simp [ha]
      rw [List.filter_cons_of_neg hfirst, ← ih, hsorted, List.filter_append,
        List.filter_cons_of_neg hfirst, ← List.filter_append, ← hrest]
    | true =>
      have hpart (q : α → Bool) : ((items.mergeSort le).filter q).filter p =
          ((items.filter p).mergeSort le).filter q := by
        rw [List.filter_comm, ih]
      obtain ⟨hsorted', -⟩ := mergeSort_cons_eq htrans htotal a (items.filter p)
      rw [List.filter_cons_of_pos ha, hsorted', hsorted, List.filter_append,
        List.filter_cons_of_pos ha, hpart, hpart]

end Stability

instance : Std.TransCmp compareFolded where
  eq_swap {a b} := by
    rw [compareFolded, compareFolded]
    exact Std.OrientedCmp.eq_swap
  isLE_trans {a b c} hab hbc := by
    rw [compareFolded] at hab hbc ⊢
    exact Std.TransCmp.isLE_trans hab hbc

/-- Two keys are comparable. -/
theorem isLE_total (compareKeys : String → String → Ordering) [Std.OrientedCmp compareKeys]
    (a b : String) : ((compareKeys a b).isLE || (compareKeys b a).isLE) = true := by
  have hswap : compareKeys a b = (compareKeys b a).swap := Std.OrientedCmp.eq_swap
  rw [hswap]
  cases compareKeys b a <;> decide

/-- Keys that are listed before each other are equal without regard to case. -/
theorem eqFolded_of_isLE {a b : String} (hab : (compareFolded a b).isLE = true)
    (hba : (compareFolded b a).isLE = true) : eqFolded a b = true := by
  rw [eqFolded, beq_iff_eq]
  exact Std.OrientedCmp.isLE_antisymm hab hba

/-- Sorting keeps the items. -/
theorem sortFolded_perm (key : α → String) (items : List α) :
    (sortFolded key items).Perm items :=
  List.mergeSort_perm items _

/-- The keys of sorted items ascend. -/
theorem pairwise_sortFolded (key : α → String) (items : List α) :
    (sortFolded key items).Pairwise fun a b => (compareFolded (key a) (key b)).isLE = true :=
  List.pairwise_mergeSort (fun _ _ _ => Std.TransCmp.isLE_trans)
    (fun a b => isLE_total compareFolded (key a) (key b)) items

/-- Sorting keeps the order of the items with one key. -/
theorem filter_eqFolded_sortFolded (key : α → String) (items : List α) (name : String) :
    ((sortFolded key items).filter fun a => eqFolded (key a) name) =
      items.filter fun a => eqFolded (key a) name := by
  have hclass : (items.filter fun a => eqFolded (key a) name).Pairwise
      fun a b => (compareFolded (key a) (key b)).isLE = true := by
    refine List.pairwise_of_forall_mem_list fun a ha b hb => ?_
    have hsame : eqFolded (key a) (key b) = true := by
      rw [eqFolded_iff, eqFolded_iff.mp (List.mem_filter.mp ha).2,
        eqFolded_iff.mp (List.mem_filter.mp hb).2]
    rw [eqFolded, beq_iff_eq] at hsame
    rw [hsame]
    rfl
  have hsublist := List.sublist_mergeSort
    (fun _ _ _ => Std.TransCmp.isLE_trans)
    (fun a b => isLE_total compareFolded (key a) (key b)) hclass List.filter_sublist
  have hfiltered := hsublist.filter fun a => eqFolded (key a) name
  rw [List.filter_filter] at hfiltered
  simp only [Bool.and_self] at hfiltered
  exact (hfiltered.eq_of_length ((sortFolded_perm key items).filter _).length_eq.symm).symm

/-- Whether an item is listed before another one: by its key, or by the given order where the
keys are equal. -/
def ListedBefore (key : α → String) (given : α → α → Prop) (a b : α) : Prop :=
  compareFolded (key a) (key b) = .lt ∨
    eqFolded (key a) (key b) = true ∧ given a b

/-- Sorted items are in the order of their keys, and in the given order where keys are equal. -/
theorem pairwise_listedBefore_sortFolded {given : α → α → Prop} (hgiven : items.Pairwise given) :
    (sortFolded key items).Pairwise (ListedBefore key given) := by
  rw [List.pairwise_iff_forall_sublist]
  intro a b hpair
  have hle := List.pairwise_iff_forall_sublist.mp (pairwise_sortFolded key items) hpair
  cases hcompare : compareFolded (key a) (key b) with
  | lt => exact .inl hcompare
  | gt => simp [hcompare] at hle
  | eq =>
    have hsame : eqFolded (key a) (key b) = true := by simp [eqFolded, hcompare]
    have hclass := hpair.filter fun c => eqFolded (key c) (key b)
    rw [filter_eqFolded_sortFolded] at hclass
    simp only [List.filter_cons, hsame, eqFolded_refl, ↓reduceIte, List.filter_nil] at hclass
    exact .inr ⟨hsame, List.pairwise_iff_forall_sublist.mp hgiven
      (hclass.trans List.filter_sublist)⟩

/-- Sorting the items that pass a test is keeping those of the sorted items. -/
theorem filter_sortFolded (p : α → Bool) :
    (sortFolded key items).filter p = sortFolded key (items.filter p) :=
  filter_mergeSort (fun _ _ _ => Std.TransCmp.isLE_trans)
    (fun a b => isLE_total compareFolded (key a) (key b)) p items

/-- Items with distinct keys are sorted alike from every order. -/
theorem sortFolded_eq_of_perm {others : List α} (hperm : items.Perm others)
    (hdistinct : ∀ a ∈ items, ∀ b ∈ items, eqFolded (key a) (key b) = true → a = b) :
    sortFolded key items = sortFolded key others := by
  have hsorted := (sortFolded_perm key items).trans (hperm.trans (sortFolded_perm key others).symm)
  refine hsorted.eq_of_pairwise (fun a b ha hb hab hba => ?_) (pairwise_sortFolded key items)
    (pairwise_sortFolded key others)
  rw [(sortFolded_perm key items).mem_iff] at ha
  rw [(sortFolded_perm key others).mem_iff, ← hperm.mem_iff] at hb
  exact hdistinct a ha b hb (eqFolded_of_isLE hab hba)

/-- Sorting commutes with a map that keeps the keys. -/
theorem map_sortFolded {other : β → String} (f : α → β) (hkey : ∀ a, other (f a) = key a)
    (items : List α) : (sortFolded key items).map f = sortFolded other (items.map f) :=
  List.map_mergeSort fun a _ b _ => by rw [hkey, hkey]

/-- The same holds of the order by code points. -/
theorem map_sortOrdinal {other : β → String} (f : α → β) (hkey : ∀ a, other (f a) = key a)
    (items : List α) : (sortOrdinal key items).map f = sortOrdinal other (items.map f) :=
  List.map_mergeSort fun a _ b _ => by rw [hkey, hkey]

/-- The items that pass a test are sorted by code points as they stand in the sorted items. -/
theorem filter_sortOrdinal (p : α → Bool) :
    (sortOrdinal key items).filter p = sortOrdinal key (items.filter p) :=
  filter_mergeSort (fun _ _ _ => Std.TransCmp.isLE_trans)
    (fun a b => isLE_total compare (key a) (key b)) p items

/-- Items are sorted alike by keys that agree on them. -/
theorem sortOrdinal_congr {other : α → String} (hkey : ∀ a ∈ items, key a = other a) :
    sortOrdinal key items = sortOrdinal other items := by
  have hsorted : (sortOrdinal key items).map id = sortOrdinal other (items.map id) :=
    List.map_mergeSort fun a ha b hb => by rw [hkey a ha, hkey b hb, id, id]
  rwa [List.map_id, List.map_id] at hsorted

/-- Sorting by code points keeps the items. -/
theorem sortOrdinal_perm (key : α → String) (items : List α) :
    (sortOrdinal key items).Perm items :=
  List.mergeSort_perm items _

/-- Texts are sorted alike from every order. -/
theorem sortOrdinal_eq_of_perm {texts others : List String} (hperm : texts.Perm others) :
    sortOrdinal id texts = sortOrdinal id others := by
  have hsorted := (sortOrdinal_perm id texts).trans (hperm.trans (sortOrdinal_perm id others).symm)
  have hpairwise (list : List String) :
      (sortOrdinal id list).Pairwise fun a b => (compare a b).isLE = true :=
    List.pairwise_mergeSort (fun _ _ _ => Std.TransCmp.isLE_trans) (isLE_total compare) list
  refine hsorted.eq_of_pairwise (fun a b _ _ hab hba => ?_) (hpairwise texts) (hpairwise others)
  exact Std.LawfulEqCmp.eq_of_compare (Std.OrientedCmp.isLE_antisymm hab hba)

private theorem nodup_eraseDups (texts : List String) : texts.eraseDups.Nodup := by
  match texts with
  | [] => simp
  | text :: texts =>
    rw [List.eraseDups_cons, List.nodup_cons, List.mem_eraseDups]
    exact ⟨by simp, nodup_eraseDups _⟩
termination_by texts.length
decreasing_by exact Nat.lt_succ_of_le (List.length_filter_le _ texts)

/-- The distinct texts of two lists with the same texts are sorted alike. -/
theorem sortOrdinal_eraseDups_eq {texts others : List String}
    (hmem : ∀ text, text ∈ texts ↔ text ∈ others) :
    sortOrdinal id texts.eraseDups = sortOrdinal id others.eraseDups := by
  refine sortOrdinal_eq_of_perm ?_
  rw [List.perm_ext_iff_of_nodup (nodup_eraseDups texts) (nodup_eraseDups others)]
  intro text
  rw [List.mem_eraseDups, List.mem_eraseDups, hmem]

end ModuleInspector.Text
