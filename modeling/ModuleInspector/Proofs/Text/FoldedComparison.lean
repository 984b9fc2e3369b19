import ModuleInspector.Proofs.Text.Sorting
import ModuleInspector.Proofs.Text.UpperCase
import Mathlib.Order.Defs.Unbundled
import Mathlib.Order.Antisymmetrization

/-!
# Comparing without regard to case

Listings are sorted, names are looked up and texts are filtered by four comparisons that know a
text only by its folded characters. They agree with each other: the order is the lexicographic one
by code points, the texts that it does not tell apart are the equal ones, and a text begins with or
contains another one exactly when it has a part there that is equal to it.
-/

namespace ModuleInspector.Text

/-- Whether a sequence of characters comes before another one in the lexicographic order by code
points. -/
def CodePointLex : List Char → List Char → Prop := List.Lex fun c d => c.toNat < d.toNat

/-- Characters are compared by their code points. -/
theorem compareChar_eq_lt_iff {c d : Char} : compare c d = .lt ↔ c.toNat < d.toNat := by
  rw [compare, instOrdChar, compareOfLessAndEq_eq_lt, Char.lt_def, UInt32.lt_iff_toNat_lt]
  rfl

/-- Sequences of characters are compared lexicographically. By induction on the first one: equal
first characters leave the decision to the rest. -/
theorem compare_eq_lt_iff_codePointLex {left right : List Char} :
    compare left right = .lt ↔ CodePointLex left right := by
  rw [CodePointLex]
  induction left generalizing right with
  | nil =>
    cases right with
    | nil => simp
    | cons d right => simp [List.compare_nil_cons]
  | cons c left ih =>
    cases right with
    | nil => simp [List.compare_cons_nil]
    | cons d right =>
      rw [List.compare_cons_cons, Ordering.then_eq_lt, compareChar_eq_lt_iff,
        Std.compare_eq_iff_eq, ih, List.cons_lex_cons_iff]

/-- One text comes before another one when its folded characters do. -/
theorem compareFolded_eq_lt_iff {left right : String} :
    compareFolded left right = .lt ↔ CodePointLex (fold left) (fold right) :=
  compare_eq_lt_iff_codePointLex

/-- It comes after it when the folded characters of the other one come before its own. -/
theorem compareFolded_eq_gt_iff {left right : String} :
    compareFolded left right = .gt ↔ CodePointLex (fold right) (fold left) := by
  rw [← compareFolded_eq_lt_iff, Std.OrientedCmp.gt_iff_lt]

/-- Whether a text comes before another one or is equal to it, without regard to case. -/
def FoldedLE (left right : String) : Prop := (compareFolded left right).isLE = true

instance : IsPreorder String FoldedLE where
  refl text := by
    rw [FoldedLE, eq_of_beq (eqFolded_refl text)]
    rfl
  trans _ _ _ := Std.TransCmp.isLE_trans

instance : Std.Total FoldedLE where
  total left right := by
    simpa [FoldedLE] using isLE_total compareFolded left right

/-- The order does not tell two texts apart exactly when they are equal without regard to case. -/
theorem antisymmRel_foldedLE_iff {left right : String} :
    AntisymmRel FoldedLE left right ↔ eqFolded left right = true := by
  constructor
  · rintro ⟨hle, hge⟩
    exact eqFolded_of_isLE hle hge
  · intro hsame
    have hle {a b : String} (hfold : fold a = fold b) : FoldedLE a b := by
      rw [FoldedLE, eq_of_beq (eqFolded_iff.mpr hfold)]
      rfl
    have hfold := eqFolded_iff.mp hsame
    exact ⟨hle hfold, hle hfold.symm⟩

/-- The folded characters of a text follow those of the text before it. -/
@[simp] theorem fold_append (front rest : String) :
    fold (front ++ rest) = fold front ++ fold rest := by
  simp [fold]

/-- Where the folded characters can be divided, so can the text. -/
theorem fold_eq_append_iff {text : String} {front rest : List Char} :
    fold text = front ++ rest ↔
      ∃ a b, text = a ++ b ∧ fold a = front ∧ fold b = rest := by
  constructor
  · intro hfold
    obtain ⟨a, b, htext, ha, hb⟩ := List.map_eq_append_iff.mp hfold
    refine ⟨String.ofList a, String.ofList b, ?_, by rwa [fold, String.toList_ofList],
      by rwa [fold, String.toList_ofList]⟩
    rw [← String.ofList_append, ← htext, String.ofList_toList]
  · rintro ⟨a, b, rfl, rfl, rfl⟩
    exact fold_append a b

/-- A sequence of characters occurs in another one as a block. -/
theorem isInfix_iff {part text : List Char} : isInfix part text = true ↔ part <:+: text := by
  induction text with
  | nil => simp [isInfix]
  | cons c rest ih =>
    rw [isInfix, Bool.or_eq_true, List.isPrefixOf_iff_prefix, ih, List.infix_cons_iff]

/-- A text begins with another one when its folded characters do. -/
theorem startsWithFolded_iff_fold {text start : String} :
    startsWithFolded text start = true ↔ fold start <+: fold text := List.isPrefixOf_iff_prefix

/-- A text contains another one when its folded characters do. -/
theorem containsFolded_iff_fold {text part : String} :
    containsFolded text part = true ↔ fold part <:+: fold text := isInfix_iff

/-- A text begins with another one exactly when a part at its front is equal to it. -/
theorem startsWithFolded_iff {text start : String} :
    startsWithFolded text start = true ↔
      ∃ front rest, text = front ++ rest ∧ eqFolded front start = true := by
  rw [startsWithFolded_iff_fold]
  constructor
  · rintro ⟨folded, hfold⟩
    obtain ⟨front, rest, htext, hfront, -⟩ := fold_eq_append_iff.mp hfold.symm
    exact ⟨front, rest, htext, eqFolded_iff.mpr hfront⟩
  · rintro ⟨front, rest, rfl, hfront⟩
    rw [fold_append, eqFolded_iff.mp hfront]
    exact List.prefix_append _ _

/-- A text contains another one exactly when some part of it is equal to it. -/
theorem containsFolded_iff {text part : String} :
    containsFolded text part = true ↔
      ∃ front middle back, text = front ++ middle ++ back ∧ eqFolded middle part = true := by
  rw [containsFolded_iff_fold]
  constructor
  · rintro ⟨before, behind, hfold⟩
    obtain ⟨start, back, rfl, hstart, -⟩ := fold_eq_append_iff.mp hfold.symm
    obtain ⟨front, middle, rfl, -, hmiddle⟩ := fold_eq_append_iff.mp hstart
    exact ⟨front, middle, back, rfl, eqFolded_iff.mpr hmiddle⟩
  · rintro ⟨front, middle, back, rfl, hmiddle⟩
    rw [fold_append, fold_append, eqFolded_iff.mp hmiddle]
    exact List.infix_append _ _ _

/-- What a text begins with is contained in it. -/
theorem containsFolded_of_startsWithFolded {text start : String}
    (hstart : startsWithFolded text start = true) : containsFolded text start = true := by
  rw [startsWithFolded_iff_fold] at hstart
  rw [containsFolded_iff_fold]
  exact hstart.isInfix

/-- A text begins with everything that its beginnings begin with. -/
theorem startsWithFolded_trans {text start first : String}
    (hstart : startsWithFolded text start = true) (hfirst : startsWithFolded start first = true) :
    startsWithFolded text first = true := by
  rw [startsWithFolded_iff_fold] at *
  exact hfirst.trans hstart

/-- A text contains everything that its parts contain. -/
theorem containsFolded_trans {text part inner : String}
    (hpart : containsFolded text part = true) (hinner : containsFolded part inner = true) :
    containsFolded text inner = true := by
  rw [containsFolded_iff_fold] at *
  exact hinner.trans hpart

/-- Texts that begin with each other are equal. -/
theorem eqFolded_of_startsWithFolded {left right : String}
    (hright : startsWithFolded left right = true) (hleft : startsWithFolded right left = true) :
    eqFolded left right = true := by
  rw [startsWithFolded_iff_fold] at hleft hright
  rw [eqFolded_iff]
  exact hleft.eq_of_length_le hright.length_le

/-- No comparison tells a text from an equal one. -/
theorem folded_congr {left left' right right' : String} (hleft : eqFolded left left' = true)
    (hright : eqFolded right right' = true) :
    compareFolded left right = compareFolded left' right' ∧
      eqFolded left right = eqFolded left' right' ∧
      startsWithFolded left right = startsWithFolded left' right' ∧
      containsFolded left right = containsFolded left' right' := by
  rw [eqFolded_iff] at hleft hright
  have hcompare : compareFolded left right = compareFolded left' right' := by
    rw [compareFolded, compareFolded, hleft, hright]
  refine ⟨hcompare, ?_, ?_, ?_⟩
  · rw [eqFolded, eqFolded, hcompare]
  · rw [startsWithFolded, startsWithFolded, hleft, hright]
  · rw [containsFolded, containsFolded, hleft, hright]

/-- Characters fold to their upper case, or to themselves where they have none. By the folded
characters of texts, the comparison is a total preorder, the lexicographic one by code points, and
the equal texts are those it does not tell apart. A text begins with another one exactly when a part
at its front is equal to it, and contains another one exactly when some part is. What a text begins
with it contains, both relations are transitive, texts that begin with each other are equal, and no
comparison tells a text from an equal one. -/
theorem foldedComparisons_agree :
    ((∀ c upper, IsUpperCase c upper → foldChar c = upper) ∧
      ∀ c, (∀ upper, ¬IsUpperCase c upper) → foldChar c = c) ∧
    (IsPreorder String FoldedLE ∧ Std.Total FoldedLE ∧ ∀ left right,
      (compareFolded left right = .lt ↔ CodePointLex (fold left) (fold right)) ∧
      (compareFolded left right = .gt ↔ CodePointLex (fold right) (fold left)) ∧
      (compareFolded left right = .eq ↔ fold left = fold right) ∧
      (AntisymmRel FoldedLE left right ↔ eqFolded left right = true)) ∧
    (∀ text start, startsWithFolded text start = true ↔
      ∃ front rest, text = front ++ rest ∧ eqFolded front start = true) ∧
    (∀ text part, containsFolded text part = true ↔
      ∃ front middle back, text = front ++ middle ++ back ∧ eqFolded middle part = true) ∧
    (∀ text start, startsWithFolded text start = true → containsFolded text start = true) ∧
    (∀ text start first, startsWithFolded text start = true →
      startsWithFolded start first = true → startsWithFolded text first = true) ∧
    (∀ text part inner, containsFolded text part = true →
      containsFolded part inner = true → containsFolded text inner = true) ∧
    (∀ left right, startsWithFolded left right = true → startsWithFolded right left = true →
      eqFolded left right = true) ∧
    ∀ left left' right right', eqFolded left left' = true → eqFolded right right' = true →
      compareFolded left right = compareFolded left' right' ∧
      eqFolded left right = eqFolded left' right' ∧
      startsWithFolded left right = startsWithFolded left' right' ∧
      containsFolded left right = containsFolded left' right' := by
  refine ⟨⟨fun _ _ => foldChar_of_isUpperCase, fun _ => foldChar_of_forall_not_isUpperCase⟩,
    ⟨inferInstance, inferInstance, fun left right => ?_⟩, fun _ _ => startsWithFolded_iff,
    fun _ _ => containsFolded_iff, fun _ _ => containsFolded_of_startsWithFolded,
    fun _ _ _ => startsWithFolded_trans, fun _ _ _ => containsFolded_trans,
    fun _ _ => eqFolded_of_startsWithFolded, fun _ _ _ _ => folded_congr⟩
  exact ⟨compareFolded_eq_lt_iff, compareFolded_eq_gt_iff, Std.compare_eq_iff_eq,
    antisymmRel_foldedLE_iff⟩

/-- The laws at texts that differ in case only, one of which holds a character whose upper case is
several characters. -/
theorem foldedComparisons_agree_streets :
    (IsUpperCase 'ä' 'Ä' ∧ foldChar 'ä' = 'Ä') ∧
    ((∀ upper, ¬IsUpperCase 'ß' upper) ∧ foldChar 'ß' = 'ß') ∧
    (startsWithFolded "Straßen" "STRAß" = true ∧ containsFolded "Straßen" "STRAß" = true) ∧
    (startsWithFolded "STRAß" "st" = true ∧ startsWithFolded "Straßen" "st" = true) ∧
    (containsFolded "Hauptstraße" "STRAß" = true ∧ containsFolded "STRAß" "aß" = true ∧
      containsFolded "Hauptstraße" "aß" = true) ∧
    (startsWithFolded "Straße" "STRAßE" = true ∧ startsWithFolded "STRAßE" "Straße" = true ∧
      eqFolded "Straße" "STRAßE" = true) ∧
    eqFolded "Allee" "ALLEE" = true ∧
      compareFolded "Straße" "Allee" = compareFolded "STRAßE" "ALLEE" := by
  obtain ⟨⟨hupper, hself⟩, -, -, -, hcontains, hstarts, hinner, hmutual, hcongr⟩ :=
    foldedComparisons_agree
  have hrounded : IsUpperCase 'ä' 'Ä' := isUpperCase_iff.mpr (by decide +kernel)
  have hsharp : ∀ upper, ¬IsUpperCase 'ß' upper := by
    have hnone : CaseRun.find? upperRuns 'ß'.toNat = none := by decide +kernel
    intro upper
    rw [isUpperCase_iff, hnone]
    simp
  have hstreet : startsWithFolded "Straßen" "STRAß" = true := by decide +kernel
  have hshort : startsWithFolded "STRAß" "st" = true := by decide +kernel
  have hpart : containsFolded "Hauptstraße" "STRAß" = true := by decide +kernel
  have hend : containsFolded "STRAß" "aß" = true := by decide +kernel
  have hforth : startsWithFolded "Straße" "STRAßE" = true := by decide +kernel
  have hback : startsWithFolded "STRAßE" "Straße" = true := by decide +kernel
  have hsame : eqFolded "Straße" "STRAßE" = true := hmutual _ _ hforth hback
  have halley : eqFolded "Allee" "ALLEE" = true := by decide +kernel
  exact ⟨⟨hrounded, hupper _ _ hrounded⟩, ⟨hsharp, hself _ hsharp⟩,
    ⟨hstreet, hcontains _ _ hstreet⟩, ⟨hshort, hstarts _ _ _ hstreet hshort⟩,
    ⟨hpart, hend, hinner _ _ _ hpart hend⟩, ⟨hforth, hback, hsame⟩, halley,
    (hcongr _ _ _ _ hsame halley).1⟩

end ModuleInspector.Text
