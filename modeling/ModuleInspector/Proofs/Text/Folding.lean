import ModuleInspector.Text.Fold

/-!
# Equality without regard to case

Two texts are equal without regard to case exactly when their folded characters agree, so the
relation is an equivalence.
-/

namespace ModuleInspector.Text

/-- Equality without regard to case is equality of the folded characters. -/
theorem eqFolded_iff {left right : String} :
    eqFolded left right = true ↔ fold left = fold right := by
  rw [eqFolded, compareFolded, beq_iff_eq, Std.compare_eq_iff_eq]

/-- Every text equals itself without regard to case. -/
@[simp] theorem eqFolded_refl (text : String) : eqFolded text text = true :=
  eqFolded_iff.mpr rfl

/-- Two texts that are equal without regard to case have the same equals. -/
theorem eqFolded_congr_right {left right : String} (text : String)
    (hfold : eqFolded left right = true) : eqFolded text left = eqFolded text right := by
  rw [Bool.eq_iff_iff, eqFolded_iff, eqFolded_iff, eqFolded_iff.mp hfold]

end ModuleInspector.Text
