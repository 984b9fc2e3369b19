import ModuleInspector.Text.Fold
import Mathlib.Data.List.Chain

/-!
# Upper case by the table

The runs of a case table are searched in the order of their code points, and the search stops at the
first run that ends behind the code point. Where the runs increase this loses nothing: a code point
has the other-case form that any run sends it to. A character therefore folds to its upper case
whenever the table has one, and to itself otherwise.
-/

namespace ModuleInspector.Text

namespace CaseRun

/-- Whether a run sends one code point to another one: both are equally many steps into the run. -/
def Sends (run : CaseRun) (code other : Nat) : Prop :=
  ∃ k, code = run.first + k * run.step ∧ code ≤ run.last ∧ other = run.target + k * run.step

/-- Whether a run is not empty and ends before another one begins. -/
def Precedes (run later : CaseRun) : Prop := run.first ≤ run.last ∧ run.last < later.first

instance (run later : CaseRun) : Decidable (run.Precedes later) :=
  inferInstanceAs (Decidable (_ ∧ _))

instance : Trans Precedes Precedes Precedes where
  trans hrun hlater := ⟨hrun.1, hrun.2.trans (hlater.1.trans_lt hlater.2)⟩

/-- Runs of increasing code points. -/
def Increasing (runs : List CaseRun) : Prop := runs.Pairwise Precedes

variable {runs : List CaseRun} {run : CaseRun} {code other : Nat}

/-- A run sends only the code points from its first to its last one. -/
theorem Sends.bounds (hsends : run.Sends code other) : run.first ≤ code ∧ code ≤ run.last := by
  obtain ⟨k, hcode, hlast, -⟩ := hsends
  exact ⟨by omega, hlast⟩

/-- Within its bounds, a run sends the code points that are a whole number of steps behind its first
one, each as far as the first one. -/
theorem sends_iff (hfirst : run.first ≤ code) (hlast : code ≤ run.last) :
    run.Sends code other ↔
      (code - run.first) % run.step = 0 ∧ other = run.target + (code - run.first) := by
  constructor
  · rintro ⟨k, hcode, -, hother⟩
    have hdistance : code - run.first = k * run.step := by omega
    rw [hdistance]
    exact ⟨Nat.mul_mod_left k run.step, hother⟩
  · rintro ⟨hstep, hother⟩
    obtain ⟨k, hk⟩ := Nat.dvd_of_mod_eq_zero hstep
    rw [Nat.mul_comm] at hk
    exact ⟨k, by omega, hlast, by omega⟩

/-- The search among increasing runs finds what any of them sends the code point to. By induction on
the runs: when the first one is passed over, or the search ends at it, no other one holds the code
point. -/
theorem find?_eq_some_iff (hincreasing : Increasing runs) :
    find? runs code = some other ↔ ∃ run ∈ runs, run.Sends code other := by
  induction runs with
  | nil => simp [find?]
  | cons run runs ih =>
    obtain ⟨hprecedes, hlater⟩ := List.pairwise_cons.mp hincreasing
    have hnone : code < run.first ∨ code ≤ run.last → ¬∃ later ∈ runs, later.Sends code other := by
      rintro hcode ⟨later, hmem, hsends⟩
      obtain ⟨hrun, hbehind⟩ := hprecedes later hmem
      have hbounds := hsends.bounds
      omega
    rw [find?]
    simp only [List.mem_cons, exists_eq_or_imp]
    by_cases hfirst : code < run.first
    · have hself : ¬run.Sends code other := by
        intro hsends
        have hbounds := hsends.bounds
        omega
      simp [hfirst, hself, hnone (.inl hfirst)]
    · by_cases hlast : code ≤ run.last
      · rw [if_neg hfirst, if_pos hlast, sends_iff (by omega) hlast]
        simp only [hnone (.inr hlast), or_false]
        by_cases hstep : (code - run.first) % run.step = 0
        · rw [if_pos hstep, Option.some.injEq]
          simp only [hstep, true_and, eq_comm]
        · simp [hstep]
      · have hself : ¬run.Sends code other := fun hsends => hlast hsends.bounds.2
        simp only [hfirst, hlast, ↓reduceIte, hself, false_or, ih hlater]

end CaseRun

/-- Whether the table of upper cases sends one character to another one. -/
def IsUpperCase (c upper : Char) : Prop := ∃ run ∈ upperRuns, run.Sends c.toNat upper.toNat

/-- The runs of the table increase. -/
theorem increasing_upperRuns : CaseRun.Increasing upperRuns := by
  have hneighbours : upperRuns.IsChain CaseRun.Precedes := by decide +kernel
  exact List.isChain_iff_pairwise.mp hneighbours

/-- The table sends code points to code points of characters: a run lies on one side of the
surrogates. -/
theorem isValidChar_of_sends {run : CaseRun} (hrun : run ∈ upperRuns) {code other : Nat}
    (hsends : run.Sends code other) : other.isValidChar := by
  have hsides : ∀ run ∈ upperRuns, run.target + (run.last - run.first) < 0xd800 ∨
      0xdfff < run.target ∧ run.target + (run.last - run.first) < 0x110000 := by decide +kernel
  obtain ⟨hfirst, hlast⟩ := hsends.bounds
  obtain ⟨-, hother⟩ := (CaseRun.sends_iff hfirst hlast).mp hsends
  rcases hsides run hrun with hbelow | ⟨habove, hbelow⟩
  · exact .inl (by omega)
  · exact .inr ⟨by omega, by omega⟩

/-- A character has an upper case exactly when the search finds its code point. -/
theorem isUpperCase_iff {c upper : Char} :
    IsUpperCase c upper ↔ CaseRun.find? upperRuns c.toNat = some upper.toNat :=
  (CaseRun.find?_eq_some_iff increasing_upperRuns).symm

/-- A character folds to its upper case. -/
theorem foldChar_of_isUpperCase {c upper : Char} (hupper : IsUpperCase c upper) :
    foldChar c = upper := by
  rw [foldChar, isUpperCase_iff.mp hupper, Option.map_some, Option.getD_some, Char.ofNat_toNat]

/-- A character without an upper case folds to itself. -/
theorem foldChar_of_forall_not_isUpperCase {c : Char} (hnone : ∀ upper, ¬IsUpperCase c upper) :
    foldChar c = c := by
  rw [foldChar]
  cases hfind : CaseRun.find? upperRuns c.toNat with
  | none => rfl
  | some other =>
    obtain ⟨run, hrun, hsends⟩ := (CaseRun.find?_eq_some_iff increasing_upperRuns).mp hfind
    have hvalid : other.isValidChar := isValidChar_of_sends hrun hsends
    have hupper : IsUpperCase c (Char.ofNatAux other hvalid) := ⟨run, hrun, hsends⟩
    exact absurd hupper (hnone _)

end ModuleInspector.Text
