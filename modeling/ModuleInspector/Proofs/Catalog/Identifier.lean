import ModuleInspector.Proofs.Catalog.NameIndex
import ModuleInspector.Proofs.Text.Folding
import Mathlib.Data.Prod.Lex
import Mathlib.Order.Bounds.Basic

/-!
# Typed identifiers

A typed identifier names a type in one of four ways, which are tried one after the other, and
each of them takes the first defined type in native order. The type that is found is therefore
the one with the least pair of stage and position, whatever names coincide.
-/

namespace ModuleInspector

/-- The ways in which an identifier names a type: by its qualified or its simple name, with or
without regard to case. -/
inductive NameMatch
  | qualified
  | qualifiedFolded
  | simple
  | simpleFolded

namespace NameMatch

/-- The stage at which a way is tried. -/
def stage : NameMatch → Nat
  | qualified => 1
  | qualifiedFolded => 2
  | simple => 3
  | simpleFolded => 4

/-- Whether the identifier names the type in this way. -/
def accepts (identifier : String) (t : TypeDef) : NameMatch → Bool
  | qualified => t.fullName = identifier
  | qualifiedFolded => Text.eqFolded t.fullName identifier
  | simple => t.name = identifier
  | simpleFolded => Text.eqFolded t.name identifier

/-- Different ways are tried at different stages. -/
theorem stage_injective {first second : NameMatch} (hstage : first.stage = second.stage) :
    first = second := by
  cases first <;> cases second <;> simp [stage] at hstage <;> rfl

end NameMatch

namespace Module

variable {m : Module}

/-- The pairs of a stage and the position of a defined type that the identifier names at it. -/
def nameMatches (m : Module) (identifier : String) : Set (Nat ×ₗ Nat) :=
  {pair | ∃ (way : NameMatch) (i : Fin m.types.length),
    way.accepts identifier (m.types.get i) = true ∧ pair = toLex (way.stage, i.val)}

/-- The first defined type that the identifier names in one way. -/
def firstMatch (m : Module) (identifier : String) (way : NameMatch) : Option (Entry m) :=
  m.definedEntries.find? fun e => way.accepts identifier e.type

/-- A pair is the least one when its position is the first at its stage and no earlier stage has
any. -/
theorem isLeast_nameMatches_iff {identifier : String} {way : NameMatch}
    {i : Fin m.types.length} :
    IsLeast (m.nameMatches identifier) (toLex (way.stage, i.val)) ↔
      way.accepts identifier (m.types.get i) = true ∧
      (∀ j < i, way.accepts identifier (m.types.get j) = false) ∧
      ∀ earlier : NameMatch, earlier.stage < way.stage →
        ∀ j : Fin m.types.length, earlier.accepts identifier (m.types.get j) = false := by
  constructor
  · rintro ⟨⟨same, k, haccepts, hpair⟩, hlower⟩
    obtain ⟨hstage, hposition⟩ := Prod.mk.inj (toLex.injective hpair)
    obtain rfl := NameMatch.stage_injective hstage
    obtain rfl := Fin.ext hposition
    refine ⟨haccepts, fun j hj => ?_, fun earlier hearlier j => ?_⟩
    · by_contra hother
      have hle := hlower ⟨way, j, Bool.eq_true_of_not_eq_false hother, rfl⟩
      rcases Prod.Lex.toLex_le_toLex.mp hle with hlt | ⟨-, hle⟩
      · exact absurd hlt (lt_irrefl _)
      · exact absurd hj (not_lt.mpr hle)
    · by_contra hother
      have hle := hlower ⟨earlier, j, Bool.eq_true_of_not_eq_false hother, rfl⟩
      rcases Prod.Lex.toLex_le_toLex.mp hle with hlt | ⟨heq, -⟩
      · exact absurd hlt (lt_asymm hearlier)
      · exact absurd heq.symm hearlier.ne
  · rintro ⟨haccepts, hbefore, hearlier⟩
    refine ⟨⟨way, i, haccepts, rfl⟩, ?_⟩
    rintro pair ⟨other, j, hother, rfl⟩
    rw [Prod.Lex.toLex_le_toLex]
    rcases lt_trichotomy other.stage way.stage with hlt | heq | hgt
    · exact absurd hother (Bool.eq_false_iff.mp (hearlier other hlt j))
    · obtain rfl := NameMatch.stage_injective heq
      refine .inr ⟨rfl, not_lt.mp fun hj => ?_⟩
      exact absurd hother (Bool.eq_false_iff.mp (hbefore j hj))
    · exact .inl hgt

/-- The first type that the identifier names in a way that no earlier way pre-empts is the one
with the least pair. -/
theorem firstMatch_eq_some_iff_isLeast {identifier : String} {e : Entry m} :
    (∃ way, m.firstMatch identifier way = some e ∧
        ∀ earlier : NameMatch, earlier.stage < way.stage →
          m.firstMatch identifier earlier = none) ↔
      ∃ (way : NameMatch) (i : Fin m.types.length), e = .defined i ∧
        IsLeast (m.nameMatches identifier) (toLex (way.stage, i.val)) := by
  simp only [firstMatch, find?_definedEntries_eq_some_iff, find?_definedEntries_eq_none_iff,
    isLeast_nameMatches_iff]
  constructor
  · rintro ⟨way, ⟨i, rfl, haccepts, hbefore⟩, hearlier⟩
    exact ⟨way, i, rfl, haccepts, hbefore, hearlier⟩
  · rintro ⟨way, i, rfl, haccepts, hbefore, hearlier⟩
    exact ⟨way, ⟨i, rfl, haccepts, hbefore⟩, hearlier⟩

end Module

namespace Catalog

variable {m : Module}

/-- An identifier that is not blank is tried in the four ways one after the other. -/
theorem findType?_of_not_blank {identifier : String} (hblank : Text.isBlank identifier = false) :
    (Catalog.of m).findType? identifier =
      ((m.firstMatch identifier .qualified).or (m.firstMatch identifier .qualifiedFolded)).or
        ((m.firstMatch identifier .simple).or (m.firstMatch identifier .simpleFolded)) := by
  rw [findType?, hblank, definedNamed?_of]
  rfl

/-- The type that is found is the first one of the first stage that has any. -/
theorem findType?_eq_some_iff {identifier : String} (hblank : Text.isBlank identifier = false)
    {e : Entry m} :
    (Catalog.of m).findType? identifier = some e ↔
      ∃ way, m.firstMatch identifier way = some e ∧
        ∀ earlier : NameMatch, earlier.stage < way.stage →
          m.firstMatch identifier earlier = none := by
  rw [findType?_of_not_blank hblank]
  simp only [Option.or_eq_some_iff, Option.or_eq_none_iff]
  constructor
  · rintro ((h | ⟨h₁, h⟩) | ⟨⟨h₁, h₂⟩, h | ⟨h₃, h⟩⟩)
    · refine ⟨.qualified, h, fun earlier hlt => ?_⟩
      cases earlier <;> simp [NameMatch.stage] at hlt
    · refine ⟨.qualifiedFolded, h, fun earlier hlt => ?_⟩
      cases earlier with
      | qualified => exact h₁
      | _ => simp [NameMatch.stage] at hlt
    · refine ⟨.simple, h, fun earlier hlt => ?_⟩
      cases earlier with
      | qualified => exact h₁
      | qualifiedFolded => exact h₂
      | _ => simp [NameMatch.stage] at hlt
    · refine ⟨.simpleFolded, h, fun earlier hlt => ?_⟩
      cases earlier with
      | qualified => exact h₁
      | qualifiedFolded => exact h₂
      | simple => exact h₃
      | simpleFolded => simp [NameMatch.stage] at hlt
  · rintro ⟨way, h, hearlier⟩
    cases way with
    | qualified => exact .inl (.inl h)
    | qualifiedFolded => exact .inl (.inr ⟨hearlier .qualified (by decide), h⟩)
    | simple =>
      exact .inr ⟨⟨hearlier .qualified (by decide), hearlier .qualifiedFolded (by decide)⟩, .inl h⟩
    | simpleFolded =>
      exact .inr ⟨⟨hearlier .qualified (by decide), hearlier .qualifiedFolded (by decide)⟩,
        .inr ⟨hearlier .simple (by decide), h⟩⟩

/-- Nothing is found when no defined type is named in any way. -/
theorem findType?_eq_none_iff {identifier : String} (hblank : Text.isBlank identifier = false) :
    (Catalog.of m).findType? identifier = none ↔
      ∀ (way : NameMatch) (i : Fin m.types.length),
        way.accepts identifier (m.types.get i) = false := by
  rw [findType?_of_not_blank hblank]
  simp only [Option.or_eq_none_iff, Module.firstMatch, Module.find?_definedEntries_eq_none_iff]
  constructor
  · rintro ⟨⟨h₁, h₂⟩, h₃, h₄⟩ way i
    cases way
    · exact h₁ i
    · exact h₂ i
    · exact h₃ i
    · exact h₄ i
  · intro h
    exact ⟨⟨h .qualified, h .qualifiedFolded⟩, h .simple, h .simpleFolded⟩

/-- Without regard to case a stage matches whenever the stage before it does, so the two stages
that fold case decide whether anything is found. -/
theorem findType?_eq_none_iff_eqFolded {identifier : String}
    (hblank : Text.isBlank identifier = false) :
    (Catalog.of m).findType? identifier = none ↔
      ∀ i : Fin m.types.length, Text.eqFolded (m.types.get i).fullName identifier = false ∧
        Text.eqFolded (m.types.get i).name identifier = false := by
  rw [findType?_eq_none_iff hblank]
  constructor
  · intro h i
    exact ⟨h .qualifiedFolded i, h .simpleFolded i⟩
  · intro h way i
    obtain ⟨hqualified, hsimple⟩ := h i
    cases way with
    | qualified =>
      rw [NameMatch.accepts, decide_eq_false_iff_not]
      rintro rfl
      simp at hqualified
    | qualifiedFolded => exact hqualified
    | simple =>
      rw [NameMatch.accepts, decide_eq_false_iff_not]
      rintro rfl
      simp at hsimple
    | simpleFolded => exact hsimple

/-- The type with the least pair of stage and position is found. -/
theorem findType?_eq_some_iff_isLeast {identifier : String}
    (hblank : Text.isBlank identifier = false) {e : Entry m} :
    (Catalog.of m).findType? identifier = some e ↔
      ∃ (way : NameMatch) (i : Fin m.types.length), e = .defined i ∧
        IsLeast (m.nameMatches identifier) (toLex (way.stage, i.val)) := by
  rw [findType?_eq_some_iff hblank, Module.firstMatch_eq_some_iff_isLeast]

/-- The qualified name of a defined type finds the first type that has it. -/
theorem findType?_fullName {i : Fin m.types.length}
    (hblank : Text.isBlank (m.types.get i).fullName = false) :
    ∃ j, (Catalog.of m).findType? (m.types.get i).fullName = some (.defined j) ∧
      (m.types.get j).fullName = (m.types.get i).fullName ∧
      ∀ k < j, (m.types.get k).fullName ≠ (m.types.get i).fullName := by
  cases hfirst : m.firstMatch (m.types.get i).fullName .qualified with
  | none =>
    have hnone := Module.find?_definedEntries_eq_none_iff.mp hfirst i
    simp [NameMatch.accepts, Entry.type] at hnone
  | some e =>
    obtain ⟨j, rfl, hname, hbefore⟩ := Module.find?_definedEntries_eq_some_iff.mp hfirst
    refine ⟨j, ?_, of_decide_eq_true hname, fun k hk => of_decide_eq_false (hbefore k hk)⟩
    rw [findType?_of_not_blank hblank, hfirst, Option.some_or, Option.some_or]

/-- A blank identifier finds nothing, and any other one the defined type with the least pair of
stage and position, or nothing when there is no such pair; an outside type is never found. The
qualified name of a defined type therefore finds the first type that has it, and identifiers
that are equal without regard to case find a type together or not at all. -/
theorem findType?_isLeast (m : Module) :
    (∀ identifier, Text.isBlank identifier = true →
      (Catalog.of m).findType? identifier = none) ∧
    (∀ identifier, Text.isBlank identifier = false →
      (∀ e, (Catalog.of m).findType? identifier = some e ↔
        ∃ (way : NameMatch) (i : Fin m.types.length), e = .defined i ∧
          IsLeast (m.nameMatches identifier) (toLex (way.stage, i.val))) ∧
      ((Catalog.of m).findType? identifier = none ↔ m.nameMatches identifier = ∅)) ∧
    (∀ identifier i, (Catalog.of m).findType? identifier ≠ some (.referenced i)) ∧
    (∀ i : Fin m.types.length, Text.isBlank (m.types.get i).fullName = false →
      ∃ j, (Catalog.of m).findType? (m.types.get i).fullName = some (.defined j) ∧
        (m.types.get j).fullName = (m.types.get i).fullName ∧
        ∀ k < j, (m.types.get k).fullName ≠ (m.types.get i).fullName) ∧
    ∀ left right, Text.isBlank left = false → Text.isBlank right = false →
      Text.eqFolded left right = true →
      ((Catalog.of m).findType? left = none ↔ (Catalog.of m).findType? right = none) := by
  have hblankNone : ∀ identifier, Text.isBlank identifier = true →
      (Catalog.of m).findType? identifier = none := by
    intro identifier hblank
    rw [findType?, if_pos hblank]
  refine ⟨hblankNone, fun identifier hblank => ⟨fun e => ?_, ?_⟩, fun identifier i hfound => ?_,
    fun i => findType?_fullName, fun left right hleft hright hfold => ?_⟩
  · exact findType?_eq_some_iff_isLeast hblank
  · rw [findType?_eq_none_iff hblank, Set.eq_empty_iff_forall_notMem]
    constructor
    · rintro hnone pair ⟨way, i, haccepts, -⟩
      exact absurd haccepts (Bool.eq_false_iff.mp (hnone way i))
    · intro hempty way i
      exact Bool.eq_false_iff.mpr fun haccepts => hempty _ ⟨way, i, haccepts, rfl⟩
  · cases hblank : Text.isBlank identifier with
    | true => simp [hblankNone identifier hblank] at hfound
    | false =>
      obtain ⟨way, j, hentry, -⟩ := (findType?_eq_some_iff_isLeast hblank).mp hfound
      cases hentry
  · rw [findType?_eq_none_iff_eqFolded hleft, findType?_eq_none_iff_eqFolded hright]
    simp only [Text.eqFolded_congr_right _ hfold]

/-- Types whose names differ in case only, and one whose simple name is the qualified name of
another. -/
def collidingNames : Module where
  identity := ⟨"Acme", none, none, none, none⟩
  location := ""
  files := []
  types := [.ofName "Acme" "gear" 1, .ofName "Acme" "Gear" 1, .ofName "Other" "Acme.Gear" 1]
  referencedTypes := []
  resources := []
  entryPoint := none

/-- In `collidingNames`, the qualified name in another case finds the first type, and the exact
one finds the second type. -/
theorem findType?_collidingNames :
    (Text.isBlank " " = true ∧ (Catalog.of collidingNames).findType? " " = none) ∧
    (Text.isBlank "ACME.GEAR" = false ∧
      (Catalog.of collidingNames).findType? "ACME.GEAR" = some (.defined ⟨0, by decide⟩)) ∧
    (Text.isBlank "Acme.Gear" = false ∧
      ∃ j, (Catalog.of collidingNames).findType? "Acme.Gear" = some (.defined j) ∧ j.val = 1) ∧
    Text.isBlank "acme.gear" = false ∧ Text.eqFolded "ACME.GEAR" "acme.gear" = true ∧
      (Catalog.of collidingNames).findType? "acme.gear" ≠ none := by
  obtain ⟨hblank, hleast, -, hqualified, hfolded⟩ := findType?_isLeast collidingNames
  have hupper : Text.isBlank "ACME.GEAR" = false := by decide +kernel
  have hlower : Text.isBlank "acme.gear" = false := by decide +kernel
  have hexact : Text.isBlank "Acme.Gear" = false := by decide +kernel
  have hsame : Text.eqFolded "ACME.GEAR" "acme.gear" = true := by decide +kernel
  have hfound : (Catalog.of collidingNames).findType? "ACME.GEAR" =
      some (.defined ⟨0, by decide⟩) := by
    refine ((hleast "ACME.GEAR" hupper).1 _).mpr ⟨.qualifiedFolded, ⟨0, by decide⟩, rfl, ?_⟩
    refine Module.isLeast_nameMatches_iff.mpr ⟨by decide +kernel, by decide +kernel, ?_⟩
    intro earlier hearlier
    cases earlier with
    | qualified => decide +kernel
    | _ => simp [NameMatch.stage] at hearlier
  refine ⟨⟨by decide, hblank " " (by decide)⟩, ⟨hupper, hfound⟩, ⟨hexact, ?_⟩, hlower, hsame, ?_⟩
  · obtain ⟨j, hj, hname, -⟩ := hqualified ⟨1, by decide⟩ hexact
    have honly : ∀ k : Fin collidingNames.types.length,
        (collidingNames.types.get k).fullName = "Acme.Gear" → k.val = 1 := by decide +kernel
    exact ⟨j, hj, honly j hname⟩
  · rw [Ne, ← hfolded "ACME.GEAR" "acme.gear" hupper hlower hsame, hfound]
    simp

end Catalog

end ModuleInspector
