import ModuleInspector.Proofs.Catalog.MemberInheritance

/-!
# Selection as a filter

What hides a member is decided by the keys of the nearer types, selected or not. The walk through
the bases therefore gathers the same keys for every selection, and a narrower selection shows those
members of a wider one that it selects, in the same order.
-/

namespace ModuleInspector

variable {m : Module}

namespace Selection

/-- The selection of all members, of the type alone or with the inherited ones as before. -/
def widened (s : Selection) : Selection :=
  { s with instances := true, statics := true, publics := true, nonPublics := true }

/-- Whether a selection asks for nothing that the other one does not ask for. -/
structure Narrows (s t : Selection) : Prop where
  declaredOnly : t.declaredOnly = true → s.declaredOnly = true
  instances : s.instances = true → t.instances = true
  statics : s.statics = true → t.statics = true
  publics : s.publics = true → t.publics = true
  nonPublics : s.nonPublics = true → t.nonPublics = true

theorem narrows_widened (s : Selection) : s.Narrows s.widened where
  declaredOnly := id
  instances _ := rfl
  statics _ := rfl
  publics _ := rfl
  nonPublics _ := rfl

/-- A narrower selection selects fewer visibilities and storages. -/
theorem Narrows.selects {s t : Selection} (hnarrow : s.Narrows t) {isPublic isStatic : Bool}
    (hselects : s.selects isPublic isStatic = true) : t.selects isPublic isStatic = true := by
  simp only [Selection.selects, Bool.and_eq_true] at hselects ⊢
  obtain ⟨hvisible, hstored⟩ := hselects
  constructor
  · cases isPublic with
    | false => exact hnarrow.nonPublics hvisible
    | true => exact hnarrow.publics hvisible
  · cases isStatic with
    | false => exact hnarrow.instances hstored
    | true => exact hnarrow.statics hstored

end Selection

/-- Whether a selection selects a member by its visibility and storage. -/
def MemberEntry.selectedBy (s : Selection) (entry : MemberEntry m) : Bool :=
  s.selects entry.member.isPublic entry.member.isStatic

namespace Catalog

/-- The inherited members of a narrower selection are the selected ones of the wider selection.
The induction is on the chain of bases; both walks hide the same keys at every base. -/
theorem inherited_eq_filter {s t : Selection} (hnarrow : s.Narrows t) (kind : MemberKind)
    (hidden : List String) (bases : List (Entry m)) :
    inherited kind s hidden bases =
      (inherited kind t hidden bases).filter (MemberEntry.selectedBy s) := by
  induction bases generalizing hidden with
  | nil => rfl
  | cons base bases ih =>
    rw [inherited, inherited, List.filter_append, ← ih, List.filter_filter]
    congr 2
    funext entry
    rw [MemberEntry.selectedBy]
    cases hstatic : entry.member.isStatic with
    | true => simp
    | false =>
      cases hselects : s.selects entry.member.isPublic false with
      | false => simp
      | true => simp [hnarrow.selects hselects]

/-- The members of a narrower selection with the same reach are the selected ones of the wider
selection. -/
theorem members_eq_filter (c : Catalog m) (e : Entry m) (kind : MemberKind) {s t : Selection}
    (hnarrow : s.Narrows t) (hreach : s.declaredOnly = t.declaredOnly) :
    c.members e kind s = (c.members e kind t).filter (MemberEntry.selectedBy s) := by
  have hown : ((e.declared kind).filter (MemberEntry.selectedBy t)).filter
      (MemberEntry.selectedBy s) = (e.declared kind).filter (MemberEntry.selectedBy s) := by
    rw [List.filter_filter]
    congr 1
    funext entry
    cases hselects : entry.selectedBy s with
    | false => rfl
    | true => exact hnarrow.selects hselects
  rw [members, members, hreach]
  split
  · exact hown.symm
  · rw [List.filter_append, ← inherited_eq_filter hnarrow]
    exact congrArg (· ++ _) hown.symm

/-- The declared members alone are the first ones of all. -/
theorem isPrefix_members_declaredOnly (c : Catalog m) (e : Entry m) (kind : MemberKind)
    (s : Selection) :
    c.members e kind { s with declaredOnly := true } <+: c.members e kind s := by
  rw [members, members]
  split
  · split
    · exact List.prefix_rfl
    · exact List.prefix_append _ _
  · next hall => exact absurd rfl hall

/-- A narrower selection drops members and leaves the others in their order. -/
theorem members_sublist (c : Catalog m) (e : Entry m) (kind : MemberKind) {s t : Selection}
    (hnarrow : s.Narrows t) : (c.members e kind s).Sublist (c.members e kind t) := by
  have hsame {s t : Selection} (hnarrow : s.Narrows t) (hreach : s.declaredOnly = t.declaredOnly) :
      (c.members e kind s).Sublist (c.members e kind t) := by
    rw [members_eq_filter c e kind hnarrow hreach]
    exact List.filter_sublist
  cases hreach : s.declaredOnly with
  | true =>
    have hdeclared : s.Narrows { t with declaredOnly := true } :=
      { hnarrow with declaredOnly := fun _ => hreach }
    exact (hsame hdeclared hreach).trans (isPrefix_members_declaredOnly c e kind t).sublist
  | false =>
    have hall : t.declaredOnly = false := by
      by_contra hdeclared
      simp [hnarrow.declaredOnly (by simpa using hdeclared)] at hreach
    exact hsame hnarrow (hreach.trans hall.symm)

end Catalog

end ModuleInspector
