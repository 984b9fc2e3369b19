import ModuleInspector.Proofs.Catalog.NameIndex
import Mathlib.Order.Bounds.Basic

/-!
# Resolution is a scan

A reference resolves through two indices that are built once for a module. Each of them records the
least position of every name, and nothing else, so a reference resolves to the type that a scan of
the defined types and then of the outside ones finds first.
-/

namespace ModuleInspector

/-- The positions at which a list of types carries a qualified name. -/
def positionsNamed (types : List TypeDef) (name : String) : Set Nat :=
  {i | ∃ h : i < types.length, types[i].fullName = name}

/-- The index of a list of types records the least position of every name, and nothing else. -/
theorem NameIndex.getElem?_positions_eq_some_iff {types : List TypeDef} {name : String} {i : Nat} :
    (NameIndex.ofNames (types.map TypeDef.fullName)).positions[name]? = some i ↔
      IsLeast (positionsNamed types name) i := by
  have hfirst := NameIndex.find?_ofNames (types.map TypeDef.fullName) name
  rw [NameIndex.find?] at hfirst
  rw [hfirst, List.idxOf?_eq_some_iff]
  constructor
  · rintro ⟨hi, hname, hbefore⟩
    refine ⟨⟨by simpa using hi, by simpa using hname⟩, ?_⟩
    rintro j ⟨hj, hother⟩
    by_contra hlt
    exact hbefore j (by omega) (by simpa using hother)
  · rintro ⟨⟨hi, hname⟩, hleast⟩
    refine ⟨by simpa using hi, by simpa using hname, fun j hj hother => ?_⟩
    have hle : i ≤ j := hleast ⟨by omega, by simpa using hother⟩
    omega

/-- The entries are the defined types and then the outside ones, in native order. -/
theorem Module.map_type_entries (m : Module) :
    m.entries.map Entry.type = m.types ++ m.referencedTypes := by
  rw [entries, definedEntries, referencedEntries, List.map_append, List.map_map, List.map_map]
  congr 1
  · exact List.map_getElem_finRange m.types
  · exact List.map_getElem_finRange m.referencedTypes

/-- The types of a module are scanned in native order, the defined ones first, and a reference
resolves to the first one that carries the name of its definition. The two indices that stand in for
the scan record exactly the least position of every name in their list of types. -/
theorem Catalog.resolve_eq_scan (m : Module) :
    m.entries.map Entry.type = m.types ++ m.referencedTypes ∧
    (∀ reference, (Catalog.of m).resolve reference =
      match reference.definitionName? with
      | none => none
      | some name => m.entries.find? fun e => e.name = name) ∧
    (∀ name i, (Catalog.of m).defined.positions[name]? = some i ↔
      IsLeast (positionsNamed m.types name) i) ∧
    ∀ name i, (Catalog.of m).referenced.positions[name]? = some i ↔
      IsLeast (positionsNamed m.referencedTypes name) i := by
  refine ⟨m.map_type_entries, fun reference => ?_,
    fun _ _ => NameIndex.getElem?_positions_eq_some_iff,
    fun _ _ => NameIndex.getElem?_positions_eq_some_iff⟩
  rw [resolve_of]
  cases reference.definitionName? with
  | none => rfl
  | some name => rfl

end ModuleInspector
