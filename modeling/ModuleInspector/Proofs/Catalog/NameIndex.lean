import ModuleInspector.Catalog.Lookup
import Mathlib.Data.List.Nodup

/-!
# First positions of names

The index of a catalog agrees with a plain scan: every name is found at the first position that
carries it, whatever names repeat. A reference therefore resolves to the first defined type with
the name of its definition, and to the first outside one when no defined type has it.
-/

namespace ModuleInspector

namespace NameIndex

/-- Adding names keeps the recorded positions, and records the first position of a new name. -/
theorem getElem?_addFrom (start : Nat) (positions : Std.HashMap String Nat) (names : List String)
    (name : String) :
    (addFrom start positions names)[name]? =
      (positions[name]?).or ((names.idxOf? name).map (· + start)) := by
  induction names generalizing start positions with
  | nil => simp [addFrom]
  | cons first names ih =>
    rw [addFrom, ih, Std.HashMap.getElem?_insertIfNew, List.idxOf?_cons]
    by_cases hsame : first = name
    · subst hsame
      by_cases hknown : first ∈ positions <;> simp [hknown]
    · have hshift : (fun i => i + start) ∘ (fun i => i + 1) = fun i => i + (start + 1) := by
        funext i
        simp only [Function.comp_apply]
        omega
      simp [hsame, hshift]

/-- The index of a list of names holds the first position of every name. -/
@[simp] theorem find?_ofNames (names : List String) (name : String) :
    (ofNames names).find? name = names.idxOf? name := by
  rw [find?, ofNames, getElem?_addFrom]
  simp

end NameIndex

namespace Module

variable {m : Module}

private theorem find?_finRange_eq_some_iff {n : Nat} {p : Fin n → Bool} {i : Fin n} :
    (List.finRange n).find? p = some i ↔ p i = true ∧ ∀ j < i, p j = false := by
  rw [List.find?_eq_some_iff_getElem]
  constructor
  · rintro ⟨hp, k, hk, hi, hbefore⟩
    have hki : k = i.val := by simpa using congrArg Fin.val hi
    refine ⟨hp, fun j hj => ?_⟩
    simpa using hbefore j.val (by omega)
  · rintro ⟨hp, hbefore⟩
    refine ⟨hp, i.val, by simp, by simp, fun j hj => ?_⟩
    simpa using hbefore ⟨j, by omega⟩ hj

/-- A scan of the defined types stops at the first one that passes. -/
theorem find?_definedEntries_eq_some_iff {p : Entry m → Bool} {e : Entry m} :
    m.definedEntries.find? p = some e ↔
      ∃ i, e = .defined i ∧ p (.defined i) = true ∧ ∀ j < i, p (.defined j) = false := by
  rw [definedEntries, List.find?_map, Option.map_eq_some_iff]
  simp only [find?_finRange_eq_some_iff, Function.comp_apply]
  constructor
  · rintro ⟨i, hi, rfl⟩
    exact ⟨i, rfl, hi⟩
  · rintro ⟨i, rfl, hi⟩
    exact ⟨i, hi, rfl⟩

/-- A scan of the defined types fails when none of them passes. -/
theorem find?_definedEntries_eq_none_iff {p : Entry m → Bool} :
    m.definedEntries.find? p = none ↔ ∀ i, p (.defined i) = false := by
  simp [definedEntries]

private theorem idxOf?_eq_find?_finRange {α : Type} (items : List α) (name : α → String)
    (target : String) :
    (items.map name).idxOf? target =
      ((List.finRange items.length).find? fun i => name items[i] = target).map (·.val) := by
  ext position
  rw [List.idxOf?_eq_some_iff, Option.map_eq_some_iff]
  simp only [find?_finRange_eq_some_iff, decide_eq_true_eq, decide_eq_false_iff_not]
  constructor
  · rintro ⟨hposition, hname, hbefore⟩
    rw [List.length_map] at hposition
    refine ⟨⟨position, hposition⟩, ⟨by simpa using hname, fun j hj => ?_⟩, rfl⟩
    simpa using hbefore j.val hj
  · rintro ⟨i, ⟨hname, hbefore⟩, rfl⟩
    refine ⟨by simp, by simpa using hname, fun j hj => ?_⟩
    simpa using hbefore ⟨j, by omega⟩ hj

/-- The entry at the first position of a name is the first entry with it, for entries in the order of
a list of types. -/
private theorem bind_idxOf?_eq_find?_map {types : List TypeDef}
    {entry : Fin types.length → Entry m} {entryAt? : Nat → Option (Entry m)}
    (hat : ∀ i, entryAt? i.val = some (entry i))
    (hname : ∀ i, (entry i).name = (types.get i).fullName) (name : String) :
    ((types.map TypeDef.fullName).idxOf? name).bind entryAt? =
      ((List.finRange types.length).map entry).find? fun e => e.name = name := by
  have hentries : entryAt? ∘ (·.val) = some ∘ entry := funext hat
  rw [idxOf?_eq_find?_finRange, Option.bind_map, hentries, ← Option.map_eq_bind, List.find?_map]
  simp only [Function.comp_def, hname, List.get_eq_getElem, Fin.getElem_fin]

/-- The first position of a name among the defined types is that of the first type with it. -/
theorem bind_definedAt?_idxOf? (m : Module) (name : String) :
    ((m.types.map TypeDef.fullName).idxOf? name).bind m.definedAt? =
      m.definedEntries.find? fun e => e.name = name :=
  bind_idxOf?_eq_find?_map (fun i => by simp [definedAt?]) (fun _ => rfl) name

/-- The first position of a name among the outside types is that of the first type with it. -/
theorem bind_referencedAt?_idxOf? (m : Module) (name : String) :
    ((m.referencedTypes.map TypeDef.fullName).idxOf? name).bind m.referencedAt? =
      m.referencedEntries.find? fun e => e.name = name :=
  bind_idxOf?_eq_find?_map (fun i => by simp [referencedAt?]) (fun _ => rfl) name

end Module

namespace Catalog

variable {m : Module}

/-- The index and a scan of the defined types find the same type for a qualified name. -/
theorem definedNamed?_of (m : Module) (name : String) :
    (Catalog.of m).definedNamed? name = m.definedEntries.find? fun e => e.name = name := by
  rw [definedNamed?, of, NameIndex.find?_ofNames, Module.bind_definedAt?_idxOf?]

/-- A reference resolves to the first type that carries the name of its definition, where the
defined types come before the outside ones. -/
theorem resolve_of (m : Module) (reference : TypeRef) :
    (Catalog.of m).resolve reference =
      reference.definitionName?.bind fun name => m.entries.find? fun e => e.name = name := by
  unfold resolve
  cases reference.definitionName? with
  | none => rfl
  | some name =>
    have hdefined := Module.bind_definedAt?_idxOf? m name
    have hreferenced := Module.bind_referencedAt?_idxOf? m name
    simp only [of, NameIndex.find?_ofNames, Option.bind_some, Module.entries, List.find?_append]
    rw [← hdefined, ← hreferenced]
    cases hindex : (m.types.map TypeDef.fullName).idxOf? name with
    | none => rfl
    | some index =>
      obtain ⟨hlt, -⟩ := List.idxOf?_eq_some_iff.mp hindex
      rw [List.length_map] at hlt
      simp [Module.definedAt?, hlt]

/-- A resolved type carries the name of the definition. -/
theorem definitionName?_of_resolve {reference : TypeRef} {e : Entry m}
    (hresolve : (Catalog.of m).resolve reference = some e) :
    reference.definitionName? = some e.name := by
  rw [resolve_of, Option.bind_eq_some_iff] at hresolve
  obtain ⟨name, hname, hfind⟩ := hresolve
  have hsame : e.name = name := by simpa using List.find?_some hfind
  rw [hname, hsame]

/-- Two references with the same definition name resolve to the same type. -/
theorem resolve_congr {left right : TypeRef}
    (hname : left.definitionName? = right.definitionName?) :
    (Catalog.of m).resolve left = (Catalog.of m).resolve right := by
  rw [resolve_of, resolve_of, hname]

/-- Two types that references resolve to are the same when their names are: each of them is the
first with its name. -/
theorem eq_of_resolve_of_name_eq {left right : TypeRef} {e f : Entry m}
    (hleft : (Catalog.of m).resolve left = some e)
    (hright : (Catalog.of m).resolve right = some f) (hname : e.name = f.name) : e = f := by
  have hdefinition : left.definitionName? = right.definitionName? := by
    rw [definitionName?_of_resolve hleft, definitionName?_of_resolve hright, hname]
  rw [resolve_congr hdefinition, hright] at hleft
  exact (Option.some.inj hleft).symm

/-- Where no two types share a qualified name, a reference to the name of a type resolves to this
type. -/
theorem resolve_eq_some_of_nodup {reference : TypeRef} {e : Entry m}
    (hdistinct : (m.entries.map Entry.name).Nodup)
    (hname : reference.definitionName? = some e.name) :
    (Catalog.of m).resolve reference = some e := by
  rw [resolve_of, hname, Option.bind_some]
  cases hfind : m.entries.find? (fun other => other.name = e.name) with
  | none =>
    have hnone := List.find?_eq_none.mp hfind e (Module.mem_entries e)
    simp at hnone
  | some other =>
    have hsame : other.name = e.name := by simpa using List.find?_some hfind
    rw [List.inj_on_of_nodup_map hdistinct (Module.mem_entries other) (Module.mem_entries e) hsame]

end Catalog

end ModuleInspector
