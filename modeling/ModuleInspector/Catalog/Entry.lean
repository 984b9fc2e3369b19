import ModuleInspector.Metadata.Module

/-!
# Entries of a module

A type of a module is named by its position in one of the two lists of types. Two entries are
the same only when their positions are, so types with equal names stay apart.
-/

namespace ModuleInspector

/-- A type of a module by its position. -/
inductive Entry (m : Module)
  | defined (index : Fin m.types.length)
  | referenced (index : Fin m.referencedTypes.length)
  deriving DecidableEq

namespace Entry

variable {m : Module}

/-- The type at a position. -/
def type : Entry m → TypeDef
  | defined index => m.types[index]
  | referenced index => m.referencedTypes[index]

/-- The qualified name of the type at a position. -/
def name (e : Entry m) : String := e.type.fullName

end Entry

namespace Module

/-- The types a module defines, in native order. -/
def definedEntries (m : Module) : List (Entry m) :=
  (List.finRange m.types.length).map .defined

/-- The outside types that a module records, in native order. -/
def referencedEntries (m : Module) : List (Entry m) :=
  (List.finRange m.referencedTypes.length).map .referenced

/-- All types of a module, the defined ones first. -/
def entries (m : Module) : List (Entry m) := m.definedEntries ++ m.referencedEntries

theorem mem_entries {m : Module} (e : Entry m) : e ∈ m.entries := by
  cases e <;> simp [entries, definedEntries, referencedEntries]

/-- The defined type at a position, if there is one. -/
def definedAt? (m : Module) (index : Nat) : Option (Entry m) :=
  if h : index < m.types.length then some (.defined ⟨index, h⟩) else none

/-- The outside type at a position, if there is one. -/
def referencedAt? (m : Module) (index : Nat) : Option (Entry m) :=
  if h : index < m.referencedTypes.length then some (.referenced ⟨index, h⟩) else none

/-- The number of types whose qualified name is not among the visited ones. A walk through the
types that visits no name twice makes it smaller with every step. -/
def unvisited (m : Module) (visited : List String) : Nat :=
  m.entries.countP fun e => !visited.contains e.name

private theorem countP_lt_of_mem {α : Type} {p q : α → Bool} {items : List α} {a : α}
    (weaker : ∀ x, p x = true → q x = true) (mem : a ∈ items) (holds : q a = true)
    (fails : p a = false) : items.countP p < items.countP q := by
  induction items with
  | nil => simp at mem
  | cons x items ih =>
    have le : items.countP p ≤ items.countP q :=
      List.countP_mono_left fun y _ => weaker y
    rw [List.countP_cons, List.countP_cons]
    rcases List.mem_cons.mp mem with rfl | mem
    · rw [holds, fails]
      simp only [Bool.false_eq_true, ↓reduceIte]
      omega
    · have := ih mem
      cases hx : p x with
      | true =>
        rw [weaker x hx]
        omega
      | false =>
        simp only [Bool.false_eq_true, ↓reduceIte]
        split <;> omega

theorem unvisited_cons_lt {m : Module} {visited : List String} {e : Entry m}
    (h : e.name ∉ visited) : m.unvisited (e.name :: visited) < m.unvisited visited := by
  refine countP_lt_of_mem (fun x hx => ?_) (mem_entries e) ?_ ?_
  · simp only [List.contains_cons, Bool.not_or, Bool.and_eq_true] at hx
    exact hx.2
  · simpa using h
  · simp

end Module

end ModuleInspector
