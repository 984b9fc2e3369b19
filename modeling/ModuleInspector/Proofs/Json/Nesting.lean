import ModuleInspector.Proofs.Json.FiniteNumber

/-!
# Nesting

How deep the containers of a value nest, and the values that nest at most so deep and hold finite
doubles only.
-/

namespace ModuleInspector.Json

mutual

/-- The number of containers on the longest way into a value. -/
def nesting : Json → Nat
  | .array items => nestingItems items + 1
  | .object members => nestingMembers members + 1
  | _ => 0

/-- The deepest nesting of the items of an array. -/
def nestingItems : List Json → Nat
  | [] => 0
  | item :: items => max item.nesting (nestingItems items)

/-- The deepest nesting of the members of an object. -/
def nestingMembers : List (String × Json) → Nat
  | [] => 0
  | (_, value) :: members => max value.nesting (nestingMembers members)

end

/-- The items of an array nest at most so deep when each of them does. -/
theorem nestingItems_le_iff {items : List Json} {depth : Nat} :
    nestingItems items ≤ depth ↔ ∀ item ∈ items, item.nesting ≤ depth := by
  induction items with
  | nil => simp [nestingItems]
  | cons item items ih => rw [nestingItems, Nat.max_le, ih, List.forall_mem_cons]

/-- The members of an object nest at most so deep when each of them does. -/
theorem nestingMembers_le_iff {members : List (String × Json)} {depth : Nat} :
    nestingMembers members ≤ depth ↔ ∀ member ∈ members, member.2.nesting ≤ depth := by
  induction members with
  | nil => simp [nestingMembers]
  | cons member members ih => rw [nestingMembers, Nat.max_le, ih, List.forall_mem_cons]

/-- The values that nest at most so many containers and whose doubles are finite. -/
inductive Within : Nat → Json → Prop
  | null {depth : Nat} : Within depth .null
  | bool {depth : Nat} {value : Bool} : Within depth (.bool value)
  | number {depth : Nat} {value : Number} (hfinite : value.IsFinite) :
    Within depth (.number value)
  | string {depth : Nat} {value : String} : Within depth (.string value)
  | array {depth : Nat} {items : List Json} (hitems : ∀ item ∈ items, Within depth item) :
    Within (depth + 1) (.array items)
  | object {depth : Nat} {members : List (String × Json)}
    (hmembers : ∀ member ∈ members, Within depth member.2) : Within (depth + 1) (.object members)

attribute [simp] Within.null Within.bool Within.string

namespace Within

/-- A bound on the nesting may be raised. -/
theorem mono {low high : Nat} {value : Json} (hvalue : Within low value) (hle : low ≤ high) :
    Within high value := by
  induction hvalue generalizing high with
  | null => exact .null
  | bool => exact .bool
  | number hfinite => exact .number hfinite
  | string => exact .string
  | array _ ih =>
    obtain ⟨high, rfl⟩ := Nat.exists_eq_add_of_lt (Nat.lt_of_succ_le hle)
    exact .array fun item hitem => ih item hitem (by omega)
  | object _ ih =>
    obtain ⟨high, rfl⟩ := Nat.exists_eq_add_of_lt (Nat.lt_of_succ_le hle)
    exact .object fun member hmember => ih member hmember (by omega)

/-- The bound of a value is one on its nesting. -/
theorem nesting_le {depth : Nat} {value : Json} (hvalue : Within depth value) :
    value.nesting ≤ depth := by
  induction hvalue with
  | null | bool | number | string => simp [nesting]
  | array _ ih =>
    rw [nesting]
    exact Nat.succ_le_succ (nestingItems_le_iff.mpr ih)
  | object _ ih =>
    rw [nesting]
    exact Nat.succ_le_succ (nestingMembers_le_iff.mpr ih)

/-- The items of an array nest less deep than it. -/
theorem of_array {depth : Nat} {items : List Json} (hvalue : Within depth (.array items)) :
    ∃ inner, depth = inner + 1 ∧ ∀ item ∈ items, Within inner item := by
  cases hvalue with
  | array hitems => exact ⟨_, rfl, hitems⟩

/-- The members of an object nest less deep than it. -/
theorem of_object {depth : Nat} {members : List (String × Json)}
    (hvalue : Within depth (.object members)) :
    ∃ inner, depth = inner + 1 ∧ ∀ member ∈ members, Within inner member.2 := by
  cases hvalue with
  | object hmembers => exact ⟨_, rfl, hmembers⟩

end Within

end ModuleInspector.Json
