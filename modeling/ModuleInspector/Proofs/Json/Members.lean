import ModuleInspector.Json.Value
import Mathlib.Tactic.SplitIfs

/-!
# Members of objects

What is found under a key of an object, also after a reader added a member, and where it adds one.
-/

namespace ModuleInspector.Json

variable {key name : String} {value : Json} {members : List (String × Json)}

/-- An object without members has none under any key. -/
@[simp] theorem member?_nil : member? key [] = none := rfl

/-- The first member of an object is found under its own key. -/
@[simp] theorem member?_cons :
    member? key ((name, value) :: members) =
      if key = name then some value else member? key members := by
  unfold member?
  rw [List.lookup_cons]
  by_cases hkey : key = name
  · simp [hkey]
  · simp [hkey, beq_eq_false_iff_ne.mpr hkey]

/-- A member is looked for in the front members first. -/
@[simp] theorem member?_append {front back : List (String × Json)} :
    member? key (front ++ back) = (member? key front).or (member? key back) :=
  List.lookup_append

/-- Nothing is found under a key that is not there. -/
theorem member?_eq_none (hkey : key ∉ members.map Prod.fst) : member? key members = none := by
  refine List.lookup_eq_none_iff.mpr fun member hmember => bne_iff_ne.mpr ?_
  rintro rfl
  exact hkey (List.mem_map_of_mem hmember)

/-- An added member is found under its key, and the others as before. -/
theorem member?_setMember :
    member? key (setMember name value members) =
      if key = name then some value else member? key members := by
  fun_induction setMember name value members with
  | case1 => exact member?_cons
  | case2 => exact member?_cons
  | case3 other old members horder =>
    obtain rfl := Std.LawfulEqCmp.eq_of_compare horder
    rw [member?_cons, member?_cons]
    split_ifs
    all_goals rfl
  | case4 other old members horder ih =>
    have hother : name ≠ other := by
      rintro rfl
      simp at horder
    rw [member?_cons, member?_cons, ih]
    split_ifs with hkey hname
    · exact absurd (hname.symm.trans hkey) hother
    all_goals rfl

/-- A key after all others is added at the end. -/
theorem setMember_append (hkeys : ∀ member ∈ members, compare member.1 key = .lt) :
    setMember key value members = members ++ [(key, value)] := by
  induction members with
  | nil => rfl
  | cons member members ih =>
    obtain ⟨hmember, hothers⟩ := List.forall_mem_cons.mp hkeys
    have hlater : compare key member.1 = .gt := Std.OrientedCmp.gt_of_lt hmember
    rw [setMember, hlater, List.cons_append]
    dsimp only
    rw [ih hothers]

end ModuleInspector.Json
