import ModuleInspector.Proofs.Catalog.ImplementedInterfaces

/-!
# The order of interfaces

The interfaces of a type are listed in the order of a recursive traversal. A visit passes over a
type whose name was visited; otherwise it lists the interfaces of the type that are not listed yet,
and then visits the types they resolve to, each completely before the next. The worklist makes the
same visits: the types that wait on it are the visits still to be made, nearest first, so that one
visit takes a single type from its front, and whatever it puts there is gone again at its end.
-/

namespace ModuleInspector.Catalog

variable {m : Module}

/-- What a traversal has achieved: the names of the visited types, the latest first, and the listed
references. -/
structure Traversal where
  visited : List String
  listed : List TypeRef

namespace Traversal

/-- The traversal before the first visit. -/
def start : Traversal := ⟨[], []⟩

/-- Lists a reference, unless one with the same text is listed. -/
def list (t : Traversal) (reference : TypeRef) : Traversal :=
  if reference.text ∈ t.listed.map TypeRef.text then t
  else { t with listed := t.listed ++ [reference] }

/-- Marks a type as visited and lists its interfaces in declaration order. -/
def enter (t : Traversal) (e : Entry m) : Traversal :=
  e.type.interfaces.foldl list { t with visited := e.name :: t.visited }

/-- Listing references adds them to the ones that were found. -/
theorem foldl_list (t : Traversal) (references : List TypeRef) :
    references.foldl list t = ⟨t.visited, addReferences t.listed references⟩ := by
  induction references generalizing t with
  | nil => rfl
  | cons reference references ih =>
    rw [List.foldl_cons, ih, list, addReferences]
    by_cases hlisted : reference.text ∈ t.listed.map TypeRef.text
    · rw [if_pos hlisted, if_pos (by rwa [TypeRef.texts_eq_map, List.contains_iff_mem])]
    · rw [if_neg hlisted, if_neg (by rwa [TypeRef.texts_eq_map, List.contains_iff_mem])]

/-- A type that is entered is visited, and its interfaces are listed. -/
theorem enter_eq (t : Traversal) (e : Entry m) :
    t.enter e = ⟨e.name :: t.visited, addReferences t.listed e.type.interfaces⟩ := foldl_list _ _

/-- Entering a type with a new name leaves fewer names to visit. -/
theorem unvisited_enter_lt {t : Traversal} {e : Entry m} (hnew : e.name ∉ t.visited) :
    m.unvisited (t.enter e).visited < m.unvisited t.visited := by
  rw [enter_eq]
  exact Module.unvisited_cons_lt hnew

/-- The traversal after a visit, which leaves no more names to visit than there were. Every visit
that it makes in turn starts after the type was entered, and so the recursion ends. -/
def visitWithin (c : Catalog m) (t : Traversal) (e : Entry m) :
    { later : Traversal // m.unvisited later.visited ≤ m.unvisited t.visited } :=
  if hvisited : e.name ∈ t.visited then ⟨t, Nat.le_refl _⟩
  else
    let last := (e.type.interfaces.filterMap c.resolve).foldl
      (fun (before : { before : Traversal //
          m.unvisited before.visited < m.unvisited t.visited }) f =>
        let after := visitWithin c before.val f
        ⟨after.val, Nat.lt_of_le_of_lt after.property before.property⟩)
      ⟨t.enter e, unvisited_enter_lt hvisited⟩
    ⟨last.val, Nat.le_of_lt last.property⟩
termination_by m.unvisited t.visited
decreasing_by exact before.property

/-- The traversal after a visit. -/
def visit (c : Catalog m) (t : Traversal) (e : Entry m) : Traversal := (visitWithin c t e).val

variable (c : Catalog m)

/-- A visit leaves no more names to visit. -/
theorem unvisited_visit_le (t : Traversal) (e : Entry m) :
    m.unvisited (visit c t e).visited ≤ m.unvisited t.visited := (visitWithin c t e).property

/-- A visit passes over a type whose name was visited. Any other type is entered, and then the types
that its interfaces resolve to are visited, one after the other. -/
theorem visit_eq (t : Traversal) (e : Entry m) :
    visit c t e =
      if e.name ∈ t.visited then t
      else (e.type.interfaces.filterMap c.resolve).foldl (visit c) (t.enter e) := by
  rw [visit, visitWithin]
  split
  · rfl
  · exact (List.foldl_hom Subtype.val (fun _ _ => rfl)).symm

/-- The worklist of a traversal, with the types that wait to be visited. -/
def worklist (t : Traversal) (pending : List (Entry m)) : Worklist m :=
  ⟨t.visited, t.listed, pending⟩

variable {c}

/-- If every visit below a number of unvisited names takes the first type from the worklist, then
visits one after the other take one type each. -/
private theorem turns_foldl_visit {bound : Nat} (pending : List (Entry m))
    (hvisit : ∀ (t : Traversal) (e : Entry m) (rest : List (Entry m)),
      m.unvisited t.visited < bound →
      Relation.ReflTransGen (Turn c) (t.worklist (e :: rest)) ((visit c t e).worklist rest))
    (entries : List (Entry m)) (t : Traversal) (hbound : m.unvisited t.visited < bound) :
    Relation.ReflTransGen (Turn c) (t.worklist (entries ++ pending))
      ((entries.foldl (visit c) t).worklist pending) := by
  induction entries generalizing t with
  | nil => exact .refl
  | cons e entries ih =>
    have hlater : m.unvisited (visit c t e).visited < bound :=
      Nat.lt_of_le_of_lt (unvisited_visit_le c t e) hbound
    exact (hvisit t e _ hbound).trans (ih _ hlater)

/-- A visit is some turns of the worklist, which take the first type from it and leave the others
as they are. By induction on the names that are left to visit. -/
theorem turns_visit (t : Traversal) (e : Entry m) (pending : List (Entry m)) :
    Relation.ReflTransGen (Turn c) (t.worklist (e :: pending)) ((visit c t e).worklist pending) := by
  induction hbound : m.unvisited t.visited using Nat.strongRecOn
    generalizing t e pending with
  | ind bound ih =>
    rw [visit_eq]
    by_cases hvisited : e.name ∈ t.visited
    · rw [if_pos hvisited]
      exact .single (.passOver hvisited)
    · have hturn : Turn c (t.worklist (e :: pending))
          ((t.enter e).worklist (e.type.interfaces.filterMap c.resolve ++ pending)) := by
        rw [enter_eq]
        exact .visit hvisited
      have hlater := turns_foldl_visit (c := c) pending
        (fun t e rest hlt => ih _ hlt t e rest rfl) (e.type.interfaces.filterMap c.resolve)
        (t.enter e) (hbound ▸ unvisited_enter_lt hvisited)
      rw [if_neg hvisited]
      exact .head hturn hlater

end Traversal

variable {c : Catalog m}

/-- A turn of the worklist does not change the result of the run. -/
theorem Turn.interfacesFrom_eq {before after : Worklist m} (hturn : Turn c before after) :
    c.interfacesFrom before.visited before.listed before.pending =
      c.interfacesFrom after.visited after.listed after.pending := by
  cases hturn with
  | passOver hvisited => rw [interfacesFrom, dif_pos hvisited]
  | visit hnew => rw [interfacesFrom, dif_neg hnew]

/-- Neither do any number of turns. -/
theorem interfacesFrom_eq_of_turns {first last : Worklist m}
    (hturns : Relation.ReflTransGen (Turn c) first last) :
    c.interfacesFrom first.visited first.listed first.pending =
      c.interfacesFrom last.visited last.listed last.pending := by
  induction hturns with
  | refl => rfl
  | tail _ hturn ih => rw [ih, hturn.interfacesFrom_eq]

/-- A run of the worklist lists what the visits of the pending types list, one after the other. -/
theorem interfacesFrom_eq_foldl_visit (t : Traversal) (pending : List (Entry m)) :
    c.interfacesFrom t.visited t.listed pending =
      (pending.foldl (Traversal.visit c) t).listed := by
  have hturns := Traversal.turns_foldl_visit (c := c) []
    (fun t e rest _ => t.turns_visit e rest) pending t (Nat.lt_succ_self _)
  rw [List.append_nil] at hturns
  have hresult := interfacesFrom_eq_of_turns hturns
  rwa [Traversal.worklist, Traversal.worklist, interfacesFrom] at hresult

/-- The interfaces of a type are listed in the order of the recursive traversal that visits the type
and then its bases, nearest first. -/
theorem interfacesOf_eq_traversal (c : Catalog m) (e : Entry m) :
    (∀ t f, Traversal.visit c t f =
      if f.name ∈ t.visited then t
      else (f.type.interfaces.filterMap c.resolve).foldl (Traversal.visit c) (t.enter f)) ∧
    c.interfacesOf e = ((e :: c.baseChain e).foldl (Traversal.visit c) .start).listed :=
  ⟨Traversal.visit_eq c, interfacesFrom_eq_foldl_visit .start _⟩

end ModuleInspector.Catalog
