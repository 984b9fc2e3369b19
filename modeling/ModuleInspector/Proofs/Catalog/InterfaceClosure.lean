import ModuleInspector.Catalog.Hierarchy
import Mathlib.Logic.Relation

/-!
# The closure of interfaces

The interfaces of a type come from a worklist of types: a pending type whose name was visited is
passed over, and any other one lists its interfaces and puts their types on the worklist. When
the worklist is empty, every visited type has listed its interfaces and has seen them visited,
and every listed interface belongs to a type that a pending one leads to.
-/

namespace ModuleInspector.Catalog

variable {m : Module} {c : Catalog m}

/-- Whether an interface of the first type resolves to the second one. -/
def Extends (c : Catalog m) (e f : Entry m) : Prop :=
  ∃ reference ∈ e.type.interfaces, c.resolve reference = some f

/-- Adding references lists their texts. -/
theorem mem_texts_addReferences {found references : List TypeRef} {text : String} :
    text ∈ TypeRef.texts (addReferences found references) ↔
      text ∈ TypeRef.texts found ∨ text ∈ TypeRef.texts references := by
  fun_induction addReferences found references with
  | case1 found => simp [TypeRef.texts]
  | case2 found reference references hknown ih =>
    have hmem := List.contains_iff_mem.mp hknown
    rw [ih, TypeRef.texts, List.mem_cons]
    constructor
    · rintro (h | h)
      · exact .inl h
      · exact .inr (.inr h)
    · rintro (h | rfl | h)
      · exact .inl h
      · exact .inl hmem
      · exact .inr h
  | case3 found reference references hnew ih =>
    rw [ih]
    simp only [TypeRef.texts_eq_map, List.map_append, List.map_cons, List.map_nil,
      List.mem_append, List.mem_cons, List.not_mem_nil, false_or, or_assoc]

/-- Adding references lists nothing else. -/
theorem mem_of_mem_addReferences {found references : List TypeRef} {reference : TypeRef}
    (hmem : reference ∈ addReferences found references) :
    reference ∈ found ∨ reference ∈ references := by
  fun_induction addReferences found references with
  | case1 found => exact .inl hmem
  | case2 found first references hknown ih =>
    exact (ih hmem).imp_right (List.mem_cons_of_mem _)
  | case3 found first references hnew ih =>
    rcases ih hmem with hfound | hlater
    · rcases List.mem_append.mp hfound with hfound | hfirst
      · exact .inl hfound
      · exact .inr (by simp [List.mem_singleton.mp hfirst])
    · exact .inr (List.mem_cons_of_mem _ hlater)

/-- What the worklist has achieved: the interfaces of every type that is done are listed, and the
types of these interfaces are done, up to their names, or pending. -/
structure Settled (c : Catalog m) (done : List (Entry m)) (found : List TypeRef)
    (pending : List (Entry m)) : Prop where
  listed : ∀ e ∈ done, ∀ reference ∈ e.type.interfaces, reference.text ∈ TypeRef.texts found
  followed : ∀ e ∈ done, ∀ f, c.Extends e f → f.name ∈ done.map Entry.name ∨ f ∈ pending

/-- Passing over a type whose name was visited loses nothing. -/
theorem Settled.skip {done pending : List (Entry m)} {found : List TypeRef} {current : Entry m}
    (hsettled : Settled c done found (current :: pending))
    (hvisited : current.name ∈ done.map Entry.name) : Settled c done found pending where
  listed := hsettled.listed
  followed e he f hf := by
    rcases hsettled.followed e he f hf with hdone | hpending
    · exact .inl hdone
    · rcases List.mem_cons.mp hpending with rfl | hpending
      · exact .inl hvisited
      · exact .inr hpending

/-- Visiting a type lists its interfaces and puts their types on the worklist. -/
theorem Settled.visit {done pending : List (Entry m)} {found : List TypeRef} {current : Entry m}
    (hsettled : Settled c done found (current :: pending)) :
    Settled c (current :: done) (addReferences found current.type.interfaces)
      (current.type.interfaces.filterMap c.resolve ++ pending) where
  listed e he reference hreference := by
    rw [mem_texts_addReferences]
    rcases List.mem_cons.mp he with rfl | he
    · exact .inr (by rw [TypeRef.texts_eq_map]; exact List.mem_map_of_mem hreference)
    · exact .inl (hsettled.listed e he reference hreference)
  followed e he f hf := by
    rcases List.mem_cons.mp he with rfl | he
    · obtain ⟨reference, hreference, hresolve⟩ := hf
      exact .inr (List.mem_append_left _ (List.mem_filterMap.mpr ⟨reference, hreference, hresolve⟩))
    · rcases hsettled.followed e he f hf with hdone | hpending
      · exact .inl (List.mem_cons_of_mem _ hdone)
      · rcases List.mem_cons.mp hpending with rfl | hpending
        · exact .inl (by simp)
        · exact .inr (List.mem_append_right _ hpending)

/-- A run of the worklist ends with nothing pending: there are types that include the ones that
were done and, up to their names, the pending ones, every one of which is settled. Each of them was
done, was pending, or is what an interface of another one resolves to. -/
theorem exists_settled_interfacesFrom {visited : List String} {found : List TypeRef}
    {pending done : List (Entry m)} (hvisited : visited = done.map Entry.name)
    (hsettled : Settled c done found pending) :
    ∃ final, done ⊆ final ∧ (∀ e ∈ pending, e.name ∈ final.map Entry.name) ∧
      (∀ e ∈ final, e ∈ done ∨ e ∈ pending ∨ ∃ f, c.Extends f e) ∧
      Settled c final (c.interfacesFrom visited found pending) [] := by
  fun_induction interfacesFrom c visited found pending generalizing done with
  | case1 visited found => exact ⟨done, fun _ h => h, by simp, fun e he => .inl he, hsettled⟩
  | case2 visited found current pending hknown ih =>
    subst hvisited
    obtain ⟨final, hdone, hpending, horigin, hfinal⟩ := ih rfl (hsettled.skip hknown)
    refine ⟨final, hdone, fun e he => ?_, fun e he => ?_, hfinal⟩
    · rcases List.mem_cons.mp he with rfl | he
      · exact List.map_subset _ hdone hknown
      · exact hpending e he
    · exact (horigin e he).imp_right (Or.imp_left (List.mem_cons_of_mem _))
  | case3 visited found current pending hnew ih =>
    subst hvisited
    obtain ⟨final, hdone, hpending, horigin, hfinal⟩ := ih rfl hsettled.visit
    obtain ⟨hcurrent, hdone⟩ := List.cons_subset.mp hdone
    refine ⟨final, hdone, fun e he => ?_, fun e he => ?_, hfinal⟩
    · rcases List.mem_cons.mp he with rfl | he
      · exact List.mem_map_of_mem hcurrent
      · exact hpending e (List.mem_append_right _ he)
    · rcases horigin e he with hold | hlater | hextends
      · rcases List.mem_cons.mp hold with rfl | hold
        · exact .inr (.inl (by simp))
        · exact .inl hold
      · rcases List.mem_append.mp hlater with hinterface | hlater
        · obtain ⟨reference, hreference, hresolve⟩ := List.mem_filterMap.mp hinterface
          exact .inr (.inr ⟨current, reference, hreference, hresolve⟩)
        · exact .inr (.inl (List.mem_cons_of_mem _ hlater))
      · exact .inr (.inr hextends)

/-- Every listed interface was listed before, or belongs to a type that a pending one leads to. -/
theorem exists_source_of_mem_interfacesFrom {visited : List String} {found : List TypeRef}
    {pending : List (Entry m)} {reference : TypeRef}
    (hmem : reference ∈ c.interfacesFrom visited found pending) :
    reference ∈ found ∨ ∃ e ∈ pending, ∃ f, Relation.ReflTransGen c.Extends e f ∧
      reference ∈ f.type.interfaces := by
  fun_induction interfacesFrom c visited found pending with
  | case1 visited found => exact .inl hmem
  | case2 visited found current pending hknown ih =>
    refine (ih hmem).imp_right ?_
    rintro ⟨e, he, hsource⟩
    exact ⟨e, List.mem_cons_of_mem _ he, hsource⟩
  | case3 visited found current pending hnew ih =>
    rcases ih hmem with hfound | ⟨e, he, f, hpath, hf⟩
    · rcases mem_of_mem_addReferences hfound with hfound | hcurrent
      · exact .inl hfound
      · exact .inr ⟨current, by simp, current, .refl, hcurrent⟩
    · rcases List.mem_append.mp he with hinterface | he
      · obtain ⟨link, hlink, hresolve⟩ := List.mem_filterMap.mp hinterface
        exact .inr ⟨current, by simp, f, .head ⟨link, hlink, hresolve⟩ hpath, hf⟩
      · exact .inr ⟨e, List.mem_cons_of_mem _ he, f, hpath, hf⟩

end ModuleInspector.Catalog
