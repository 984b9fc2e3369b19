import ModuleInspector.Catalog.Hierarchy
import Mathlib.Data.List.Nodup
import Mathlib.Logic.Relation

/-!
# The walk through the bases

The walk through the bases of a type visits no qualified name twice, and it gives up a base only
when its name was visited. A type and its bases are therefore closed under taking bases, up to
the names of types.
-/

namespace ModuleInspector.Catalog

variable {m : Module} {c : Catalog m}

/-- The types that the steps of a walk reach, nearest first. -/
def targets (steps : List (BaseStep m)) : List (Entry m) := steps.filterMap (·.target)

@[simp] theorem targets_nil : targets ([] : List (BaseStep m)) = [] := rfl

@[simp] theorem targets_cons_some (reference : TypeRef) (e : Entry m)
    (steps : List (BaseStep m)) : targets (⟨reference, some e⟩ :: steps) = e :: targets steps := rfl

@[simp] theorem targets_cons_none (reference : TypeRef) (steps : List (BaseStep m)) :
    targets (⟨reference, none⟩ :: steps) = targets steps := rfl

/-- A walk reaches names that were not visited, each of them once. -/
theorem nodup_names_basesFrom (visited : List String) (current : Entry m) :
    (∀ e ∈ targets (c.basesFrom visited current), e.name ∉ visited) ∧
      ((targets (c.basesFrom visited current)).map Entry.name).Nodup := by
  fun_induction basesFrom c visited current with
  | case1 visited current hbase => simp
  | case2 visited current reference hbase hresolve => simp
  | case3 visited current reference hbase next hresolve hvisited => simp
  | case4 visited current reference hbase next hresolve hvisited ih =>
    obtain ⟨hnew, hnodup⟩ := ih
    simp only [targets_cons_some, List.map_cons, List.nodup_cons]
    refine ⟨fun e he => ?_, fun hmem => ?_, hnodup⟩
    · rcases List.mem_cons.mp he with rfl | he
      · exact hvisited
      · exact fun hold => hnew e he (List.mem_cons_of_mem _ hold)
    · obtain ⟨e, he, hname⟩ := List.mem_map.mp hmem
      exact hnew e he (by simp [hname])

/-- The qualified names of a type and its bases are pairwise distinct. -/
theorem nodup_names_baseChain (e : Entry m) :
    ((e :: c.baseChain e).map Entry.name).Nodup := by
  obtain ⟨hnew, hnodup⟩ := nodup_names_basesFrom (c := c) [e.name] e
  rw [List.map_cons, List.nodup_cons]
  refine ⟨fun hmem => ?_, hnodup⟩
  obtain ⟨base, hbase, hname⟩ := List.mem_map.mp hmem
  exact hnew base hbase (by simp [hname])

/-- A type and its bases are pairwise distinct. -/
theorem nodup_baseChain (e : Entry m) : (e :: c.baseChain e).Nodup :=
  List.Nodup.of_map _ (nodup_names_baseChain e)

/-- A walk takes up the base of every type it reaches unless the name of this base was visited. -/
theorem baseOf_mem_targets {visited : List String} {current e next : Entry m}
    (he : e ∈ current :: targets (c.basesFrom visited current)) (hnext : c.baseOf e = some next) :
    next.name ∈ visited ∨ next.name ∈ (targets (c.basesFrom visited current)).map Entry.name := by
  fun_induction basesFrom c visited current with
  | case1 visited current hbase =>
    obtain rfl : e = current := by simpa using he
    simp [baseOf, hbase] at hnext
  | case2 visited current reference hbase hresolve =>
    obtain rfl : e = current := by simpa using he
    simp [baseOf, hbase, hresolve] at hnext
  | case3 visited current reference hbase known hresolve hvisited =>
    obtain rfl : e = current := by simpa using he
    obtain rfl : known = next := by simpa [baseOf, hbase, hresolve] using hnext
    exact .inl hvisited
  | case4 visited current reference hbase first hresolve hvisited ih =>
    rw [targets_cons_some] at he ⊢
    rcases List.mem_cons.mp he with rfl | he
    · obtain rfl : first = next := by simpa [baseOf, hbase, hresolve] using hnext
      exact .inr (by simp)
    · rcases ih he with hold | hlater
      · rcases List.mem_cons.mp hold with hfirst | hold
        · exact .inr (by simp [hfirst])
        · exact .inl hold
      · exact .inr (List.mem_cons_of_mem _ hlater)

/-- The names of a type and its bases are closed under taking bases. -/
theorem baseOf_name_mem_baseChain {start e next : Entry m} (he : e ∈ start :: c.baseChain start)
    (hnext : c.baseOf e = some next) :
    next.name ∈ (start :: c.baseChain start).map Entry.name := by
  rcases baseOf_mem_targets he hnext with hstart | hchain
  · obtain hstart : next.name = start.name := by simpa using hstart
    simp [hstart]
  · exact List.mem_cons_of_mem _ hchain

/-- Every step of a walk leads from a type that the walk reached along its base reference to what
this reference resolves to. -/
theorem exists_source_of_mem_basesFrom {visited : List String} {current : Entry m}
    {step : BaseStep m} (hstep : step ∈ c.basesFrom visited current) :
    ∃ e ∈ current :: targets (c.basesFrom visited current),
      e.type.base = some step.reference ∧ c.resolve step.reference = step.target := by
  fun_induction basesFrom c visited current with
  | case1 visited current hbase => simp at hstep
  | case2 visited current reference hbase hresolve =>
    obtain rfl : step = ⟨reference, none⟩ := by simpa using hstep
    exact ⟨current, by simp, hbase, hresolve⟩
  | case3 visited current reference hbase next hresolve hvisited => simp at hstep
  | case4 visited current reference hbase next hresolve hvisited ih =>
    rcases List.mem_cons.mp hstep with rfl | hstep
    · exact ⟨current, by simp, hbase, hresolve⟩
    · obtain ⟨e, he, hsource⟩ := ih hstep
      exact ⟨e, List.mem_cons_of_mem _ he, hsource⟩

/-- A base is what some reference resolves to. -/
theorem exists_resolve_of_mem_baseChain {e base : Entry m} (hbase : base ∈ c.baseChain e) :
    ∃ reference, c.resolve reference = some base := by
  obtain ⟨step, hstep, hreached⟩ := List.mem_filterMap.mp hbase
  obtain ⟨-, -, -, hresolve⟩ := exists_source_of_mem_basesFrom hstep
  exact ⟨step.reference, hresolve.trans hreached⟩

/-- A walk ends at a type without a base. -/
theorem basesFrom_eq_nil {visited : List String} {e : Entry m} (hroot : e.type.base = none) :
    c.basesFrom visited e = [] := by
  rw [basesFrom, hroot]

/-- A type without a base has no bases at all. -/
theorem baseChain_eq_nil {e : Entry m} (hroot : e.type.base = none) : c.baseChain e = [] := by
  rw [baseChain, baseSteps, basesFrom_eq_nil hroot]
  rfl

/-- A base without a base of its own is the only one. -/
theorem baseChain_eq_singleton {e base : Entry m} (hbase : c.baseOf e = some base)
    (hname : base.name ≠ e.name) (hroot : base.type.base = none) : c.baseChain e = [base] := by
  obtain ⟨reference, hreference, hresolve⟩ := Option.bind_eq_some_iff.mp hbase
  rw [baseChain, baseSteps, basesFrom]
  simp [hreference, hresolve, hname, basesFrom_eq_nil hroot]

/-- A walk follows the bases: a chain of them leads to every type it reaches. -/
theorem reflTransGen_of_mem_basesFrom {visited : List String} {current e : Entry m}
    (he : e ∈ current :: targets (c.basesFrom visited current)) :
    Relation.ReflTransGen (fun lower upper => c.baseOf lower = some upper) current e := by
  fun_induction basesFrom c visited current with
  | case1 visited current hbase => simp_all [Relation.ReflTransGen.refl]
  | case2 visited current reference hbase hresolve => simp_all [Relation.ReflTransGen.refl]
  | case3 visited current reference hbase next hresolve hvisited =>
    simp_all [Relation.ReflTransGen.refl]
  | case4 visited current reference hbase next hresolve hvisited ih =>
    rcases List.mem_cons.mp he with rfl | he
    · exact .refl
    · have hstep : c.baseOf current = some next := by simp [baseOf, hbase, hresolve]
      exact .head hstep (ih he)

end ModuleInspector.Catalog
