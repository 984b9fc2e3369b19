import ModuleInspector.Proofs.Catalog.Assignability
import ModuleInspector.Proofs.Catalog.BaseWalk
import Mathlib.Data.Finset.Card
import Mathlib.Data.List.Chain

/-!
# Chains of bases

The walk through the bases goes up as long as it can: from a type to its base, unless the name
of this base was visited. The visited names are a set of names of the module, so the walk comes
to an end, and it stops only at a type without a base, at a base that does not resolve, or before
a repeated name. The printed chain is the walk read by its references, and where no name repeats
it is the chain of the base with one more type in front.
-/

namespace ModuleInspector.Catalog

variable {m : Module} {c : Catalog m}

/-- Whether the second type is the base of the first one. -/
def HasBase (c : Catalog m) (lower upper : Entry m) : Prop := c.baseOf lower = some upper

/-- The walk between two steps: the visited names and the type it has reached. -/
structure Climb (m : Module) where
  visited : List String
  current : Entry m

/-- One step of the walk, to a base whose name was not visited. -/
inductive Climb.Step (c : Catalog m) : Climb m → Climb m → Prop
  | up {visited : List String} {lower upper : Entry m} (hbase : c.HasBase lower upper)
      (hnew : upper.name ∉ visited) :
      Step c ⟨visited, lower⟩ ⟨upper.name :: visited, upper⟩

/-- The walk comes to an end from every state: each step leaves fewer names to visit. -/
theorem Climb.wellFounded_step (c : Catalog m) :
    WellFounded fun after before => Climb.Step c before after := by
  refine Subrelation.wf (fun {after before} hstep => ?_)
    (measure fun climb : Climb m => m.unvisited climb.visited).wf
  cases hstep with
  | up hbase hnew => exact Module.unvisited_cons_lt hnew

/-- The type at which a walk ends. -/
def summit (current : Entry m) (steps : List (BaseStep m)) : Entry m :=
  (targets steps).getLastD current

@[simp] theorem summit_nil (current : Entry m) : summit current [] = current := rfl

theorem summit_cons_some (current : Entry m) (reference : TypeRef) (upper : Entry m)
    (steps : List (BaseStep m)) :
    summit current (⟨reference, some upper⟩ :: steps) = summit upper steps := by
  rw [summit, targets_cons_some, List.getLastD_cons, summit]

/-- The base reference of a type when it does not resolve. -/
def unresolvedBase? (c : Catalog m) (e : Entry m) : Option TypeRef :=
  e.type.base.filter fun reference => (c.resolve reference).isNone

theorem unresolvedBase?_eq_some_iff {e : Entry m} {reference : TypeRef} :
    c.unresolvedBase? e = some reference ↔
      e.type.base = some reference ∧ c.resolve reference = none := by
  simp [unresolvedBase?, Option.filter_eq_some_iff]

/-- The steps of a walk lead to its summit, where no further step is possible. -/
theorem exists_climb_basesFrom (c : Catalog m) (visited : List String) (current : Entry m) :
    ∃ names, Relation.ReflTransGen (Climb.Step c) ⟨visited, current⟩
        ⟨names, summit current (c.basesFrom visited current)⟩ ∧
      ∀ next, ¬Climb.Step c ⟨names, summit current (c.basesFrom visited current)⟩ next := by
  fun_induction basesFrom c visited current with
  | case1 visited current hbase =>
    refine ⟨visited, .refl, ?_⟩
    rintro next ⟨hnext, -⟩
    simp [HasBase, baseOf, summit, hbase] at hnext
  | case2 visited current reference hbase hresolve =>
    refine ⟨visited, .refl, ?_⟩
    rintro next ⟨hnext, -⟩
    simp [HasBase, baseOf, summit, hbase, hresolve] at hnext
  | case3 visited current reference hbase known hresolve hvisited =>
    refine ⟨visited, .refl, ?_⟩
    rintro next ⟨hnext, hnew⟩
    obtain rfl : known = _ := by simpa [HasBase, baseOf, summit, hbase, hresolve] using hnext
    exact hnew hvisited
  | case4 visited current reference hbase upper hresolve hvisited ih =>
    obtain ⟨names, hclimb, hend⟩ := ih
    have hstep : Climb.Step c ⟨visited, current⟩ ⟨upper.name :: visited, upper⟩ :=
      .up (by simp [HasBase, baseOf, hbase, hresolve]) hvisited
    rw [summit_cons_some]
    exact ⟨names, .head hstep hclimb, hend⟩

/-- The summit is the type itself or one of its bases. -/
theorem summit_mem (current : Entry m) (steps : List (BaseStep m)) :
    summit current steps ∈ current :: targets steps := by
  rw [summit, List.getLastD_eq_getLast?]
  cases hlast : (targets steps).getLast? with
  | none => simp
  | some last => exact List.mem_cons_of_mem _ (List.mem_of_getLast? hlast)

/-- Every type of a walk but the first is the base of the one before. -/
theorem isChain_targets_basesFrom (c : Catalog m) (visited : List String) (current : Entry m) :
    (current :: targets (c.basesFrom visited current)).IsChain c.HasBase := by
  fun_induction basesFrom c visited current with
  | case1 visited current hbase => simp
  | case2 visited current reference hbase hresolve => simp
  | case3 visited current reference hbase known hresolve hvisited => simp
  | case4 visited current reference hbase upper hresolve hvisited ih =>
    have hup : c.HasBase current upper := by simp [HasBase, baseOf, hbase, hresolve]
    rw [targets_cons_some, List.isChain_cons_cons]
    exact ⟨hup, ih⟩

/-- The references of a walk: those of its types but the last one, each of which resolves to the
next type, and then the one of the last type when it does not resolve. -/
theorem exists_references_basesFrom (c : Catalog m) (visited : List String) (current : Entry m) :
    ∃ references : List TypeRef,
      references.map c.resolve = (targets (c.basesFrom visited current)).map some ∧
      references.map some =
        (current :: targets (c.basesFrom visited current)).dropLast.map (·.type.base) ∧
      (c.basesFrom visited current).map (·.reference) =
        references ++ (c.unresolvedBase? (summit current (c.basesFrom visited current))).toList := by
  fun_induction basesFrom c visited current with
  | case1 visited current hbase =>
    exact ⟨[], rfl, rfl, by simp [unresolvedBase?, hbase]⟩
  | case2 visited current reference hbase hresolve =>
    have hlast := unresolvedBase?_eq_some_iff.mpr ⟨hbase, hresolve⟩
    exact ⟨[], rfl, rfl, by simp [summit, hlast]⟩
  | case3 visited current reference hbase known hresolve hvisited =>
    exact ⟨[], rfl, rfl, by simp [unresolvedBase?, hbase, hresolve]⟩
  | case4 visited current reference hbase upper hresolve hvisited ih =>
    obtain ⟨references, hresolves, hbases, hwritten⟩ := ih
    refine ⟨reference :: references, ?_, ?_, ?_⟩
    · rw [targets_cons_some, List.map_cons, List.map_cons, hresolve, hresolves]
    · rw [targets_cons_some, List.dropLast_cons_cons, List.map_cons, List.map_cons, hbase, hbases]
    · rw [summit_cons_some, List.map_cons, hwritten, List.cons_append]

/-- No qualified name repeats along the bases of a type. -/
def BasesApart (c : Catalog m) (e : Entry m) : Prop :=
  ∀ lower upper, Relation.ReflTransGen c.HasBase e lower →
    Relation.TransGen c.HasBase lower upper → upper.name ≠ lower.name

/-- Along the bases of the base no name repeats either. -/
theorem BasesApart.base {e upper : Entry m} (hapart : c.BasesApart e) (hup : c.HasBase e upper) :
    c.BasesApart upper :=
  fun _ _ hreach hbases => hapart _ _ (.head hup hreach) hbases

/-- Bases that avoid some names also avoid, from the base on, the name of the base. -/
theorem BasesApart.avoids_cons {e upper : Entry m} {names : List String}
    (hapart : c.BasesApart e) (hup : c.HasBase e upper)
    (havoids : ∀ f, Relation.TransGen c.HasBase e f → f.name ∉ names) :
    ∀ f, Relation.TransGen c.HasBase upper f → f.name ∉ upper.name :: names := by
  intro f hbases hmem
  rcases List.mem_cons.mp hmem with hsame | hmem
  · exact hapart upper f (.single hup) hbases hsame
  · exact havoids f (.head hup hbases) hmem

/-- Where no name repeats, it does not matter which other names were visited before: the walk
never meets them. -/
theorem basesFrom_eq_of_basesApart {visited others : List String} {current : Entry m}
    (hapart : c.BasesApart current)
    (hvisited : ∀ upper, Relation.TransGen c.HasBase current upper → upper.name ∉ visited)
    (hothers : ∀ upper, Relation.TransGen c.HasBase current upper → upper.name ∉ others) :
    c.basesFrom visited current = c.basesFrom others current := by
  fun_induction basesFrom c visited current generalizing others with
  | case1 visited current hbase => rw [basesFrom, hbase]
  | case2 visited current reference hbase hresolve => rw [basesFrom, hbase]; simp [hresolve]
  | case3 visited current reference hbase known hresolve hknown =>
    have hup : c.HasBase current known := by simp [HasBase, baseOf, hbase, hresolve]
    exact absurd hknown (hvisited known (.single hup))
  | case4 visited current reference hbase upper hresolve hnew ih =>
    have hup : c.HasBase current upper := by simp [HasBase, baseOf, hbase, hresolve]
    have hlater := ih (hapart.base hup) (hapart.avoids_cons hup hvisited)
      (hapart.avoids_cons hup hothers)
    rw [hlater]
    conv_rhs => rw [basesFrom, hbase]
    simp [hresolve, hothers upper (.single hup)]

/-- Where no name repeats, the steps of a type are the one to its base and those of the base. -/
theorem baseSteps_eq_cons {e upper : Entry m} {reference : TypeRef} (hapart : c.BasesApart e)
    (hbase : e.type.base = some reference) (hresolve : c.resolve reference = some upper) :
    c.baseSteps e = ⟨reference, some upper⟩ :: c.baseSteps upper := by
  have hup : c.HasBase e upper := by simp [HasBase, baseOf, hbase, hresolve]
  have hnew : upper.name ≠ e.name := hapart e upper .refl (.single hup)
  have hrest : c.basesFrom [upper.name, e.name] upper = c.basesFrom [upper.name] upper := by
    refine basesFrom_eq_of_basesApart (hapart.base hup) (hapart.avoids_cons hup ?_)
      (hapart.avoids_cons hup (by simp))
    intro f hbases hmem
    exact hapart e f .refl hbases (List.mem_singleton.mp hmem)
  rw [baseSteps, basesFrom, hbase]
  simp [hresolve, hnew, hrest, baseSteps]

/-- A chain of bases is no longer than the distinct names of the module allow. -/
theorem length_baseChain_lt (c : Catalog m) (e : Entry m) :
    (c.baseChain e).length < (m.entries.map Entry.name).toFinset.card := by
  have hsubset : ((e :: c.baseChain e).map Entry.name).toFinset ⊆
      (m.entries.map Entry.name).toFinset := by
    intro name hname
    rw [List.mem_toFinset] at hname ⊢
    obtain ⟨f, -, rfl⟩ := List.mem_map.mp hname
    exact List.mem_map_of_mem (Module.mem_entries f)
  have hcard := Finset.card_le_card hsubset
  rw [List.toFinset_card_of_nodup (nodup_names_baseChain e), List.length_map,
    List.length_cons] at hcard
  omega

/-- The walk stops at a type without a base, at a base that does not resolve, or before a name
that occurred. -/
theorem summit_maximal (c : Catalog m) (e : Entry m) :
    (summit e (c.baseSteps e)).type.base = none ∨
      (∃ reference, (summit e (c.baseSteps e)).type.base = some reference ∧
        c.resolve reference = none) ∨
      ∃ upper, c.baseOf (summit e (c.baseSteps e)) = some upper ∧
        upper.name ∈ (e :: c.baseChain e).map Entry.name := by
  have hmem := summit_mem e (c.baseSteps e)
  cases hbase : (summit e (c.baseSteps e)).type.base with
  | none => exact .inl rfl
  | some reference =>
    right
    cases hresolve : c.resolve reference with
    | none => exact .inl ⟨reference, rfl, hresolve⟩
    | some upper =>
      have hup : c.baseOf (summit e (c.baseSteps e)) = some upper := by
        simp [baseOf, hbase, hresolve]
      exact .inr ⟨upper, hup, baseOf_name_mem_baseChain hmem hup⟩

/-- The walk through the bases comes to an end from every state, and from the type itself its
steps lead to the last base. The names of the type and its bases are pairwise distinct, each base
is the one of the type before, and the walk is as long as possible. The printed chain is the name
of the type and the texts of the references that resolve to the bases, with the text of the last
reference exactly when it does not resolve. Where no name repeats along the bases, it is the name
of the type in front of its base reference and the rest of the chain of the base. -/
theorem baseChain_inheritanceChain (m : Module) (e : Entry m) :
    let c := Catalog.of m
    let chain := c.baseChain e
    let last := chain.getLastD e
    (WellFounded fun after before => Climb.Step c before after) ∧
    (∃ names, Relation.ReflTransGen (Climb.Step c) ⟨[e.name], e⟩ ⟨names, last⟩ ∧
      ∀ next, ¬Climb.Step c ⟨names, last⟩ next) ∧
    ((e :: chain).map Entry.name).Nodup ∧
    (e :: chain).length ≤ (m.entries.map Entry.name).toFinset.card ∧
    (e :: chain).IsChain (fun lower upper => c.baseOf lower = some upper) ∧
    (last.type.base = none ∨
      (∃ reference, last.type.base = some reference ∧ c.resolve reference = none) ∨
      ∃ upper, c.baseOf last = some upper ∧ upper.name ∈ (e :: chain).map Entry.name) ∧
    (∃ references : List TypeRef,
      references.map c.resolve = chain.map some ∧
      references.map some = (e :: chain).dropLast.map (·.type.base) ∧
      c.inheritanceChain e =
        e.name :: (references ++ (c.unresolvedBase? last).toList).map TypeRef.text) ∧
    ∀ base, c.BasesApart e → c.baseOf e = some base →
      ∃ reference, e.type.base = some reference ∧
        c.inheritanceChain e = e.name :: reference.text :: (c.inheritanceChain base).tail := by
  intro c chain last
  obtain ⟨references, hresolves, hbases, hwritten⟩ := exists_references_basesFrom c [e.name] e
  refine ⟨Climb.wellFounded_step c, exists_climb_basesFrom c [e.name] e, nodup_names_baseChain e,
    length_baseChain_lt c e, isChain_targets_basesFrom c [e.name] e, summit_maximal c e,
    ⟨references, hresolves, hbases, ?_⟩, fun base hapart hbase => ?_⟩
  · have htexts := congrArg (List.map TypeRef.text) hwritten
    rw [List.map_map] at htexts
    exact congrArg (e.name :: ·) htexts
  · obtain ⟨reference, hreference, hresolve⟩ := Option.bind_eq_some_iff.mp hbase
    refine ⟨reference, hreference, ?_⟩
    rw [inheritanceChain, baseSteps_eq_cons hapart hreference hresolve, inheritanceChain,
      List.map_cons, List.tail_cons]

/-- A class with a base whose own base is not recorded, and a second type with the name of the
base. -/
def unrecordedRoot : Module where
  identity := ⟨"Gears", none, none, none, none⟩
  location := ""
  files := []
  types := [linkedType "Worm" (some "Gear") [], linkedType "Gear" (some "System.Object") []]
  referencedTypes := [linkedType "Gear" (some "Worm") []]
  resources := []
  entryPoint := none

/-- The chain of the class goes on behind its base with the rest of the chain of the base. The
second type of that name takes no part in it. -/
theorem inheritanceChain_unrecordedRoot :
    let c := Catalog.of unrecordedRoot
    let worm : Entry unrecordedRoot := .defined ⟨0, by decide⟩
    let gear : Entry unrecordedRoot := .defined ⟨1, by decide⟩
    c.BasesApart worm ∧ c.baseOf worm = some gear ∧
      c.inheritanceChain worm = ["Worm", "Gear", "System.Object"] := by
  intro c worm gear
  have hworm : c.baseOf worm = some gear := by
    change c.resolve (.ofFullName "Gear") = _
    rw [resolve_of]
    decide
  have hroot : c.resolve (.ofFullName "System.Object") = none := by
    rw [resolve_of]
    decide
  have hgear : c.baseOf gear = none := hroot
  have htop : ∀ f, Relation.ReflTransGen c.HasBase gear f → f = gear := by
    intro f hreach
    rcases hreach.cases_head with rfl | ⟨upper, hup, -⟩
    · rfl
    · rw [HasBase, hgear] at hup
      cases hup
  have hbases : ∀ f, Relation.TransGen c.HasBase worm f → f = gear := by
    intro f hreach
    obtain ⟨upper, hup, hreach⟩ := Relation.TransGen.head'_iff.mp hreach
    obtain rfl : gear = upper := by simpa [HasBase, hworm] using hup
    exact htop f hreach
  have hapart : c.BasesApart worm := by
    intro lower upper hreach habove
    obtain rfl := hbases upper (.trans_right hreach habove)
    rcases hreach.cases_head with rfl | ⟨f, hf, hreach⟩
    · decide
    · obtain rfl : gear = f := by simpa [HasBase, hworm] using hf
      obtain rfl := htop lower hreach
      obtain ⟨f, hup, -⟩ := Relation.TransGen.head'_iff.mp habove
      rw [HasBase, hgear] at hup
      cases hup
  have hchain : c.inheritanceChain gear = ["Gear", "System.Object"] := by
    have hsteps : c.baseSteps gear = [⟨.ofFullName "System.Object", none⟩] := by
      have hbase : gear.type.base = some (.ofFullName "System.Object") := rfl
      rw [baseSteps, basesFrom, hbase]
      simp [hroot]
    rw [inheritanceChain, hsteps]
    decide
  obtain ⟨-, -, -, -, -, -, -, hfront⟩ := baseChain_inheritanceChain unrecordedRoot worm
  obtain ⟨reference, hreference, hprinted⟩ := hfront gear hapart hworm
  obtain rfl : .ofFullName "Gear" = reference := Option.some.inj hreference
  refine ⟨hapart, hworm, hprinted.trans ?_⟩
  change "Worm" :: _ :: (c.inheritanceChain gear).tail = _
  rw [hchain]
  decide

end ModuleInspector.Catalog
