import ModuleInspector.Proofs.Catalog.BaseWalk
import ModuleInspector.Proofs.Catalog.InterfaceClosure
import ModuleInspector.Proofs.Catalog.NameIndex

/-!
# The interfaces of a type

The interfaces of a type are listed by their texts, none of them twice, and they are the
interfaces that the type, its bases and the types reached through interfaces declare. Neither
cycles nor repeated names keep the worklist from its end: a turn visits a new name or makes the
worklist shorter. Among the reached types only the type itself may share its name with another
one, since any other type is found by its name and is the first that carries it.
-/

namespace ModuleInspector.Catalog

variable {m : Module} {c : Catalog m}

/-- The worklist between two turns: the visited names, the listed references and the pending
types. -/
structure Worklist (m : Module) where
  visited : List String
  listed : List TypeRef
  pending : List (Entry m)

/-- One turn of the worklist. The first pending type is passed over when its name was visited;
otherwise it is visited, which lists its interfaces and puts their types in front. -/
inductive Turn (c : Catalog m) : Worklist m → Worklist m → Prop
  | passOver {visited : List String} {listed : List TypeRef} {current : Entry m}
      {pending : List (Entry m)} (hvisited : current.name ∈ visited) :
      Turn c ⟨visited, listed, current :: pending⟩ ⟨visited, listed, pending⟩
  | visit {visited : List String} {listed : List TypeRef} {current : Entry m}
      {pending : List (Entry m)} (hnew : current.name ∉ visited) :
      Turn c ⟨visited, listed, current :: pending⟩
        ⟨current.name :: visited, addReferences listed current.type.interfaces,
          current.type.interfaces.filterMap c.resolve ++ pending⟩

/-- A turn leaves fewer names to visit, or as many and fewer pending types. -/
theorem Turn.decreases {before after : Worklist m} (hturn : Turn c before after) :
    Prod.Lex (· < ·) (· < ·) (m.unvisited after.visited, after.pending.length)
      (m.unvisited before.visited, before.pending.length) := by
  cases hturn with
  | passOver hvisited => exact Prod.Lex.right _ (Nat.lt_succ_self _)
  | visit hnew => exact Prod.Lex.left _ _ (Module.unvisited_cons_lt hnew)

/-- The worklist comes to an end from every state: no turns follow each other forever. -/
theorem wellFounded_turn (c : Catalog m) : WellFounded fun after before => Turn c before after :=
  Subrelation.wf Turn.decreases
    (InvImage.wf (fun w : Worklist m => (m.unvisited w.visited, w.pending.length))
      (Prod.lex Nat.lt_wfRel Nat.lt_wfRel).wf)

/-- The turns of a worklist lead to the result of the run, where nothing is pending. -/
theorem exists_reflTransGen_turn (c : Catalog m) (visited : List String) (listed : List TypeRef)
    (pending : List (Entry m)) :
    ∃ names, Relation.ReflTransGen (Turn c) ⟨visited, listed, pending⟩
      ⟨names, c.interfacesFrom visited listed pending, []⟩ := by
  fun_induction interfacesFrom c visited listed pending with
  | case1 visited listed => exact ⟨visited, .refl⟩
  | case2 visited listed current pending hvisited ih =>
    obtain ⟨names, hturns⟩ := ih
    exact ⟨names, .head (.passOver hvisited) hturns⟩
  | case3 visited listed current pending hnew ih =>
    obtain ⟨names, hturns⟩ := ih
    exact ⟨names, .head (.visit hnew) hturns⟩

/-- Adding references lists no text twice. -/
theorem nodup_texts_addReferences {found references : List TypeRef}
    (hfound : (TypeRef.texts found).Nodup) :
    (TypeRef.texts (addReferences found references)).Nodup := by
  fun_induction addReferences found references with
  | case1 found => exact hfound
  | case2 found reference references hknown ih => exact ih hfound
  | case3 found reference references hnew ih =>
    have hnew : reference.text ∉ TypeRef.texts found :=
      fun hmem => hnew (List.contains_iff_mem.mpr hmem)
    apply ih
    rw [TypeRef.texts_eq_map] at hfound hnew ⊢
    rw [List.map_append, List.map_singleton]
    exact hfound.append (List.nodup_singleton _) (List.disjoint_singleton.mpr hnew)

/-- A run of the worklist lists no text twice. -/
theorem nodup_texts_interfacesFrom {visited : List String} {found : List TypeRef}
    {pending : List (Entry m)} (hfound : (TypeRef.texts found).Nodup) :
    (TypeRef.texts (c.interfacesFrom visited found pending)).Nodup := by
  fun_induction interfacesFrom c visited found pending with
  | case1 visited found => exact hfound
  | case2 visited found current pending hvisited ih => exact ih hfound
  | case3 visited found current pending hnew ih => exact ih (nodup_texts_addReferences hfound)

/-- The types whose interfaces count as those of a type: the type and its bases, and what an
interface of such a type resolves to, unless it carries the name of the type. -/
inductive Contributes (c : Catalog m) (e : Entry m) : Entry m → Prop
  | chain {lower : Entry m} (hchain : lower ∈ e :: c.baseChain e) : Contributes c e lower
  | interface {lower upper : Entry m} (hlower : Contributes c e lower)
      (hextends : c.Extends lower upper) (hname : upper.name ≠ e.name) : Contributes c e upper

/-- Every listed interface was listed before or is one of a contributing type. A pending type
contributes unless its name was visited, and the name of the type itself was. -/
theorem exists_contributes_of_mem_interfacesFrom {e : Entry m} {visited : List String}
    {found : List TypeRef} {pending : List (Entry m)} {reference : TypeRef}
    (hname : e.name ∈ visited)
    (hpending : ∀ f ∈ pending, f.name ∈ visited ∨ Contributes c e f)
    (hmem : reference ∈ c.interfacesFrom visited found pending) :
    reference ∈ found ∨ ∃ f, Contributes c e f ∧ reference ∈ f.type.interfaces := by
  fun_induction interfacesFrom c visited found pending with
  | case1 visited found => exact .inl hmem
  | case2 visited found current pending hvisited ih =>
    exact ih hname (fun f hf => hpending f (List.mem_cons_of_mem _ hf)) hmem
  | case3 visited found current pending hnew ih =>
    have hcurrent : Contributes c e current :=
      (hpending current List.mem_cons_self).resolve_left hnew
    have hlater : ∀ f ∈ current.type.interfaces.filterMap c.resolve ++ pending,
        f.name ∈ current.name :: visited ∨ Contributes c e f := by
      intro f hf
      rcases List.mem_append.mp hf with hinterface | hf
      · by_cases hsame : f.name = e.name
        · exact .inl (List.mem_cons_of_mem _ (hsame ▸ hname))
        · exact .inr (.interface hcurrent (List.mem_filterMap.mp hinterface) hsame)
      · exact (hpending f (List.mem_cons_of_mem _ hf)).imp_left (List.mem_cons_of_mem _)
    rcases ih (List.mem_cons_of_mem _ hname) hlater hmem with hfound | hsource
    · rcases mem_of_mem_addReferences hfound with hfound | hown
      · exact .inl hfound
      · exact .inr ⟨current, hcurrent, hown⟩
    · exact .inr hsource

/-- The first turn of the worklist visits the type itself. -/
theorem interfacesOf_eq (c : Catalog m) (e : Entry m) :
    c.interfacesOf e =
      c.interfacesFrom [e.name] (addReferences [] e.type.interfaces)
        (e.type.interfaces.filterMap c.resolve ++ c.baseChain e) := by
  rw [interfacesOf, interfacesFrom, dif_neg List.not_mem_nil]

/-- Every interface of a type is one that a contributing type declares. -/
theorem exists_contributes_of_mem_interfacesOf {e : Entry m} {reference : TypeRef}
    (hmem : reference ∈ c.interfacesOf e) :
    ∃ f, Contributes c e f ∧ reference ∈ f.type.interfaces := by
  rw [interfacesOf_eq] at hmem
  have hself : Contributes c e e := .chain List.mem_cons_self
  have hpending : ∀ f ∈ e.type.interfaces.filterMap c.resolve ++ c.baseChain e,
      f.name ∈ [e.name] ∨ Contributes c e f := by
    intro f hf
    rcases List.mem_append.mp hf with hinterface | hchain
    · by_cases hsame : f.name = e.name
      · exact .inl (List.mem_singleton.mpr hsame)
      · exact .inr (.interface hself (List.mem_filterMap.mp hinterface) hsame)
    · exact .inr (.chain (List.mem_cons_of_mem _ hchain))
  rcases exists_contributes_of_mem_interfacesFrom List.mem_cons_self hpending hmem with
    hfound | hsource
  · rcases mem_of_mem_addReferences hfound with hnone | hown
    · exact absurd hnone List.not_mem_nil
    · exact ⟨e, hself, hown⟩
  · exact hsource

/-- The run settles the type itself and, up to their names, its bases. Any type of another name
that it settles is what some reference resolves to. -/
theorem exists_settled_interfacesOf (c : Catalog m) (e : Entry m) :
    ∃ final, e ∈ final ∧ (∀ base ∈ c.baseChain e, base.name ∈ final.map Entry.name) ∧
      (∀ f ∈ final, f.name ≠ e.name → ∃ reference, c.resolve reference = some f) ∧
      Settled c final (c.interfacesOf e) [] := by
  have hinitial : Settled c [] [] (e :: c.baseChain e) := ⟨by simp, by simp⟩
  obtain ⟨final, hself, hpending, horigin, hsettled⟩ :=
    exists_settled_interfacesFrom rfl hinitial.visit
  rw [List.map_cons, List.map_nil, ← interfacesOf_eq] at hsettled
  refine ⟨final, hself List.mem_cons_self,
    fun base hbase => hpending base (List.mem_append_right _ hbase), fun f hf hname => ?_, hsettled⟩
  rcases horigin f hf with hstart | hlater | ⟨_, reference, _, hresolve⟩
  · exact absurd (congrArg Entry.name (List.mem_singleton.mp hstart)) hname
  · rcases List.mem_append.mp hlater with hinterface | hchain
    · obtain ⟨reference, _, hresolve⟩ := List.mem_filterMap.mp hinterface
      exact ⟨reference, hresolve⟩
    · exact exists_resolve_of_mem_baseChain hchain
  · exact ⟨reference, hresolve⟩

/-- The run lists every interface of every contributing type. By induction such a type is
settled: the run settles a type with its name, and when this is not the name of the type itself,
both are the first type with it. -/
theorem text_mem_interfacesOf_of_contributes {e f : Entry m} {reference : TypeRef}
    (hcontributes : Contributes (Catalog.of m) e f) (hreference : reference ∈ f.type.interfaces) :
    reference.text ∈ TypeRef.texts ((Catalog.of m).interfacesOf e) := by
  obtain ⟨final, hself, hbases, hfound, hsettled⟩ := exists_settled_interfacesOf (Catalog.of m) e
  have hfirst : ∀ {r : TypeRef} {g : Entry m}, (Catalog.of m).resolve r = some g →
      g.name ≠ e.name → g.name ∈ final.map Entry.name → g ∈ final := by
    intro r g hresolve hname hmem
    obtain ⟨other, hother, hsame⟩ := List.mem_map.mp hmem
    obtain ⟨s, hs⟩ := hfound other hother (hsame ▸ hname)
    rwa [eq_of_resolve_of_name_eq hresolve hs hsame.symm]
  suffices hfinal : f ∈ final from hsettled.listed f hfinal reference hreference
  clear hreference
  induction hcontributes with
  | chain hchain =>
    rcases List.mem_cons.mp hchain with rfl | hchain
    · exact hself
    · obtain ⟨r, hresolve⟩ := exists_resolve_of_mem_baseChain hchain
      have hnew := (List.nodup_cons.mp (nodup_names_baseChain (c := Catalog.of m) e)).1
      refine hfirst hresolve (fun hsame => hnew ?_) (hbases _ hchain)
      exact List.mem_map.mpr ⟨_, hchain, hsame⟩
  | interface _ hextends hname ih =>
    rcases hsettled.followed _ ih _ hextends with hmem | hnone
    · obtain ⟨r, _, hresolve⟩ := hextends
      exact hfirst hresolve hname hmem
    · exact absurd hnone List.not_mem_nil

/-- The worklist for the interfaces of a type comes to an end, whatever cycles and repeated names
there are. The texts of the interfaces are pairwise distinct, and they are exactly the texts of
the interfaces that the contributing types declare. -/
theorem texts_interfacesOf (e : Entry m) :
    (WellFounded fun after before => Turn (Catalog.of m) before after) ∧
    (∃ names, Relation.ReflTransGen (Turn (Catalog.of m))
      ⟨[], [], e :: (Catalog.of m).baseChain e⟩ ⟨names, (Catalog.of m).interfacesOf e, []⟩) ∧
    (TypeRef.texts ((Catalog.of m).interfacesOf e)).Nodup ∧
    ∀ text, text ∈ TypeRef.texts ((Catalog.of m).interfacesOf e) ↔
      ∃ f, Contributes (Catalog.of m) e f ∧ ∃ reference ∈ f.type.interfaces,
        reference.text = text := by
  refine ⟨wellFounded_turn _, exists_reflTransGen_turn _ _ _ _,
    nodup_texts_interfacesFrom List.nodup_nil, fun text => ⟨fun htext => ?_, ?_⟩⟩
  · rw [TypeRef.texts_eq_map] at htext
    obtain ⟨reference, hmem, rfl⟩ := List.mem_map.mp htext
    obtain ⟨f, hf, hreference⟩ := exists_contributes_of_mem_interfacesOf hmem
    exact ⟨f, hf, reference, hreference, rfl⟩
  · rintro ⟨f, hf, reference, hreference, rfl⟩
    exact text_mem_interfacesOf_of_contributes hf hreference

end ModuleInspector.Catalog
