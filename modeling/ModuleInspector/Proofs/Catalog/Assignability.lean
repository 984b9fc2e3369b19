import ModuleInspector.Proofs.Catalog.BaseWalk
import ModuleInspector.Proofs.Catalog.InterfaceClosure
import ModuleInspector.Proofs.Catalog.NameIndex

/-!
# Assignability

In a module whose types are told apart by their names, whose hierarchy is written with plain
references and whose interfaces have no bases, a type may stand for another one exactly when
steps to bases and interfaces lead from it to the other. The hierarchy may be cyclic: the walk
through the bases is cut only where it would come back to a type, and the worklist of interfaces
passes over a type only when that type was visited.
-/

namespace ModuleInspector

variable {m : Module}

namespace Catalog

/-- Whether the base or an interface of the first type resolves to the second one. -/
def Supertype (c : Catalog m) (lower upper : Entry m) : Prop :=
  ∃ reference, (lower.type.base = some reference ∨ reference ∈ lower.type.interfaces) ∧
    c.resolve reference = some upper

end Catalog

namespace Module

/-- A hierarchy that its names determine: no two types share a qualified name, bases and
interfaces are plain references with a qualified name, and no type that an interface resolves to
has a base. -/
structure PlainHierarchy (m : Module) : Prop where
  distinct : (m.entries.map Entry.name).Nodup
  plain : ∀ (e : Entry m) (reference : TypeRef),
    e.type.base = some reference ∨ reference ∈ e.type.interfaces →
      ∃ name fullName, reference = .named name (some fullName)
  interfaceBase : ∀ (e f : Entry m), ∀ reference ∈ e.type.interfaces,
    (Catalog.of m).resolve reference = some f → f.type.base = none

namespace PlainHierarchy

/-- A plain hierarchy tells types apart by their names. -/
theorem eq_of_name_eq (hplain : m.PlainHierarchy) {e f : Entry m} (hname : e.name = f.name) :
    e = f :=
  List.inj_on_of_nodup_map hplain.distinct (mem_entries e) (mem_entries f) hname

/-- A name that is among those of some types belongs to one of them. -/
theorem mem_of_name_mem (hplain : m.PlainHierarchy) {e : Entry m} {types : List (Entry m)}
    (hname : e.name ∈ types.map Entry.name) : e ∈ types := by
  obtain ⟨f, hf, hsame⟩ := List.mem_map.mp hname
  rwa [← hplain.eq_of_name_eq hsame]

/-- In a plain hierarchy a base or interface refers to a type exactly when it resolves to it. -/
theorem refersTo_iff (hplain : m.PlainHierarchy) {e target : Entry m} {reference : TypeRef}
    (hreference : e.type.base = some reference ∨ reference ∈ e.type.interfaces) :
    Catalog.refersTo target reference = true ↔
      (Catalog.of m).resolve reference = some target := by
  obtain ⟨name, fullName, rfl⟩ := hplain.plain e reference hreference
  rw [Catalog.refersTo, decide_eq_true_eq]
  constructor
  · intro hname
    exact Catalog.resolve_eq_some_of_nodup hplain.distinct hname
  · intro hresolve
    exact Catalog.definitionName?_of_resolve hresolve

/-- A hierarchy is plain when finite checks over its types and their references pass. -/
theorem of_entries (hdistinct : (m.entries.map Entry.name).Nodup)
    (hplain : ∀ e ∈ m.entries, ∀ reference ∈ e.type.base.toList ++ e.type.interfaces,
      reference.fullName?.isSome)
    (hbase : ∀ e ∈ m.entries, ∀ f ∈ m.entries, ∀ reference ∈ e.type.interfaces,
      reference.definitionName? = some f.name → f.type.base = none) : m.PlainHierarchy where
  distinct := hdistinct
  plain e reference hreference := by
    have hmem : reference ∈ e.type.base.toList ++ e.type.interfaces := by
      simpa [List.mem_append, Option.mem_toList, eq_comm] using hreference
    have hsome := hplain e (mem_entries e) reference hmem
    cases reference with
    | named name fullName =>
      obtain ⟨fullName, rfl⟩ := Option.isSome_iff_exists.mp hsome
      exact ⟨name, fullName, rfl⟩
    | generic | array | byRef => simp [TypeRef.fullName?] at hsome
  interfaceBase e f reference hreference hresolve :=
    hbase e (mem_entries e) f (mem_entries f) reference hreference
      (Catalog.definitionName?_of_resolve hresolve)

end PlainHierarchy

end Module

namespace Catalog

/-- A base step leads to a supertype. -/
theorem supertype_of_baseOf {c : Catalog m} {lower upper : Entry m}
    (hbase : c.baseOf lower = some upper) : c.Supertype lower upper := by
  obtain ⟨reference, hreference, hresolve⟩ := Option.bind_eq_some_iff.mp hbase
  exact ⟨reference, .inl hreference, hresolve⟩

/-- An interface step leads to a supertype. -/
theorem supertype_of_extends {c : Catalog m} {lower upper : Entry m}
    (hextends : c.Extends lower upper) : c.Supertype lower upper := by
  obtain ⟨reference, hreference, hresolve⟩ := hextends
  exact ⟨reference, .inr hreference, hresolve⟩

/-- Steps to supertypes lead from a type to each of its bases. -/
theorem reflTransGen_of_mem_baseChain {c : Catalog m} {e base : Entry m}
    (hbase : base ∈ e :: c.baseChain e) : Relation.ReflTransGen c.Supertype e base :=
  Relation.ReflTransGen.mono (fun _ _ => supertype_of_baseOf) _ _
    (reflTransGen_of_mem_basesFrom hbase)

/-- A type that may stand for another one is led to it by steps to supertypes. -/
theorem reflTransGen_of_isAssignable (hplain : m.PlainHierarchy) {target candidate : Entry m}
    (hassignable : (Catalog.of m).isAssignable target candidate = true) :
    Relation.ReflTransGen (Catalog.of m).Supertype candidate target := by
  simp only [isAssignable, Bool.or_eq_true, decide_eq_true_eq, List.any_eq_true] at hassignable
  rcases hassignable with (rfl | ⟨step, hstep, hrefers⟩) | ⟨reference, hlisted, hrefers⟩
  · exact .refl
  · obtain ⟨e, he, hbase, -⟩ := exists_source_of_mem_basesFrom hstep
    have hresolve := (hplain.refersTo_iff (.inl hbase)).mp hrefers
    exact (reflTransGen_of_mem_baseChain he).tail ⟨step.reference, .inl hbase, hresolve⟩
  · rcases exists_source_of_mem_interfacesFrom hlisted with hnone | ⟨e, he, f, hpath, hf⟩
    · simp at hnone
    · have hresolve := (hplain.refersTo_iff (.inr hf)).mp hrefers
      have hup : Relation.ReflTransGen (Catalog.of m).Supertype e f :=
        Relation.ReflTransGen.mono (fun _ _ => supertype_of_extends) _ _ hpath
      exact ((reflTransGen_of_mem_baseChain he).trans hup).tail ⟨reference, .inr hf, hresolve⟩

/-- The types that the worklist visits from a candidate and its bases include the candidate, list
their interfaces, and are closed under steps to supertypes. A visited type with a base is the
candidate or one of its bases, so the base walk has followed it. -/
theorem exists_closed_interfacesOf (hplain : m.PlainHierarchy) (candidate : Entry m) :
    ∃ final : List (Entry m), candidate ∈ final ∧
      (∀ e ∈ final, e.type.base.isSome → e ∈ candidate :: (Catalog.of m).baseChain candidate) ∧
      (∀ e ∈ final, ∀ f, (Catalog.of m).Supertype e f → f ∈ final) ∧
      ∀ e ∈ final, ∀ reference ∈ e.type.interfaces,
        reference.text ∈ TypeRef.texts ((Catalog.of m).interfacesOf candidate) := by
  have hinitial : Settled (Catalog.of m) [] [] (candidate :: (Catalog.of m).baseChain candidate) :=
    ⟨by simp, by simp⟩
  obtain ⟨final, -, hpending, horigin, hsettled⟩ := exists_settled_interfacesFrom rfl hinitial
  have hstart : ∀ e ∈ candidate :: (Catalog.of m).baseChain candidate, e ∈ final :=
    fun e he => hplain.mem_of_name_mem (hpending e he)
  have hbases : ∀ e ∈ final, e.type.base.isSome →
      e ∈ candidate :: (Catalog.of m).baseChain candidate := by
    intro e he hbase
    rcases horigin e he with hnone | hchain | ⟨f, reference, hreference, hresolve⟩
    · simp at hnone
    · exact hchain
    · simp [hplain.interfaceBase f e reference hreference hresolve] at hbase
  refine ⟨final, hstart candidate (by simp), hbases, ?_, hsettled.listed⟩
  rintro e he f ⟨reference, hbase | hinterface, hresolve⟩
  · have hnext : (Catalog.of m).baseOf e = some f := by simp [baseOf, hbase, hresolve]
    have hchain := hbases e he (by simp [hbase])
    exact hstart f (hplain.mem_of_name_mem (baseOf_name_mem_baseChain hchain hnext))
  · rcases hsettled.followed e he f ⟨reference, hinterface, hresolve⟩ with hname | hnone
    · exact hplain.mem_of_name_mem hname
    · simp at hnone

/-- A base other than the candidate is named by a step of the base walk. -/
theorem isAssignable_of_mem_baseChain (hplain : m.PlainHierarchy) {target candidate : Entry m}
    (htarget : target ∈ candidate :: (Catalog.of m).baseChain candidate) :
    (Catalog.of m).isAssignable target candidate = true := by
  simp only [isAssignable, Bool.or_eq_true, decide_eq_true_eq, List.any_eq_true]
  rcases List.mem_cons.mp htarget with rfl | htarget
  · exact .inl (.inl rfl)
  · obtain ⟨step, hstep, hreached⟩ := List.mem_filterMap.mp htarget
    obtain ⟨e, -, hbase, hresolve⟩ := exists_source_of_mem_basesFrom hstep
    rw [hreached] at hresolve
    exact .inl (.inr ⟨step, hstep, (hplain.refersTo_iff (.inl hbase)).mpr hresolve⟩)

/-- A target that a listed interface text belongs to is named by the listed reference: plain
references with one text have one qualified name. -/
theorem isAssignable_of_text_mem (hplain : m.PlainHierarchy) {target candidate e : Entry m}
    {reference : TypeRef} (hreference : reference ∈ e.type.interfaces)
    (hresolve : (Catalog.of m).resolve reference = some target)
    (htext : reference.text ∈ TypeRef.texts ((Catalog.of m).interfacesOf candidate)) :
    (Catalog.of m).isAssignable target candidate = true := by
  rw [TypeRef.texts_eq_map] at htext
  obtain ⟨listed, hlisted, hsame⟩ := List.mem_map.mp htext
  rcases exists_source_of_mem_interfacesFrom hlisted with hnone | ⟨_, -, f, -, hf⟩
  · simp at hnone
  obtain ⟨name, fullName, rfl⟩ := hplain.plain e reference (.inr hreference)
  obtain ⟨listedName, listedFullName, rfl⟩ := hplain.plain f listed (.inr hf)
  obtain rfl : listedFullName = fullName := hsame
  have hlistedResolve : (Catalog.of m).resolve (.named listedName (some listedFullName)) =
      some target := by
    rw [← hresolve]
    exact resolve_congr rfl
  simp only [isAssignable, Bool.or_eq_true, List.any_eq_true]
  exact .inr ⟨_, hlisted, (hplain.refersTo_iff (.inr hf)).mpr hlistedResolve⟩

/-- A type that steps to supertypes lead to is one that the candidate may stand for. -/
theorem isAssignable_of_reflTransGen (hplain : m.PlainHierarchy) {target candidate : Entry m}
    (hpath : Relation.ReflTransGen (Catalog.of m).Supertype candidate target) :
    (Catalog.of m).isAssignable target candidate = true := by
  obtain ⟨final, hcandidate, hbases, hclosed, hlisted⟩ :=
    exists_closed_interfacesOf hplain candidate
  have hfinal : ∀ {e}, Relation.ReflTransGen (Catalog.of m).Supertype candidate e → e ∈ final := by
    intro e he
    induction he with
    | refl => exact hcandidate
    | tail _ hstep ih => exact hclosed _ ih _ hstep
  cases hpath with
  | refl => simp [isAssignable]
  | @tail e _ hprefix hstep =>
    obtain ⟨reference, hbase | hinterface, hresolve⟩ := hstep
    · have hchain := hbases e (hfinal hprefix) (by simp [hbase])
      have hnext : (Catalog.of m).baseOf e = some target := by simp [baseOf, hbase, hresolve]
      exact isAssignable_of_mem_baseChain hplain
        (hplain.mem_of_name_mem (baseOf_name_mem_baseChain hchain hnext))
    · exact isAssignable_of_text_mem hplain hinterface hresolve
        (hlisted e (hfinal hprefix) reference hinterface)

/-- In a plain hierarchy, a type may stand for another one exactly when steps to bases and
interfaces lead from it to the other, whatever cycles there are. Assignability is therefore
reflexive and transitive. -/
theorem isAssignable_iff_reflTransGen (hplain : m.PlainHierarchy) :
    (∀ target candidate : Entry m, (Catalog.of m).isAssignable target candidate = true ↔
      Relation.ReflTransGen (Catalog.of m).Supertype candidate target) ∧
    (∀ e : Entry m, (Catalog.of m).isAssignable e e = true) ∧
    ∀ e f g : Entry m, (Catalog.of m).isAssignable e f = true →
      (Catalog.of m).isAssignable f g = true → (Catalog.of m).isAssignable e g = true := by
  have hiff : ∀ target candidate : Entry m, (Catalog.of m).isAssignable target candidate = true ↔
      Relation.ReflTransGen (Catalog.of m).Supertype candidate target :=
    fun target candidate =>
      ⟨reflTransGen_of_isAssignable hplain, isAssignable_of_reflTransGen hplain⟩
  refine ⟨hiff, fun e => (hiff e e).mpr .refl, fun e f g hef hfg => ?_⟩
  exact (hiff e g).mpr (((hiff f g).mp hfg).trans ((hiff e f).mp hef))

/-- A type of a hierarchy, with its base and its interfaces given by their qualified names. -/
def linkedType (name : String) (base : Option String) (interfaces : List String) : TypeDef :=
  { TypeDef.ofName "" name 1 with
    base := base.map .ofFullName
    interfaces := interfaces.map .ofFullName }

/-- Two classes that are each other's base, and two interfaces that extend each other. -/
def cyclicHierarchy : Module where
  identity := ⟨"Cyclic", none, none, none, none⟩
  location := ""
  files := []
  types := [linkedType "Left" (some "Right") [], linkedType "Right" (some "Left") ["IShape"]]
  referencedTypes := [linkedType "IShape" none ["ISolid"], linkedType "ISolid" none ["IShape"]]
  resources := []
  entryPoint := none

/-- The cycles of `cyclicHierarchy` keep neither class from standing for both interfaces. -/
theorem cyclicHierarchy_isAssignable :
    cyclicHierarchy.PlainHierarchy ∧
      (Catalog.of cyclicHierarchy).isAssignable (.referenced ⟨1, by decide⟩)
        (.defined ⟨0, by decide⟩) = true := by
  have hplain : cyclicHierarchy.PlainHierarchy :=
    .of_entries (by decide) (by decide) (by decide)
  have hbase : (Catalog.of cyclicHierarchy).Supertype (.defined ⟨0, by decide⟩)
      (.defined ⟨1, by decide⟩) :=
    ⟨.ofFullName "Right", .inl rfl, by rw [resolve_of]; decide⟩
  have hinterface : (Catalog.of cyclicHierarchy).Supertype (.defined ⟨1, by decide⟩)
      (.referenced ⟨0, by decide⟩) :=
    ⟨.ofFullName "IShape", .inr (by simp [Entry.type, cyclicHierarchy, linkedType]),
      by rw [resolve_of]; decide⟩
  have hextended : (Catalog.of cyclicHierarchy).Supertype (.referenced ⟨0, by decide⟩)
      (.referenced ⟨1, by decide⟩) :=
    ⟨.ofFullName "ISolid", .inr (by simp [Entry.type, cyclicHierarchy, linkedType]),
      by rw [resolve_of]; decide⟩
  have hpath := ((Relation.ReflTransGen.single hbase).tail hinterface).tail hextended
  exact ⟨hplain, ((isAssignable_iff_reflTransGen hplain).1 _ _).mpr hpath⟩

end Catalog

end ModuleInspector
