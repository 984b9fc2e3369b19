import ModuleInspector.Proofs.Catalog.Assignability
import ModuleInspector.Proofs.Catalog.ImplementedInterfaces
import ModuleInspector.Proofs.Metadata.ClosedReferences

/-!
# The definitions of the listed interfaces

The interfaces of a type are kept apart by their texts. With every interface that the type
implements one of the same text is listed, and one of the same definition unless interfaces of
different definitions have this text. The text of a generic interface leaves out what its definition
has behind the backtick, so of two interfaces that are nested in one generic type, at the same
arguments, only the first is listed. Where the texts can be read back, no definition is left out.
-/

namespace ModuleInspector

/-- References of the same structure are built from the same definition. -/
theorem TypeRef.Same.definitionName?_eq {left right : TypeRef} (hsame : left.Same right) :
    left.definitionName? = right.definitionName? := by
  cases hsame <;> rfl

namespace Catalog

variable {m : Module} {c : Catalog m}

/-- The types that interfaces lead to from a type and its bases. -/
def Reaches (c : Catalog m) (e f : Entry m) : Prop :=
  ∃ start ∈ e :: c.baseChain e, Relation.ReflTransGen c.Extends start f

/-- Whether the type lists every definition of an interface that a reached type has. -/
def ListsEveryDefinition (c : Catalog m) (e : Entry m) : Prop :=
  ∀ f, c.Reaches e f → ∀ reference ∈ f.type.interfaces, ∀ definition,
    reference.definitionName? = some definition →
      ∃ listed ∈ c.interfacesOf e, listed.definitionName? = some definition

/-- Every contributing type is reached. -/
theorem Contributes.reaches {e f : Entry m} (hcontributes : Contributes c e f) :
    c.Reaches e f := by
  induction hcontributes with
  | chain hchain => exact ⟨_, hchain, .refl⟩
  | interface _ hextends _ ih =>
    obtain ⟨start, hstart, hpath⟩ := ih
    exact ⟨start, hstart, hpath.tail hextends⟩

/-- Every reached type contributes, where none but the type itself carries its name. -/
theorem Reaches.contributes {e f : Entry m} (hreaches : c.Reaches e f)
    (hself : ∀ f, c.Reaches e f → f.name = e.name → f = e) : Contributes c e f := by
  obtain ⟨start, hstart, hpath⟩ := hreaches
  induction hpath with
  | refl => exact .chain hstart
  | @tail lower upper hlower hextends ih =>
    by_cases hname : upper.name = e.name
    · have hupper := hself upper ⟨start, hstart, hlower.tail hextends⟩ hname
      exact hupper ▸ .chain List.mem_cons_self
    · exact .interface ih hextends hname

section Contributes

variable {e f : Entry m} (hcontributes : Contributes (Catalog.of m) e f) {reference : TypeRef}
  (hreference : reference ∈ f.type.interfaces)

include hcontributes hreference

/-- With every interface of a contributing type one of the same text is listed. -/
theorem exists_text_eq_mem_interfacesOf :
    ∃ listed ∈ (Catalog.of m).interfacesOf e, listed.text = reference.text := by
  have htext := text_mem_interfacesOf_of_contributes hcontributes hreference
  rw [TypeRef.texts_eq_map] at htext
  exact List.mem_map.mp htext

/-- With every interface of a contributing type one of the same text is listed, and one of the same
definition where no interface with this text has another definition. -/
theorem exists_definition_mem_interfacesOf {definition : String}
    (hdefinition : reference.definitionName? = some definition) :
    (∃ listed ∈ (Catalog.of m).interfacesOf e, listed.text = reference.text) ∧
    ((∀ g, Contributes (Catalog.of m) e g → ∀ other ∈ g.type.interfaces,
        other.text = reference.text → other.definitionName? = reference.definitionName?) →
      ∃ listed ∈ (Catalog.of m).interfacesOf e,
        listed.text = reference.text ∧ listed.definitionName? = some definition) := by
  obtain ⟨listed, hlisted, htext⟩ := exists_text_eq_mem_interfacesOf hcontributes hreference
  refine ⟨⟨listed, hlisted, htext⟩, fun hunshared => ⟨listed, hlisted, htext, ?_⟩⟩
  obtain ⟨origin, horigin, hdeclared⟩ := exists_contributes_of_mem_interfacesOf hlisted
  exact (hunshared origin horigin listed hdeclared htext).trans hdefinition

/-- Where the texts of the interfaces can be read back, with every interface of a contributing type
one of the same structure is listed. -/
theorem exists_same_mem_interfacesOf {g : TypeRef.Grammar} (hreadable : g.Readable)
    (hbuilt : ∀ f, Contributes (Catalog.of m) e f → ∀ reference ∈ f.type.interfaces,
      g.Builds reference) :
    ∃ listed ∈ (Catalog.of m).interfacesOf e, reference.Same listed := by
  obtain ⟨listed, hlisted, htext⟩ := exists_text_eq_mem_interfacesOf hcontributes hreference
  obtain ⟨origin, horigin, hdeclared⟩ := exists_contributes_of_mem_interfacesOf hlisted
  exact ⟨listed, hlisted, TypeRef.same_of_text_eq hreadable (hbuilt f hcontributes _ hreference)
    (hbuilt origin horigin listed hdeclared) htext.symm⟩

end Contributes

/-- No definition is left out where the texts of the reached interfaces can be read back and no
other reached type carries the name of the type. -/
theorem listsEveryDefinition_of_readable {e : Entry m} {g : TypeRef.Grammar}
    (hself : ∀ f, (Catalog.of m).Reaches e f → f.name = e.name → f = e) (hreadable : g.Readable)
    (hbuilt : ∀ f, (Catalog.of m).Reaches e f → ∀ reference ∈ f.type.interfaces,
      g.Builds reference) :
    (Catalog.of m).ListsEveryDefinition e := by
  intro f hreaches reference hreference definition hdefinition
  obtain ⟨listed, hlisted, hsame⟩ := exists_same_mem_interfacesOf (hreaches.contributes hself)
    hreference hreadable fun f hf => hbuilt f hf.reaches
  exact ⟨listed, hlisted, hsame.definitionName?_eq ▸ hdefinition⟩

/-- A class that implements an interface, which extends others. -/
def shelves (extended : List TypeRef) : Module where
  identity := ⟨"Shelves", none, none, none, none⟩
  location := ""
  files := []
  types := [
    linkedType "Shelf" none ["IRow"],
    { linkedType "IRow" none [] with interfaces := extended }]
  referencedTypes := []
  resources := []
  entryPoint := none

section Shelves

variable (extended : List TypeRef)

/-- The class. -/
def shelf : Entry (shelves extended) := .defined ⟨0, by simp [shelves]⟩

/-- The interface of the class. -/
def row : Entry (shelves extended) := .defined ⟨1, by simp [shelves]⟩

/-- The interface of the class is recorded. -/
theorem resolve_row : (Catalog.of (shelves extended)).resolve (.ofFullName "IRow") =
    some (row extended) := by
  rw [resolve_of]
  rfl

/-- The interface of the class contributes to its interfaces. -/
theorem contributes_shelf_row : Contributes (Catalog.of _) (shelf extended) (row extended) := by
  have hname : "IRow" ≠ "Shelf" := by decide
  exact .interface (.chain List.mem_cons_self) ⟨_, List.mem_cons_self, resolve_row extended⟩ hname

/-- The module has these two types. -/
theorem eq_shelf_or_row (f : Entry (shelves extended)) : f = shelf extended ∨ f = row extended := by
  match f with
  | .defined ⟨0, _⟩ => exact .inl rfl
  | .defined ⟨1, _⟩ => exact .inr rfl

/-- The class lists its interface and, where none of the extended interfaces is recorded, those of
them that have different texts. -/
theorem interfacesOf_shelf
    (hunrecorded : ∀ reference ∈ extended,
      (Catalog.of (shelves extended)).resolve reference = none) :
    (Catalog.of _).interfacesOf (shelf extended) =
      addReferences [.ofFullName "IRow"] extended := by
  have hchain : (Catalog.of _).baseChain (shelf extended) = [] := baseChain_eq_nil rfl
  have hfollowed : (shelf extended).type.interfaces.filterMap (Catalog.of _).resolve =
      [row extended] := by
    change [TypeRef.ofFullName "IRow"].filterMap _ = _
    rw [List.filterMap_cons, resolve_row]
    rfl
  have hended : (row extended).type.interfaces.filterMap (Catalog.of _).resolve = [] :=
    List.filterMap_eq_nil_iff.mpr hunrecorded
  have hnew : (row extended).name ∉ [(shelf extended).name] := by
    change "IRow" ∉ ["Shelf"]
    decide
  rw [interfacesOf_eq, hchain, hfollowed, List.append_nil, interfacesFrom, dif_neg hnew, hended,
    List.append_nil, interfacesFrom]
  rfl

end Shelves

/-- The source of some items, one for each type of items. -/
def sourceOf (definition : String) (arguments : List String) : TypeRef :=
  .generic definition (arguments.map .ofFullName)

/-- Sources of items, and sources of items by their keys. -/
def sources : List TypeRef :=
  [sourceOf "ISource`1" ["System.Int32"], sourceOf "ISource`2" ["System.String", "System.Int32"]]

/-- The two definitions of `sources` have the same stem, and yet both are listed: their texts have
different numbers of arguments. -/
theorem interfacesOf_sources :
    let e := shelf sources
    let reference := sourceOf "ISource`2" ["System.String", "System.Int32"]
    Contributes (Catalog.of _) e (row sources) ∧ reference ∈ (row sources).type.interfaces ∧
    reference.definitionName? = some "ISource`2" ∧
    (∀ g, Contributes (Catalog.of _) e g → ∀ other ∈ g.type.interfaces,
      other.text = reference.text → other.definitionName? = reference.definitionName?) ∧
    ∃ listed ∈ (Catalog.of _).interfacesOf e,
      listed.text = reference.text ∧ listed.definitionName? = some "ISource`2" := by
  intro e reference
  have hreference : reference ∈ (row sources).type.interfaces :=
    List.mem_cons_of_mem _ List.mem_cons_self
  have hunshared : ∀ g, Contributes (Catalog.of _) e g → ∀ other ∈ g.type.interfaces,
      other.text = reference.text → other.definitionName? = reference.definitionName? := by
    intro g _
    rcases eq_shelf_or_row sources g with rfl | rfl
    · change ∀ other ∈ [TypeRef.ofFullName "IRow"], _
      decide
    · change ∀ other ∈ sources, _
      decide
  have hcontributes := contributes_shelf_row sources
  exact ⟨hcontributes, hreference, rfl, hunshared,
    (exists_definition_mem_interfacesOf hcontributes hreference rfl).2 hunshared⟩

/-- Two interfaces that are nested in one generic type, at the same argument. -/
def nestedSources : List TypeRef :=
  [sourceOf "Outer`1+IFirst" ["System.Int32"], sourceOf "Outer`1+ISecond" ["System.Int32"]]

/-- Of the interfaces of `nestedSources` only the first is listed, since both have one text. -/
theorem interfacesOf_nestedSources :
    (Catalog.of _).interfacesOf (shelf nestedSources) =
      [.ofFullName "IRow", sourceOf "Outer`1+IFirst" ["System.Int32"]] := by
  have hunrecorded : ∀ reference ∈ nestedSources,
      (Catalog.of (shelves nestedSources)).resolve reference = none := by
    simp only [resolve_of]
    decide
  rw [interfacesOf_shelf _ hunrecorded]
  rfl

/-- Two interfaces with one name, the second of which leads to the first. -/
def rows : Module where
  identity := ⟨"Rows", none, none, none, none⟩
  location := ""
  files := []
  types := [
    linkedType "IRow" none ["ICell"], linkedType "IRow" none ["IColumn"],
    linkedType "IColumn" none ["IRow"]]
  referencedTypes := []
  resources := []
  entryPoint := none

/-- The first interface with the repeated name. -/
def firstRow : Entry rows := .defined ⟨0, by decide⟩

/-- The second interface with the repeated name. -/
def secondRow : Entry rows := .defined ⟨1, by decide⟩

/-- The interface that leads from the second to the first. -/
def column : Entry rows := .defined ⟨2, by decide⟩

/-- The interface of the second row is recorded. -/
theorem resolve_column : (Catalog.of rows).resolve (.ofFullName "IColumn") = some column := by
  rw [resolve_of]
  decide

/-- The repeated name stands for the first interface that carries it. -/
theorem resolve_firstRow : (Catalog.of rows).resolve (.ofFullName "IRow") = some firstRow := by
  rw [resolve_of]
  decide

/-- The second row leads to the first. -/
theorem reaches_secondRow_firstRow : (Catalog.of rows).Reaches secondRow firstRow :=
  ⟨_, List.mem_cons_self, .tail (.single ⟨_, List.mem_cons_self, resolve_column⟩)
    ⟨_, List.mem_cons_self, resolve_firstRow⟩⟩

/-- The first row does not contribute to the interfaces of the second, whose name it carries. -/
theorem eq_of_contributes_secondRow {f : Entry rows}
    (hcontributes : Contributes (Catalog.of rows) secondRow f) : f = secondRow ∨ f = column := by
  induction hcontributes with
  | chain hchain =>
    rw [baseChain_eq_nil rfl] at hchain
    exact .inl (List.mem_singleton.mp hchain)
  | interface _ hextends hname ih =>
    obtain ⟨reference, hreference, hresolved⟩ := hextends
    rcases ih with rfl | rfl
    · obtain rfl := List.mem_singleton.mp hreference
      exact .inr (Option.some.inj (hresolved.symm.trans resolve_column))
    · obtain rfl := List.mem_singleton.mp hreference
      obtain rfl := Option.some.inj (hresolved.symm.trans resolve_firstRow)
      exact absurd rfl hname

/-- Definitions are left out: that of an interface with the text of another one, and that of an
interface of another type with the name of the type. -/
theorem not_listsEveryDefinition :
    ¬(Catalog.of _).ListsEveryDefinition (shelf nestedSources) ∧
    ¬(Catalog.of _).ListsEveryDefinition secondRow := by
  refine ⟨fun hlists => ?_, fun hlists => ?_⟩
  · have hsecond : sourceOf "Outer`1+ISecond" ["System.Int32"] ∈
        (row nestedSources).type.interfaces := List.mem_cons_of_mem _ List.mem_cons_self
    obtain ⟨listed, hlisted, hdefinition⟩ :=
      hlists _ (contributes_shelf_row nestedSources).reaches _ hsecond "Outer`1+ISecond" rfl
    rw [interfacesOf_nestedSources] at hlisted
    revert listed
    decide
  · obtain ⟨listed, hlisted, hdefinition⟩ :=
      hlists _ reaches_secondRow_firstRow _ List.mem_cons_self "ICell" rfl
    obtain ⟨origin, horigin, hdeclared⟩ := exists_contributes_of_mem_interfacesOf hlisted
    rcases eq_of_contributes_secondRow horigin with rfl | rfl
    all_goals
      obtain rfl := List.mem_singleton.mp hdeclared
      revert hdefinition
      decide

end Catalog

end ModuleInspector
