import ModuleInspector.Proofs.Catalog.Renumbering
import ModuleInspector.Proofs.Text.Sorting
import ModuleInspector.Session.Execution

/-!
# Independence of the order of types

The commands that list types sort them by name, and the others are about one type or about the
module itself. Where names are distinct and no command is given an ambiguous identifier, what
they print does not depend on the order in which a module records its types. The two commands
that go through all types in native order are left out.
-/

namespace ModuleInspector

/-- The texts that a command takes as identifiers of types. -/
def Query.typeIdentifiers (m : Module) (o : Options) : Command → List String
  | .types => (o.filled? "base").toList
  | .type | .dumpJson => (identifier? o ["type", "name"]).toList
  | .members | .method => (typeIdentifier o).1.toList
  | .inheritance => (identifier? o ["type"]).toList
  | .implementers =>
    ((identifier? o ["type", "interface"]).filter fun text => !Text.isBlank text).toList
  | .attributes =>
    if o.has "member" then (typeIdentifier o).1.toList else (identifier? o ["type"]).toList
  | .entryPoint => (m.entryPoint.map EntryPoint.declaringType).toList
  | .summary | .search | .resources => []

namespace Renumbering

open Query

variable {m m' : Module} (r : Renumbering m m')

/-- Types that are the same up to order have the same namespaces. -/
theorem namespaces_eq {entries : List (Entry m)} {entries' : List (Entry m')}
    (hperm : (entries.map r).Perm entries') : namespaces entries' = namespaces entries := by
  have hnames := hperm.filterMap fun e => e.type.nameSpace?
  simp only [List.filterMap_map, Function.comp_def, r.type_eq] at hnames
  exact (Text.sortOrdinal_eraseDups_eq fun name => hnames.mem_iff).symm

include r

/-- The summary is the same. -/
theorem summary_eq (hreordered : m.Reordered m') : summary m' = summary m := by
  have hlisted := r.listed_perm true true
  have hpublic : (m'.listed true true).countP (fun e => e.type.isPublic) =
      (m.listed true true).countP fun e => e.type.isPublic := by
    rw [← hlisted.countP_eq, List.countP_map]
    simp [Function.comp_def, r.type_eq]
  rw [summary, summary, r.namespaces_eq hlisted, hpublic, ← hlisted.length_eq, List.length_map,
    Module.fileNames, Module.fileNames, hreordered.identity, hreordered.location,
    hreordered.files]

section Members

variable (hdistinct : m.DistinctNames)
include hdistinct

/-- The listed members of a type are the same, in the same order. -/
theorem listedMembers_eq (o : Options) (e : Entry m) (kind : MemberKind) :
    listedMembers (Catalog.of m') o (r e) kind =
      (listedMembers (Catalog.of m) o e kind).map r.memberEntry := by
  rw [listedMembers, listedMembers, r.members_eq hdistinct]
  split
  · exact (Text.map_sortOrdinal r.memberEntry (r.signature_memberEntry _) _).symm
  · exact (Text.map_sortOrdinal r.memberEntry (fun _ => rfl) _).symm

/-- The methods with a name are the same, in the same order. -/
theorem matchingMethods_eq (o : Options) (e : Entry m) (name : String) :
    matchingMethods (Catalog.of m') o (r e) name =
      (matchingMethods (Catalog.of m) o e name).map r.memberEntry := by
  rw [matchingMethods, matchingMethods, r.members_eq hdistinct, List.filter_map]
  rfl

/-- The member with a name is the same. -/
theorem findMember?_eq (o : Options) (e : Entry m) (name : String) :
    findMember? (Catalog.of m') o (r e) name =
      (findMember? (Catalog.of m) o e name).map r.memberEntry := by
  rw [findMember?, findMember?, List.map_findSome?]
  congr 1
  funext kind
  rw [r.members_eq hdistinct, List.find?_map]
  rfl

omit hdistinct in
/-- The details of a method entry are the same. -/
theorem methodDetails_memberEntry (entry : MemberEntry m) :
    methodDetails (r.memberEntry entry) = methodDetails entry := by
  rw [methodDetails, memberEntry, r.type_eq, methodDetails]

end Members

section Types

variable (hdistinct : m.DistinctNames) (hreordered : m.Reordered m')
include hdistinct hreordered

/-- Defined types that are the same up to order are listed in the same order. -/
theorem sortFolded_eq {entries : List (Entry m)} {entries' : List (Entry m')}
    (hperm : (entries.map r).Perm entries') (hdefined : ∀ e ∈ entries', e ∈ m'.definedEntries) :
    Text.sortFolded Entry.name entries' = (Text.sortFolded Entry.name entries).map r := by
  rw [Text.map_sortFolded r r.name_eq]
  refine Text.sortFolded_eq_of_perm hperm.symm fun e he f hf hnames => ?_
  exact (hdistinct.of_reordered hreordered).eq_of_eqFolded (hdefined e he) (hdefined f hf) hnames

/-- The base filter lets the same types through. -/
theorem passesBase_eq {o : Options}
    (hbase : ∀ base ∈ o.filled? "base", m.QualifiedOrUnknown base) (e : Entry m) :
    passesBase (Catalog.of m') o (r e) = passesBase (Catalog.of m) o e := by
  rw [passesBase, passesBase]
  cases hfilled : o.filled? "base" with
  | none => rfl
  | some base =>
    simp only [r.findType?_eq hdistinct hreordered (hbase base hfilled)]
    cases (Catalog.of m).findType? base with
    | none => simp [r.type_eq]
    | some target => simp [r.isAssignable_eq hdistinct, r.injective.eq_iff]

/-- The listed types are the same, in the same order. -/
theorem listedTypes_eq {o : Options}
    (hbase : ∀ base ∈ o.filled? "base", m.QualifiedOrUnknown base) :
    listedTypes (Catalog.of m') o = (listedTypes (Catalog.of m) o).map r := by
  refine r.sortFolded_eq hdistinct hreordered (r.filter_perm (r.listed_perm _ _) fun e => ?_)
    fun e he => List.mem_of_mem_filter (List.mem_of_mem_filter he)
  simp only [passesNamespace, passesFilter, r.passesBase_eq hdistinct hreordered hbase,
    r.type_eq, r.name_eq]

/-- The details of a type are the same. -/
theorem typeDetails_eq (e : Entry m) :
    typeDetails (Catalog.of m') (r e) = typeDetails (Catalog.of m) e := by
  have hnested := r.sortFolded_eq hdistinct hreordered (r.nestedTypes_perm e)
    fun inner hinner => List.mem_of_mem_filter hinner
  rw [typeDetails, typeDetails, hnested, List.map_map]
  simp only [Function.comp_def, r.type_eq, r.name_eq, r.interfacesOf_eq hdistinct,
    Module.qualifiedName, hreordered.identity]

/-- The types that may stand for a type are the same. -/
theorem implementersOf_eq (includeNonPublic : Bool) (target : Entry m) :
    implementersOf (Catalog.of m') includeNonPublic (r target) =
      (implementersOf (Catalog.of m) includeNonPublic target).map r := by
  refine r.sortFolded_eq hdistinct hreordered (r.filter_perm (r.listed_perm _ _) fun e => ?_)
    fun e he => List.mem_of_mem_filter (List.mem_of_mem_filter he)
  simp [r.isAssignable_eq hdistinct, r.injective.eq_iff]

end Types

section Commands

variable (hdistinct : m.DistinctNames) (hreordered : m.Reordered m') {o : Options}
include hdistinct hreordered

/-- The type that the options name is the same. -/
theorem resolveType_eq {keys : List String}
    (hidentifier : ∀ identifier ∈ (identifier? o keys).toList, m.QualifiedOrUnknown identifier) :
    resolveType (Catalog.of m') o keys = (resolveType (Catalog.of m) o keys).map r := by
  rw [resolveType, resolveType]
  cases hfound : identifier? o keys with
  | none => rfl
  | some identifier =>
    rw [Option.bind_some, Option.bind_some,
      r.findType?_eq hdistinct hreordered (hidentifier identifier (by simp [hfound]))]
    cases (Catalog.of m).findType? identifier <;> rfl

/-- The type that the options name is the same, and so are the remaining tokens. -/
theorem typeWithRemainder_eq
    (hidentifier : ∀ identifier ∈ (typeIdentifier o).1.toList, m.QualifiedOrUnknown identifier) :
    typeWithRemainder (Catalog.of m') o =
      ((typeWithRemainder (Catalog.of m) o).1.map r, (typeWithRemainder (Catalog.of m) o).2) := by
  rw [typeWithRemainder, typeWithRemainder]
  cases hfound : (typeIdentifier o).1 with
  | none => rfl
  | some identifier =>
    simp only [Option.bind_some,
      r.findType?_eq hdistinct hreordered (hidentifier identifier (by simp [hfound]))]

/-- The filtered listing is the same. -/
theorem run_types_eq
    (hidentifier : ∀ base ∈ typeIdentifiers m o .types, m.QualifiedOrUnknown base) :
    run (Catalog.of m') .types o = run (Catalog.of m) .types o := by
  have hbase : ∀ base ∈ o.filled? "base", m.QualifiedOrUnknown base :=
    fun base hfilled => hidentifier base (Option.mem_toList.mpr hfilled)
  rw [run, run, types, r.listedTypes_eq hdistinct hreordered hbase, List.map_map, types]
  simp only [Function.comp_def, r.type_eq]

/-- The details of a type are the same. -/
theorem run_type_eq
    (hidentifier : ∀ identifier ∈ typeIdentifiers m o .type, m.QualifiedOrUnknown identifier) :
    run (Catalog.of m') .type o = run (Catalog.of m) .type o := by
  rw [run, run, type, type, r.resolveType_eq hdistinct hreordered hidentifier]
  cases resolveType (Catalog.of m) o ["type", "name"] with
  | error e => rfl
  | ok e => exact congrArg Except.ok (r.typeDetails_eq hdistinct hreordered e)

/-- The member listing is the same. -/
theorem run_members_eq
    (hidentifier : ∀ identifier ∈ typeIdentifiers m o .members, m.QualifiedOrUnknown identifier) :
    run (Catalog.of m') .members o = run (Catalog.of m) .members o := by
  rw [run, run, members, members, r.typeWithRemainder_eq hdistinct hreordered hidentifier]
  rcases typeWithRemainder (Catalog.of m) o with ⟨_ | e, remainder⟩
  · rfl
  · simp [r.listedMembers_eq hdistinct, Function.comp_def]

/-- The details of methods are the same. -/
theorem run_method_eq
    (hidentifier : ∀ identifier ∈ typeIdentifiers m o .method, m.QualifiedOrUnknown identifier) :
    run (Catalog.of m') .method o = run (Catalog.of m) .method o := by
  rw [run, run, method, method, r.typeWithRemainder_eq hdistinct hreordered hidentifier]
  rcases typeWithRemainder (Catalog.of m) o with ⟨_ | e, remainder⟩
  · rfl
  · simp only [Option.map_some]
    cases methodName? o remainder with
    | none => rfl
    | some name =>
      simp only [r.matchingMethods_eq hdistinct]
      cases matchingMethods (Catalog.of m) o e name with
      | nil => rfl
      | cons first rest => simp [List.flatMap_map, r.methodDetails_memberEntry]

/-- The bases of a type are the same. -/
theorem run_inheritance_eq
    (hidentifier : ∀ identifier ∈ typeIdentifiers m o .inheritance,
      m.QualifiedOrUnknown identifier) :
    run (Catalog.of m') .inheritance o = run (Catalog.of m) .inheritance o := by
  rw [run, run, inheritance, inheritance, r.resolveType_eq hdistinct hreordered hidentifier]
  cases resolveType (Catalog.of m) o ["type"] with
  | error e => rfl
  | ok e => exact congrArg Except.ok (r.inheritanceChain_eq hdistinct e)

/-- The types that may stand for a type are the same. -/
theorem run_implementers_eq
    (hidentifier : ∀ identifier ∈ typeIdentifiers m o .implementers,
      m.QualifiedOrUnknown identifier) :
    run (Catalog.of m') .implementers o = run (Catalog.of m) .implementers o := by
  rw [typeIdentifiers] at hidentifier
  rw [run, run, implementers, implementers]
  cases hfound : (identifier? o ["type", "interface"]).filter fun text => !Text.isBlank text with
  | none => rfl
  | some identifier =>
    simp only [r.findType?_eq hdistinct hreordered (hidentifier identifier (by simp [hfound]))]
    cases (Catalog.of m).findType? identifier with
    | none => rfl
    | some target => simp [r.implementersOf_eq hdistinct hreordered, Function.comp_def, r.type_eq]

/-- The attributes of a type or of one of its members are the same. -/
theorem run_attributes_eq
    (hidentifier : ∀ identifier ∈ typeIdentifiers m o .attributes,
      m.QualifiedOrUnknown identifier) :
    run (Catalog.of m') .attributes o = run (Catalog.of m) .attributes o := by
  rw [typeIdentifiers] at hidentifier
  rw [run, run, attributes, attributes]
  split at hidentifier
  · next hmember =>
    rw [if_pos hmember, if_pos hmember, memberAttributes, memberAttributes,
      r.typeWithRemainder_eq hdistinct hreordered hidentifier]
    rcases typeWithRemainder (Catalog.of m) o with ⟨_ | e, remainder⟩
    · rfl
    · simp only [Option.map_some]
      cases (o.filled? "member").or remainder.head? with
      | none => rfl
      | some name =>
        simp only [r.findMember?_eq hdistinct]
        cases findMember? (Catalog.of m) o e name <;> rfl
  · next hmember =>
    rw [if_neg hmember, if_neg hmember, r.resolveType_eq hdistinct hreordered hidentifier]
    cases resolveType (Catalog.of m) o ["type"] with
    | error e => rfl
    | ok e => simp [Except.map, r.type_eq]

/-- The entry point is the same. -/
theorem run_entryPoint_eq
    (hidentifier : ∀ identifier ∈ typeIdentifiers m o .entryPoint,
      m.QualifiedOrUnknown identifier) :
    run (Catalog.of m') .entryPoint o = run (Catalog.of m) .entryPoint o := by
  rw [typeIdentifiers] at hidentifier
  rw [run, run, entryPoint, entryPoint, hreordered.entryPoint]
  cases hstart : m.entryPoint with
  | none => rfl
  | some start =>
    simp only [entryPointSignature?,
      r.findType?_eq hdistinct hreordered (hidentifier start.declaringType (by simp [hstart]))]
    cases (Catalog.of m).findType? start.declaringType with
    | none => rfl
    | some e => simp [r.type_eq]

end Commands

end Renumbering

/-- The commands whose output does not follow the order in which a module records its types. -/
def Query.orderedCommands : List Command :=
  [.summary, .types, .type, .members, .method, .inheritance, .implementers, .attributes,
    .resources, .entryPoint]

/-- A module with distinct names and one with the same types in any order have the same
executions of these commands, status, output and messages, whatever options come with them, as
long as every identifier of a type is a qualified name or names no defined type at all. -/
theorem execute_reordered {m m' : Module} (hdistinct : m.DistinctNames)
    (hreordered : m.Reordered m') {text : String} {command : Command}
    (hname : Command.ofName? text = some command) (hcommand : command ∈ Query.orderedCommands)
    {o : Options}
    (hidentifier : ∀ identifier ∈ Query.typeIdentifiers m o command,
      m.QualifiedOrUnknown identifier) (out err : Sink) :
    execute m' text o out err = execute m text o out err := by
  obtain ⟨r⟩ := hreordered.exists_renumbering hdistinct
  have hrun : Query.run (Catalog.of m') command o = Query.run (Catalog.of m) command o := by
    cases command with
    | summary => exact congrArg Except.ok (r.summary_eq hreordered)
    | types => exact r.run_types_eq hdistinct hreordered hidentifier
    | type => exact r.run_type_eq hdistinct hreordered hidentifier
    | members => exact r.run_members_eq hdistinct hreordered hidentifier
    | method => exact r.run_method_eq hdistinct hreordered hidentifier
    | inheritance => exact r.run_inheritance_eq hdistinct hreordered hidentifier
    | implementers => exact r.run_implementers_eq hdistinct hreordered hidentifier
    | attributes => exact r.run_attributes_eq hdistinct hreordered hidentifier
    | entryPoint => exact r.run_entryPoint_eq hdistinct hreordered hidentifier
    | resources => rw [Query.run, Query.run, Query.resources, hreordered.resources, Query.resources]
    | search => simp [Query.orderedCommands] at hcommand
    | dumpJson => simp [Query.orderedCommands] at hcommand
  rw [execute, execute, Query.answer, Query.answer, hname]
  simp only [hrun]

/-- A module with a type and one that derives from it. -/
def gearTypes : Module where
  identity := ⟨"Gears", none, none, none, none⟩
  location := ""
  files := []
  types := [.ofName "Acme" "Gear" 1,
    { TypeDef.ofName "Acme" "Worm" 1 with base := some (.named "Gear" (some "Acme.Gear")) }]
  referencedTypes := []
  resources := []
  entryPoint := none

/-- The derived type of `gearTypes` is found from either order of the two types. -/
theorem execute_reversedGearTypes :
    let reversed := { gearTypes with types := gearTypes.types.reverse }
    let o := Options.parse ["acme.gear"]
    gearTypes.DistinctNames ∧ gearTypes.Reordered reversed ∧
      Command.ofName? "implements" = some .implementers ∧
      .implementers ∈ Query.orderedCommands ∧
      (∀ identifier ∈ Query.typeIdentifiers gearTypes o .implementers,
        gearTypes.QualifiedOrUnknown identifier) ∧
      execute reversed "implements" o .unlimited .unlimited =
        execute gearTypes "implements" o .unlimited .unlimited := by
  intro reversed o
  have hdistinct : gearTypes.DistinctNames := ⟨by decide +kernel, by decide⟩
  have hreordered : gearTypes.Reordered reversed :=
    ⟨rfl, rfl, rfl, (List.reverse_perm _).symm, .nil, rfl, rfl⟩
  have hname : Command.ofName? "implements" = some .implementers := by decide
  have hcommand : .implementers ∈ Query.orderedCommands := by decide
  have hidentifier : ∀ identifier ∈ Query.typeIdentifiers gearTypes o .implementers,
      gearTypes.QualifiedOrUnknown identifier := by
    have hgear : Query.typeIdentifiers gearTypes o .implementers = ["acme.gear"] := by
      decide +kernel
    rw [hgear, List.forall_mem_singleton]
    exact .inl ⟨_, List.mem_cons_self, by decide +kernel⟩
  exact ⟨hdistinct, hreordered, hname, hcommand, hidentifier,
    execute_reordered hdistinct hreordered hname hcommand hidentifier .unlimited .unlimited⟩

end ModuleInspector
