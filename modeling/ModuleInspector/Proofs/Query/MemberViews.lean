import ModuleInspector.Proofs.Catalog.Identifier
import ModuleInspector.Proofs.Options.Switches
import ModuleInspector.Proofs.Query.ExportedDocument
import ModuleInspector.Proofs.Text.Sorting
import ModuleInspector.Query.Run
import Mathlib.Logic.Function.Defs

/-!
# The views of the members of a type

The member listing, the exported document, the details of a method and the search show members
of a type, each in an order of its own and for kinds of its own. All of them take the members
from one enumeration with one selection, so they show the same names and signatures.
-/

namespace ModuleInspector

variable {m : Module}

/-- Different kinds have different names. -/
theorem MemberKind.name_injective : Function.Injective MemberKind.name := by
  intro kind other hname
  cases kind <;> cases other <;> simp [name] at hname ⊢

/-- No other failure has the message of a missing type. -/
theorem QueryError.message_eq_iff (error : QueryError) :
    error.message = "Type not found" ↔ error = .typeNotFound := by
  cases error with
  | missingArgument argument => cases argument <;> decide
  | unknownCommand text =>
    refine iff_of_false (fun hmessage => ?_) nofun
    have hlist : "Unknown command: ".toList ++ text.toList = "Type not found".toList :=
      (@String.toList_append _ text).symm.trans (congrArg String.toList hmessage)
    have hfirst : some 'U' = some 'T' := congrArg List.head? hlist
    exact absurd hfirst (by decide)
  | _ => decide

/-- The members of one kind are of this kind. -/
theorem Catalog.kind_of_mem_members {c : Catalog m} {e : Entry m} {kind : MemberKind}
    {selection : Selection} {entry : MemberEntry m}
    (hentry : entry ∈ c.members e kind selection) : entry.member.kind = kind := by
  have hdeclared : ∀ {f : Entry m}, entry ∈ f.declared kind → entry.member.kind = kind :=
    fun hf => of_decide_eq_true (List.mem_filter.mp hf).2
  have hinherited : ∀ {hidden : List String} {bases : List (Entry m)},
      entry ∈ inherited kind selection hidden bases → entry.member.kind = kind := by
    intro hidden bases hbases
    induction bases generalizing hidden with
    | nil => simp [inherited] at hbases
    | cons base bases ih =>
      rcases List.mem_append.mp hbases with hbase | hlater
      · exact hdeclared (List.mem_of_mem_filter hbase)
      · exact ih hlater
  rw [members] at hentry
  split at hentry
  · exact hdeclared (List.mem_of_mem_filter hentry)
  · rcases List.mem_append.mp hentry with hown | hbases
    · exact hdeclared (List.mem_of_mem_filter hown)
    · exact hinherited hbases

namespace Options

/-- The options of a type identifier alone. -/
theorem parse_type {identifier : String} (hidentifier : IsArgument identifier) :
    parse ["--type", identifier] = ⟨[("type", [identifier])], []⟩ := by
  have hkey : keyOfToken? "--type" = some "type" := by decide
  have hlower : Text.lowerCase "type" = "type" := lowerCase_key (by simp)
  have hparsed := parse_append_argument [] (by decide) hkey hidentifier
  rwa [hlower] at hparsed

/-- The options of a type identifier and a method name. -/
theorem parse_type_method {identifier name : String} (hidentifier : IsArgument identifier)
    (hname : IsArgument name) :
    parse ["--type", identifier, "--method", name] =
      ⟨[("type", [identifier]), ("method", [name])], []⟩ := by
  have hkey : keyOfToken? "--method" = some "method" := by decide
  have hlower : Text.lowerCase "method" = "method" := lowerCase_key (by simp)
  have hparsed := parse_append_argument ["--type", identifier] (by decide) hkey hname
  rwa [hlower, parse_type hidentifier] at hparsed

/-- The options of one positional token and possibly a switch. -/
theorem parse_pattern {pattern : String} (hpattern : IsArgument pattern) (caseSensitive : Bool) :
    parse (pattern :: if caseSensitive then ["--case-sensitive"] else []) =
      ⟨if caseSensitive then [("case-sensitive", ["true"])] else [], [pattern]⟩ := by
  have hparsed : parse [pattern] = ⟨[], [pattern]⟩ := by
    obtain ⟨hblank, hvalue⟩ := hpattern
    simp [parse, Reading.step, hblank, hvalue]
  cases caseSensitive with
  | false => exact hparsed
  | true =>
    have hkey : keyOfToken? "--case-sensitive" = some "case-sensitive" := by decide
    have hlower : Text.lowerCase "case-sensitive" = "case-sensitive" := lowerCase_key (by simp)
    have hswitch := parse_append_switch [pattern] (by decide) hkey
    rwa [hlower, hparsed] at hswitch

end Options

namespace Query

/-- The name and the signature of a member as the options show it. -/
def shownAs (o : Options) (entry : MemberEntry m) : String × String :=
  (entry.name, entry.signature (includeNonPublic o))

/-- The names and signatures behind the block of a kind in the member listing. -/
def memberBlock (c : Catalog m) (o : Options) (e : Entry m) (kind : MemberKind) :
    List (String × String) :=
  (listedMembers c o e kind).map (shownAs o)

/-- The listed members of a kind are the enumerated ones. -/
theorem listedMembers_perm (c : Catalog m) (o : Options) (e : Entry m) (kind : MemberKind) :
    (listedMembers c o e kind).Perm (c.members e kind (selection o)) := by
  rw [listedMembers]
  split
  · exact Text.sortOrdinal_perm _ _
  · exact Text.sortOrdinal_perm _ _

/-- The listed members of a kind are of this kind. -/
theorem kind_of_mem_listedMembers {c : Catalog m} {o : Options} {e : Entry m} {kind : MemberKind}
    {entry : MemberEntry m} (hentry : entry ∈ listedMembers c o e kind) :
    entry.member.kind = kind :=
  Catalog.kind_of_mem_members ((listedMembers_perm c o e kind).mem_iff.mp hentry)

/-- The block of a kind shows the members that any options with the same switch enumerate. -/
theorem map_shownAs_perm_memberBlock (c : Catalog m) {o o' : Options} (e : Entry m)
    (kind : MemberKind) (hvisible : includeNonPublic o = includeNonPublic o') :
    ((c.members e kind (selection o)).map (shownAs o)).Perm (memberBlock c o' e kind) := by
  have hselection : selection o = selection o' := congrArg Selection.forVisibility hvisible
  have hshown : shownAs (m := m) o = shownAs o' := by
    funext entry
    rw [shownAs, shownAs, hvisible]
  rw [hselection, hshown]
  exact ((listedMembers_perm c o' e kind).map _).symm

/-- Of a kind, the members whose name passes a test are those of the block whose name does. -/
theorem map_filter_perm_memberBlock (c : Catalog m) {o o' : Options} (e : Entry m)
    (kind : MemberKind) (hvisible : includeNonPublic o = includeNonPublic o')
    (p : String → Bool) :
    (((c.members e kind (selection o)).filter fun entry => p entry.name).map (shownAs o)).Perm
      ((memberBlock c o' e kind).filter fun shown => p shown.1) := by
  have hperm := (map_shownAs_perm_memberBlock c e kind hvisible).filter fun shown => p shown.1
  rwa [List.filter_map] at hperm

/-- The exported members of one kind are the enumerated ones. -/
theorem filter_membersOf (c : Catalog m) (b : Bool) (e : Entry m) {kind : MemberKind}
    (hkind : kind ∈ Export.exportedKinds) :
    ((Export.membersOf c b e).filter fun model => model.kind = kind.name) =
      (c.members e kind (.forVisibility b)).map (Export.ofMember b) := by
  have hone (other : MemberKind) :
      (((c.members e other (.forVisibility b)).map (Export.ofMember b)).filter
        fun model => model.kind = kind.name) =
      if other = kind then (c.members e kind (.forVisibility b)).map (Export.ofMember b)
      else [] := by
    have hname : ∀ model ∈ (c.members e other (.forVisibility b)).map (Export.ofMember b),
        model.kind = other.name := by
      intro model hmodel
      obtain ⟨entry, hentry, rfl⟩ := List.mem_map.mp hmodel
      simp [Export.ofMember, Catalog.kind_of_mem_members hentry]
    split
    · subst other
      rw [List.filter_eq_self]
      intro model hmodel
      exact decide_eq_true (hname model hmodel)
    · next hother =>
      rw [List.filter_eq_nil_iff]
      intro model hmodel hsame
      rw [hname model hmodel] at hsame
      exact hother (MemberKind.name_injective (of_decide_eq_true hsame))
  rw [Export.membersOf, List.filter_flatMap]
  simp only [hone]
  cases kind with
  | constructor => simp [Export.exportedKinds] at hkind
  | _ => simp [Export.exportedKinds]

/-- Constructors are not exported. -/
theorem kind_ne_constructor_of_mem_membersOf {c : Catalog m} {b : Bool} {e : Entry m}
    {model : Export.MemberModel} (hmodel : model ∈ Export.membersOf c b e) :
    model.kind ≠ MemberKind.constructor.name := by
  obtain ⟨kind, hkind, hmodel⟩ := List.mem_flatMap.mp hmodel
  obtain ⟨entry, hentry, rfl⟩ := List.mem_map.mp hmodel
  intro hname
  have hconstructor : kind = .constructor :=
    MemberKind.name_injective ((congrArg _ (Catalog.kind_of_mem_members hentry)).symm.trans hname)
  simp [hconstructor, Export.exportedKinds] at hkind

/-- The details of a method start with its signature. -/
theorem head?_methodDetails {o : Options} {entry : MemberEntry m}
    (hkind : entry.member.kind = .method) :
    (methodDetails entry).head? = some (shownAs o entry).2 := by
  obtain ⟨declaring, index, member⟩ := entry
  cases member with
  | method found => rfl
  | _ => cases hkind

/-- The found members are those of the searched blocks whose name contains the pattern. -/
theorem map_foundMembers_perm (c : Catalog m) {o o' : Options} (pattern : String) (e : Entry m)
    (hvisible : includeNonPublic o = includeNonPublic o') :
    ((foundMembers c o pattern e).map (shownAs o)).Perm
      ((memberBlock c o' e .method ++ memberBlock c o' e .property ++
        memberBlock c o' e .field).filter fun shown => containsPattern o pattern shown.1) := by
  have hkind (kind : MemberKind) := map_filter_perm_memberBlock c e kind hvisible
    (containsPattern o pattern)
  rw [foundMembers]
  simp only [searchedKinds, List.flatMap_cons, List.flatMap_nil, List.append_nil,
    List.map_append, List.filter_append, List.append_assoc]
  exact (hkind .method).append ((hkind .property).append (hkind .field))

/-- The hits of a type are the type itself and the lines of its found members. -/
theorem hits_eq (c : Catalog m) (o : Options) (pattern : String) (e : Entry m) :
    hits c o pattern e =
      (if containsPattern o pattern e.name then [e.name ++ " [type]"] else []) ++
        ((foundMembers c o pattern e).map (shownAs o)).map fun shown =>
          e.name ++ " :: " ++ shown.2 := by
  rw [hits, List.map_map]
  rfl

section Commands

variable (c : Catalog m) {o o' : Options} {X M P : String} {e : Entry m}

/-- The listing fails when the identifier names no type, and shows the blocks of all kinds of the
type that it names. -/
theorem members_lists (htype : o.filled? "type" = some X) (hpositional : o.positional = [])
    (hkind : o.getAll "kind" = []) :
    (members c o = .error .typeNotFound ↔ c.findType? X = none) ∧
    ∀ e, c.findType? X = some e → members c o =
      .ok (MemberKind.all.flatMap fun kind => (memberBlock c o e kind).map Prod.snd) := by
  have hall : (MemberKind.all.filter fun kind => decide (kind ∈ MemberKind.all)) =
      MemberKind.all := by decide
  rw [members, typeWithRemainder, typeIdentifier, htype, hpositional]
  cases hfound : c.findType? X with
  | none => simp [hfound]
  | some e => simp [hfound, selectedKinds, hkind, hall, memberBlock, shownAs, Function.comp_def]

/-- The export fails when the identifier names no type. Otherwise the printed document is read as
one type, that type, whose members are kind by kind those of the blocks, without constructors. -/
theorem dumpJson_exports (htype : o.filled? "type" = some X) :
    (dumpJson c o = .error .typeNotFound ↔ c.findType? X = none) ∧
    ∀ e, c.findType? X = some e → ∃ document shown,
      dumpJson c o = .ok [document] ∧ Export.readTypes? document = some [(e.name, shown)] ∧
      (∀ kind ∈ [MemberKind.method, .property, .field, .event],
        ((shown.filter fun member => member.kind = kind.name).map
          fun member => (member.name, member.signature)).Perm (memberBlock c o e kind)) ∧
      ∀ member ∈ shown, member.kind ≠ MemberKind.constructor.name := by
  rw [dumpJson, exportModel, identifier?, Options.firstOf?, List.findSome?_cons, htype]
  cases hfound : c.findType? X with
  | none => simp [hfound, Except.map]
  | some e =>
    simp only [Option.some_or, hfound, Except.map]
    refine ⟨by simp, fun f hf => ?_⟩
    obtain rfl := Option.some.inj hf
    refine ⟨_, Export.membersOf c (includeNonPublic o) e, rfl, ?_, fun kind hkind => ?_,
      fun member => kind_ne_constructor_of_mem_membersOf⟩
    · exact Export.readTypes?_pretty (Export.ofModule m [Export.ofType c true _ e])
    · rw [filter_membersOf c _ e hkind, List.map_map]
      exact map_shownAs_perm_memberBlock c e kind rfl

/-- The details fail for want of a type when the identifier names none. Otherwise they succeed
when a method of the block has the name, and describe each such method, its signature first. -/
theorem method_describes (htype : o.filled? "type" = some X) (hpositional : o.positional = [])
    (hmethod : o.filled? "method" = some M) (hM : Text.isBlank M = false)
    (hparameters : o.filled? "parameters" = none)
    (hvisible : includeNonPublic o = includeNonPublic o') :
    (method c o = .error .typeNotFound ↔ c.findType? X = none) ∧
    ∀ e, c.findType? X = some e →
      ((∃ lines, method c o = .ok lines) ↔
        ∃ shown ∈ memberBlock c o' e .method, Text.eqFolded shown.1 M = true) ∧
      ∀ lines, method c o = .ok lines → ∃ found : List (MemberEntry m),
        lines = found.flatMap methodDetails ∧
        (found.map (shownAs o')).Perm
          ((memberBlock c o' e .method).filter fun shown => Text.eqFolded shown.1 M) ∧
        ∀ entry ∈ found, (methodDetails entry).head? = some (shownAs o' entry).2 := by
  have hname : methodName? o [] = some M := by
    simp [methodName?, Options.firstOf?, hmethod, hM]
  rw [method, typeWithRemainder, typeIdentifier, htype, hpositional]
  cases hfound : c.findType? X with
  | none => simp [hfound]
  | some e =>
    have hmatching : matchingMethods c o e M = (c.members e .method (selection o)).filter
        fun entry => Text.eqFolded entry.name M := by
      simp [matchingMethods, wantedParameters?, hparameters]
    have hshown : shownAs (m := m) o = shownAs o' := by
      funext entry
      rw [shownAs, shownAs, hvisible]
    have hperm := map_filter_perm_memberBlock c e .method hvisible
      fun name => Text.eqFolded name M
    have hkind : ∀ entry ∈ matchingMethods c o e M, entry.member.kind = .method := by
      intro entry hentry
      rw [hmatching] at hentry
      exact Catalog.kind_of_mem_members (List.mem_of_mem_filter hentry)
    rw [← hmatching, hshown] at hperm
    simp only [hfound, Option.bind_some, hname]
    cases hmethods : matchingMethods c o e M with
    | nil =>
      rw [hmethods, List.map_nil, List.nil_perm, List.filter_eq_nil_iff] at hperm
      refine ⟨by simp, fun f hf => ?_⟩
      obtain rfl := Option.some.inj hf
      refine ⟨?_, fun lines hlines => by cases hlines⟩
      simpa using hperm
    | cons first rest =>
      rw [hmethods] at hperm hkind
      refine ⟨by simp, fun f hf => ?_⟩
      obtain rfl := Option.some.inj hf
      refine ⟨?_, fun lines hlines => ?_⟩
      · obtain ⟨hmem, hfold⟩ := List.mem_filter.mp (hperm.mem_iff.mp List.mem_cons_self)
        exact ⟨fun _ => ⟨_, hmem, hfold⟩, fun _ => ⟨_, rfl⟩⟩
      · obtain rfl := Except.ok.inj hlines
        exact ⟨first :: rest, rfl, hperm, fun entry hentry => head?_methodDetails (hkind _ hentry)⟩

/-- The search adds to every type that it goes through the members of the searched blocks whose
name contains the pattern. -/
theorem search_finds (hoption : o.filled? "pattern" = none) (hpositional : o.positional = [P])
    (hpattern : Text.isBlank P = false) (hvisible : includeNonPublic o = includeNonPublic o') :
    search c o = .ok ((m.listed true (includeNonPublic o)).flatMap (hits c o P)) ∧
    ∀ e, ∃ found : List (String × String),
      hits c o P e = (if containsPattern o P e.name then [e.name ++ " [type]"] else []) ++
        found.map (fun shown => e.name ++ " :: " ++ shown.2) ∧
      found.Perm ((memberBlock c o' e .method ++ memberBlock c o' e .property ++
        memberBlock c o' e .field).filter fun shown => containsPattern o P shown.1) := by
  have hidentifier : ((identifier? o ["pattern"]).filter fun text => !Text.isBlank text) =
      some P := by
    simp [identifier?, Options.firstOf?, hoption, hpositional, hpattern]
  rw [search, hidentifier]
  exact ⟨rfl, fun e => ⟨_, hits_eq c o P e, map_foundMembers_perm c P e hvisible⟩⟩

end Commands

section Tokens

variable (nonPublic : Bool)

/-- What the commands read from options with a final visibility switch. -/
theorem reads_append_visibility {tokens positional : List String}
    {values : List (String × List String)} (hparse : Options.parse tokens = ⟨values, positional⟩)
    (hplain : values.lookup "nonpublic" = none)
    (hplain' : values.lookup "include-nonpublic" = none) :
    let o := Options.parse (tokens ++ Options.visibilityTokens nonPublic)
    o.positional = positional ∧ includeNonPublic o = nonPublic ∧
      ∀ key ∈ ["type", "kind", "method", "parameters", "pattern", "case-sensitive"],
        o.getAll key = (values.lookup key).getD [] ∧ o.has key = (values.lookup key).isSome := by
  intro o
  have ho : o = _ := Options.parse_append_visibility tokens nonPublic
  have hlookup {key : String} (hkey : key ≠ "nonpublic") :
      o.values.lookup key = values.lookup key :=
    (Options.lookup_parse_append_visibility tokens nonPublic hkey).trans (by rw [hparse])
  refine ⟨by rw [ho, hparse], ?_, fun key hkey => ?_⟩
  · rw [includeNonPublic, Options.has, Options.has, Options.lowerCase_key (by simp),
      Options.lowerCase_key (by simp), hlookup (by decide), hplain', ho, hparse]
    cases nonPublic with
    | false => simp [hplain]
    | true => simp [Options.lookup_addValue]
  · have hother : key ≠ "nonpublic" := by
      rintro rfl
      simp at hkey
    have hlower : Text.lowerCase key = key := by
      apply Options.lowerCase_key
      simp only [List.mem_cons, List.not_mem_nil, or_false] at hkey ⊢
      tauto
    rw [Options.getAll, Options.has, hlower, hlookup hother]
    exact ⟨rfl, rfl⟩

/-- What the commands read from a type identifier. -/
theorem reads_type {X : String} (hX : Options.IsArgument X) :
    let o := Options.parse (["--type", X] ++ Options.visibilityTokens nonPublic)
    o.filled? "type" = some X ∧ o.positional = [] ∧ o.getAll "kind" = [] ∧
      includeNonPublic o = nonPublic := by
  obtain ⟨hpositional, hvisible, hread⟩ :=
    reads_append_visibility nonPublic (Options.parse_type hX) rfl rfl
  obtain ⟨htype, -⟩ := hread "type" (by simp)
  obtain ⟨hkind, -⟩ := hread "kind" (by simp)
  refine ⟨?_, hpositional, hkind, hvisible⟩
  rw [Options.filled?, Options.get?, htype]
  simp [hX.1]

/-- What the commands read from a type identifier and a method name. -/
theorem reads_type_method {X M : String} (hX : Options.IsArgument X) (hM : Options.IsArgument M) :
    let o := Options.parse (["--type", X, "--method", M] ++ Options.visibilityTokens nonPublic)
    o.filled? "type" = some X ∧ o.positional = [] ∧ o.filled? "method" = some M ∧
      o.filled? "parameters" = none ∧ includeNonPublic o = nonPublic := by
  obtain ⟨hpositional, hvisible, hread⟩ :=
    reads_append_visibility nonPublic (Options.parse_type_method hX hM) rfl rfl
  obtain ⟨htype, -⟩ := hread "type" (by simp)
  obtain ⟨hmethod, -⟩ := hread "method" (by simp)
  obtain ⟨hparameters, -⟩ := hread "parameters" (by simp)
  refine ⟨?_, hpositional, ?_, ?_, hvisible⟩
  · rw [Options.filled?, Options.get?, htype]
    simp [hX.1]
  · rw [Options.filled?, Options.get?, hmethod]
    simp [Options.lookup_cons_eq_ite, hM.1]
  · rw [Options.filled?, Options.get?, hparameters]
    rfl

/-- What the search reads from a pattern and its switches. -/
theorem reads_pattern {P : String} (hP : Options.IsArgument P) (caseSensitive : Bool) :
    let o := Options.parse ((P :: if caseSensitive then ["--case-sensitive"] else []) ++
      Options.visibilityTokens nonPublic)
    o.filled? "pattern" = none ∧ o.positional = [P] ∧
      o.has "case-sensitive" = caseSensitive ∧ includeNonPublic o = nonPublic := by
  obtain ⟨hpositional, hvisible, hread⟩ :=
    reads_append_visibility nonPublic (Options.parse_pattern hP caseSensitive)
      (by cases caseSensitive <;> rfl) (by cases caseSensitive <;> rfl)
  obtain ⟨hpattern, -⟩ := hread "pattern" (by simp)
  obtain ⟨-, hcase⟩ := hread "case-sensitive" (by simp)
  refine ⟨?_, hpositional, ?_, hvisible⟩
  · rw [Options.filled?, Options.get?, hpattern]
    cases caseSensitive <;> rfl
  · rw [hcase]
    cases caseSensitive <;> rfl

end Tokens

/-- The four views of a type agree. The listing, the exported document and the method details all
fail for want of a type, with the message of this failure alone, exactly when the identifier names
no type. Otherwise the listing is made of the blocks of all kinds; the printed document is read as
this one type, whose members are, kind by kind, those of the blocks, without constructors; and the
details of a method succeed exactly when a method of the block has the name, and then describe each
such method, starting with its signature. A search adds to each type it goes through the methods,
properties and fields of the blocks whose name contains the pattern. -/
theorem memberViews_agree (m : Module) {X M P : String} (hX : Options.IsArgument X)
    (hM : Options.IsArgument M) (hP : Options.IsArgument P) (nonPublic caseSensitive : Bool) :
    let c := Catalog.of m
    let switch := Options.visibilityTokens nonPublic
    let o := Options.parse (["--type", X] ++ switch)
    let ofMethod := Options.parse (["--type", X, "--method", M] ++ switch)
    let ofSearch := Options.parse
      ((P :: if caseSensitive then ["--case-sensitive"] else []) ++ switch)
    let contains := fun text =>
      if caseSensitive then Text.contains text P else Text.containsFolded text P
    ((∀ error : QueryError, error.message = "Type not found" ↔ error = .typeNotFound) ∧
      (run c .members o = .error .typeNotFound ↔ c.findType? X = none) ∧
      (run c .dumpJson o = .error .typeNotFound ↔ c.findType? X = none) ∧
      (run c .method ofMethod = .error .typeNotFound ↔ c.findType? X = none)) ∧
    (∀ e, c.findType? X = some e →
      run c .members o =
        .ok (MemberKind.all.flatMap fun kind => (memberBlock c o e kind).map Prod.snd) ∧
      (∀ kind, ∀ entry ∈ listedMembers c o e kind, entry.member.kind = kind) ∧
      (∃ document shown, run c .dumpJson o = .ok [document] ∧
        Export.readTypes? document = some [(e.name, shown)] ∧
        (∀ kind ∈ [MemberKind.method, .property, .field, .event],
          ((shown.filter fun member => member.kind = kind.name).map
            fun member => (member.name, member.signature)).Perm (memberBlock c o e kind)) ∧
        ∀ member ∈ shown, member.kind ≠ MemberKind.constructor.name) ∧
      ((∃ lines, run c .method ofMethod = .ok lines) ↔
        ∃ shown ∈ memberBlock c o e .method, Text.eqFolded shown.1 M = true) ∧
      ∀ lines, run c .method ofMethod = .ok lines → ∃ found : List (MemberEntry m),
        lines = found.flatMap methodDetails ∧
        (found.map (shownAs o)).Perm
          ((memberBlock c o e .method).filter fun shown => Text.eqFolded shown.1 M) ∧
        ∀ entry ∈ found, (methodDetails entry).head? = some (shownAs o entry).2) ∧
    run c .search ofSearch = .ok ((m.listed true nonPublic).flatMap (hits c ofSearch P)) ∧
    ∀ e, ∃ found : List (String × String),
      hits c ofSearch P e =
        (if contains e.name then [e.name ++ " [type]"] else []) ++
          found.map (fun shown => e.name ++ " :: " ++ shown.2) ∧
      found.Perm ((memberBlock c o e .method ++ memberBlock c o e .property ++
        memberBlock c o e .field).filter fun shown => contains shown.1) := by
  intro c switch o ofMethod ofSearch contains
  obtain ⟨htype, hpositional, hkind, hvisible⟩ := reads_type nonPublic hX
  obtain ⟨htypeOfMethod, hpositionalOfMethod, hmethod, hparameters, hvisibleOfMethod⟩ :=
    reads_type_method nonPublic hX hM
  obtain ⟨hpattern, hpositionalOfSearch, hcase, hvisibleOfSearch⟩ :=
    reads_pattern nonPublic hP caseSensitive
  obtain ⟨hlistFails, hlists⟩ := members_lists c htype hpositional hkind
  obtain ⟨hexportFails, hexports⟩ := dumpJson_exports c htype
  obtain ⟨hmethodFails, hdescribes⟩ := method_describes c htypeOfMethod hpositionalOfMethod
    hmethod hM.1 hparameters (hvisibleOfMethod.trans hvisible.symm)
  obtain ⟨hsearch, hfinds⟩ := @search_finds m c ofSearch o P hpattern hpositionalOfSearch hP.1
    (hvisibleOfSearch.trans hvisible.symm)
  have hscanned : includeNonPublic ofSearch = nonPublic := hvisibleOfSearch
  have hcontains : containsPattern ofSearch P = contains := by
    funext text
    have hswitch : ofSearch.has "case-sensitive" = caseSensitive := hcase
    rw [containsPattern, hswitch]
  rw [hscanned] at hsearch
  rw [hcontains] at hfinds
  refine ⟨⟨QueryError.message_eq_iff, hlistFails, hexportFails, hmethodFails⟩, fun e hfound =>
    ⟨hlists e hfound, ?_, hexports e hfound, hdescribes e hfound⟩, hsearch, hfinds⟩
  exact fun kind entry => kind_of_mem_listedMembers

/-- A module with one type, which has one method. -/
def wormGear : Module where
  identity := ⟨"Gears", none, none, none, none⟩
  location := ""
  files := []
  types := [{ TypeDef.ofName "" "Worm" 1 with members := [.method (.ofName "Turn" 6)] }]
  referencedTypes := []
  resources := []
  entryPoint := none

/-- The type of `wormGear`. -/
def worm : Entry wormGear := .defined ⟨0, by decide⟩

/-- The type of `wormGear` is found by its name in another case. -/
theorem findType?_worm : (Catalog.of wormGear).findType? "worm" = some worm := by
  refine (Catalog.findType?_eq_some_iff (by decide)).mpr ⟨.qualifiedFolded, rfl, ?_⟩
  intro earlier hearlier
  cases earlier with
  | qualified => decide +kernel
  | _ => simp [NameMatch.stage] at hearlier

/-- The block of methods of the type shows its method. -/
theorem turn_mem_memberBlock :
    ("Turn", "Worm.Turn()") ∈
      memberBlock (Catalog.of wormGear) (Options.parse ["--type", "worm"]) worm .method := by
  let turn : MemberEntry wormGear := ⟨worm, 0, .method (.ofName "Turn" 6)⟩
  have hselected : (selection (Options.parse ["--type", "worm"])).selects true false = true := by
    decide +kernel
  have hdeclared : turn ∈ worm.declared .method := List.mem_filter.mpr ⟨List.mem_cons_self, rfl⟩
  have hmembers : turn ∈ (Catalog.of wormGear).members worm .method
      (selection (Options.parse ["--type", "worm"])) :=
    List.mem_append_left _ (List.mem_filter.mpr ⟨hdeclared, hselected⟩)
  exact List.mem_map.mpr
    ⟨turn, (listedMembers_perm _ _ worm .method).mem_iff.mpr hmembers, by decide +kernel⟩

/-- Every view of the type in `wormGear` shows its method. -/
theorem memberViews_wormGear :
    (Options.IsArgument "worm" ∧ Options.IsArgument "turn" ∧ Options.IsArgument "t") ∧
    let c := Catalog.of wormGear
    let o := Options.parse ["--type", "worm"]
    (∃ lines, run c .members o = .ok lines ∧ "Worm.Turn()" ∈ lines) ∧
    (∃ document shown, run c .dumpJson o = .ok [document] ∧
      Export.readTypes? document = some [("Worm", shown)] ∧
      ⟨"method", "Turn", "Worm.Turn()"⟩ ∈ shown) ∧
    (∃ lines, run c .method (Options.parse ["--type", "worm", "--method", "turn"]) = .ok lines ∧
      "Worm.Turn()" ∈ lines) ∧
    ∃ lines, run c .search (Options.parse ["t"]) = .ok lines ∧ "Worm :: Worm.Turn()" ∈ lines := by
  have htype : Options.IsArgument "worm" := by decide
  have hmethod : Options.IsArgument "turn" := by decide
  have hpattern : Options.IsArgument "t" := by decide
  refine ⟨⟨htype, hmethod, hpattern⟩, ?_⟩
  obtain ⟨-, hviews, hsearch, hfinds⟩ :=
    memberViews_agree wormGear htype hmethod hpattern false false
  obtain ⟨hmembers, -, ⟨document, shown, hdocument, hread, hexported, -⟩, hdescribes, hdetails⟩ :=
    hviews worm findType?_worm
  have hturn := turn_mem_memberBlock
  refine ⟨⟨_, hmembers, ?_⟩, ⟨document, shown, hdocument, hread, ?_⟩, ?_, _, hsearch, ?_⟩
  · exact List.mem_flatMap.mpr ⟨.method, by decide, List.mem_map_of_mem hturn⟩
  · obtain ⟨⟨kind, name, signature⟩, hmember, hpair⟩ :=
      List.mem_map.mp ((hexported .method (by decide)).mem_iff.mpr hturn)
    obtain ⟨hshown, hkind⟩ := List.mem_filter.mp hmember
    obtain rfl : kind = "method" := of_decide_eq_true hkind
    obtain ⟨rfl, rfl⟩ := Prod.mk.inj hpair
    exact hshown
  · obtain ⟨lines, hlines⟩ := hdescribes.mpr ⟨_, hturn, by decide +kernel⟩
    obtain ⟨found, rfl, hperm, hheads⟩ := hdetails lines hlines
    have hfound := hperm.mem_iff.mpr (List.mem_filter.mpr ⟨hturn, by decide +kernel⟩)
    obtain ⟨entry, hentry, hpair⟩ := List.mem_map.mp hfound
    have hhead := hheads entry hentry
    rw [hpair] at hhead
    exact ⟨_, hlines, List.mem_flatMap.mpr ⟨entry, hentry, List.mem_of_mem_head? hhead⟩⟩
  · obtain ⟨found, hhits, hperm⟩ := hfinds worm
    have hfound := hperm.mem_iff.mpr (List.mem_filter.mpr
      ⟨List.mem_append_left _ (List.mem_append_left _ hturn), by decide +kernel⟩)
    refine List.mem_flatMap.mpr ⟨worm, by decide +kernel, ?_⟩
    exact hhits ▸ List.mem_append_right _ (List.mem_map.mpr ⟨_, hfound, by decide +kernel⟩)

end Query

end ModuleInspector
