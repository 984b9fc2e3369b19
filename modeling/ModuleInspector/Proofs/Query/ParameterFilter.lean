import ModuleInspector.Proofs.Catalog.BaseWalk
import ModuleInspector.Proofs.Metadata.CanonicalText
import ModuleInspector.Proofs.Query.MemberViews
import ModuleInspector.Proofs.Text.Separated

/-!
# Methods by their parameter types

The details of a method can be asked for by the types of its parameters, with commas between them.
The list is cut at every comma, also at those inside the text of one type. It finds the method
whose parameter types it lists exactly when none of their texts has a comma, which is when no
generic definition has several arguments and no array several dimensions.
-/

namespace ModuleInspector

namespace TypeRef

/-- The references in which all names and definitions are words. -/
def words : Grammar where
  parameter := Text.IsWord
  type := Text.IsWord
  definition name _ := Text.IsWord name
  rank _ := True

/-- The references whose generic definitions have at most one argument and whose arrays have at
most one dimension, at every depth. -/
def undivided : Grammar where
  parameter _ := True
  type _ := True
  definition _ count := count ≤ 1
  rank rank := rank.toNat ≤ 1

/-- A text made of words starts and ends with a word character. -/
theorem edged_text {reference : TypeRef} (hbuilt : words.Builds reference) :
    Text.Edged reference.text.toList := by
  have hedged {name : String} (hname : Text.IsWord name) : Text.Edged name.toList :=
    Text.edged_of_forall (String.toList_eq_nil_iff.not.mpr hname.1) hname.2
  induction hbuilt with
  | parameter hname => exact hedged hname
  | type hname => exact hedged hname
  | @generic definition arguments hdefinition harguments ih =>
    -- The stem may be empty, but the bracket behind it is not.
    have hstem : Text.Edged ((definitionStem definition).toList ++ ['<']) := by
      refine Text.edged_of_forall (by simp) fun c hc => ?_
      rcases List.mem_append.mp hc with hc | hc
      · exact hdefinition.2 c (mem_of_mem_definitionStem hc)
      · obtain rfl := List.mem_singleton.mp hc
        decide
    have htext := hstem.append_concat (Text.join ", " (texts arguments)).toList
      (by decide : Text.IsWordChar '>')
    simpa [toList_text_generic] using htext
  | @array element rank helement hrank ih =>
    have htext := ih.append_concat ('[' :: List.replicate (rank.toNat - 1) ',')
      (by decide : Text.IsWordChar ']')
    simpa [toList_text_array] using htext
  | byRef helement ih =>
    rw [toList_text_byRef]
    exact ih.append_concat [] (by decide)

/-- Joined texts have no comma when there is at most one, and it has none. -/
theorem comma_notMem_joined_iff (arguments : List TypeRef) :
    ',' ∉ (Text.join ", " (texts arguments)).toList ↔
      arguments.length ≤ 1 ∧ ∀ argument ∈ arguments, ',' ∉ argument.text.toList := by
  match arguments with
  | [] => simp [texts, Text.join]
  | [argument] => simp [texts, Text.join]
  | first :: second :: rest => simp [texts, Text.toList_join, Text.laterTexts]

/-- A text made of words has no comma exactly when the reference is undivided. -/
theorem comma_notMem_text_iff {reference : TypeRef} (hbuilt : words.Builds reference) :
    ',' ∉ reference.text.toList ↔ undivided.Builds reference := by
  have hword {name : String} (hname : Text.IsWord name) : ',' ∉ name.toList :=
    fun hcomma => (hname.2 ',' hcomma).1 rfl
  induction hbuilt with
  | parameter hname => exact iff_of_true (hword hname) (.parameter trivial)
  | type hname => exact iff_of_true (hword hname) (.type trivial)
  | @generic definition arguments hdefinition harguments ih =>
    have hstem : ',' ∉ (definitionStem definition).toList :=
      fun hcomma => hword hdefinition (mem_of_mem_definitionStem hcomma)
    have htext : ',' ∉ (generic definition arguments).text.toList ↔
        ',' ∉ (Text.join ", " (texts arguments)).toList := by
      simp [toList_text_generic, hstem]
    rw [htext, comma_notMem_joined_iff]
    constructor
    · rintro ⟨hcount, hnone⟩
      exact .generic hcount fun argument ha => (ih argument ha).mp (hnone argument ha)
    · intro hundivided
      cases hundivided with
      | generic hcount hparts =>
        exact ⟨hcount, fun argument ha => (ih argument ha).mpr (hparts argument ha)⟩
  | @array element rank helement hrank ih =>
    have htext : ',' ∉ (array element rank).text.toList ↔
        ',' ∉ element.text.toList ∧ rank.toNat ≤ 1 := by
      simp [toList_text_array, Nat.sub_eq_zero_iff_le]
    rw [htext]
    constructor
    · rintro ⟨hnone, hdimensions⟩
      exact .array (ih.mp hnone) hdimensions
    · intro hundivided
      cases hundivided with
      | array hpart hdimensions => exact ⟨ih.mpr hpart, hdimensions⟩
  | @byRef element helement ih =>
    have htext : ',' ∉ (byRef element).text.toList ↔ ',' ∉ element.text.toList := by
      simp [toList_text_byRef]
    rw [htext]
    constructor
    · intro hnone
      exact .byRef (ih.mp hnone)
    · intro hundivided
      cases hundivided with
      | byRef hpart => exact ih.mpr hpart

/-- Whether a text is that of a type, up to blanks around it. -/
def WrittenAs (type : TypeRef) (written : String) : Prop := Text.trim written = type.text

instance (type : TypeRef) (written : String) : Decidable (type.WrittenAs written) :=
  inferInstanceAs (Decidable (_ = _))

section Written

variable {type : TypeRef} {written : String} (hwritten : type.WrittenAs written)
  (hbuilt : words.Builds type)

include hwritten

/-- Trimming leaves the text of the type. -/
theorem trimChars_written : Text.trimChars written.toList = type.text.toList := by
  rw [← hwritten, Text.trim, String.toList_ofList]

include hbuilt

/-- A written type has a word character. -/
theorem exists_wordChar_written : ∃ c ∈ written.toList, Text.IsWordChar c := by
  obtain ⟨⟨c, hc, hword⟩, -⟩ := edged_text hbuilt
  rw [← trimChars_written hwritten] at hc
  exact ⟨c, (Text.trimChars_infix _).subset (List.mem_of_mem_head? hc), hword⟩

/-- An undivided type is one part. -/
theorem filledParts_written (hundivided : undivided.Builds type) :
    Text.filledParts written.toList = [type.text.toList] := by
  have htrim := trimChars_written hwritten
  have hnone := (comma_notMem_text_iff hbuilt).mpr hundivided
  obtain ⟨⟨c, hc, -⟩, -⟩ := edged_text hbuilt
  rw [← htrim] at hnone hc ⊢
  refine Text.filledParts_eq_singleton (fun hcomma => hnone ?_)
    (List.ne_nil_of_mem (List.mem_of_mem_head? hc))
  exact Text.mem_trimChars hcomma (by decide)

/-- Only an undivided type is one part. -/
theorem undivided_of_length_filledParts
    (hlength : (Text.filledParts written.toList).length = 1) : undivided.Builds type := by
  have htrim := trimChars_written hwritten
  rw [← comma_notMem_text_iff hbuilt, ← htrim]
  refine Text.notMem_of_length_filledParts ?_ hlength
  rw [htrim]
  exact edged_text hbuilt

end Written

end TypeRef

namespace Query

variable {m : Module}

section Written

variable {types : List TypeRef} {written : List String}
  (hwritten : List.Forall₂ TypeRef.WrittenAs types written)
  (hbuilt : ∀ type ∈ types, TypeRef.words.Builds type)

include hwritten hbuilt

/-- The parts of the listed types are their texts when all of them are undivided. -/
theorem flatMap_filledParts (hundivided : ∀ type ∈ types, TypeRef.undivided.Builds type) :
    (written.flatMap fun text => Text.filledParts text.toList) =
      types.map fun type => type.text.toList := by
  induction hwritten with
  | nil => rfl
  | cons hfirst hrest ih =>
    obtain ⟨hfirstBuilt, hrestBuilt⟩ := List.forall_mem_cons.mp hbuilt
    obtain ⟨hfirstUndivided, hrestUndivided⟩ := List.forall_mem_cons.mp hundivided
    rw [List.flatMap_cons, TypeRef.filledParts_written hfirst hfirstBuilt hfirstUndivided,
      ih hrestBuilt hrestUndivided]
    rfl

/-- Every listed type has a part, and where there are no more, all types are undivided. -/
theorem length_flatMap_filledParts :
    types.length ≤ (written.flatMap fun text => Text.filledParts text.toList).length ∧
      ((written.flatMap fun text => Text.filledParts text.toList).length = types.length →
        ∀ type ∈ types, TypeRef.undivided.Builds type) := by
  induction hwritten with
  | nil => simp
  | @cons type text types written hfirst hrest ih =>
    obtain ⟨hfirstBuilt, hrestBuilt⟩ := List.forall_mem_cons.mp hbuilt
    obtain ⟨hmany, hfew⟩ := ih hrestBuilt
    have hsome := List.length_pos_of_ne_nil
      (Text.filledParts_ne_nil (TypeRef.exists_wordChar_written hfirst hfirstBuilt))
    rw [List.flatMap_cons, List.length_append, List.length_cons]
    refine ⟨by omega, fun hcount => List.forall_mem_cons.mpr ⟨?_, hfew (by omega)⟩⟩
    exact TypeRef.undivided_of_length_filledParts hfirst hfirstBuilt (by omega)

/-- A list of types is read part by part, unless it is empty. -/
theorem wantedParameters?_written {o : Options} (hne : types ≠ [])
    (hoption : o.get? "parameters" = some (Text.join "," written)) :
    wantedParameters? o =
      some ((written.flatMap fun text => Text.filledParts text.toList).map String.ofList) := by
  have hfilled : o.filled? "parameters" = some (Text.join "," written) := by
    obtain ⟨type, types, rfl⟩ := List.exists_cons_of_ne_nil hne
    obtain ⟨text, written, hfirst, -, rfl⟩ := List.forall₂_cons_left_iff.mp hwritten
    obtain ⟨c, hc, hword⟩ :=
      TypeRef.exists_wordChar_written hfirst (hbuilt type List.mem_cons_self)
    have hblank : Text.isBlank (Text.join "," (text :: written)) = false := by
      rw [Text.isBlank, List.all_eq_false]
      refine ⟨c, ?_, by simp [hword.2]⟩
      rw [Text.toList_join]
      exact List.mem_append_left _ hc
    rw [Options.filled?, hoption, Option.filter_some, hblank]
    rfl
  rw [wantedParameters?, hfilled, ← Text.filledParts_join]
  rfl

end Written

/-- Parameters match the texts of their types. -/
theorem parametersMatch_texts (parameters : List Parameter) :
    parametersMatch parameters (parameters.map fun p => p.type.text) = true := by
  induction parameters with
  | nil => rfl
  | cons p parameters ih => simpa [parametersMatch, typeMatches] using ih

/-- Where a command names a method, it prints the details of all matching methods, if any. -/
theorem run_method_eq {c : Catalog m} {o : Options} {e : Entry m} {remainder : List String}
    {name : String} (htype : typeWithRemainder c o = (some e, remainder))
    (hname : methodName? o remainder = some name) (hfound : matchingMethods c o e name ≠ []) :
    run c .method o = .ok ((matchingMethods c o e name).flatMap methodDetails) := by
  obtain ⟨first, rest, hmatching⟩ := List.exists_cons_of_ne_nil hfound
  simp only [run, method, htype, hname, hmatching]

section Filter

variable {c : Catalog m} {o : Options} {e : Entry m} {remainder : List String} {name : String}
  {entry : MemberEntry m} {callable : Method} {written : List String}
  (hentry : entry ∈ c.members e .method (selection o))
  (hcallable : entry.member = .method callable) (hcalled : Text.eqFolded entry.name name = true)
  (hparameters : callable.parameters ≠ [])
  (hbuilt : ∀ p ∈ callable.parameters, TypeRef.words.Builds p.type)
  (hwritten : List.Forall₂ TypeRef.WrittenAs (callable.parameters.map (·.type)) written)
  (hoption : o.get? "parameters" = some (Text.join "," written))

include hentry hcallable hcalled hparameters hbuilt hwritten hoption

/-- A method is found by the list of its parameter types exactly when these are undivided. -/
theorem mem_matchingMethods_iff_undivided :
    entry ∈ matchingMethods c o e name ↔
      ∀ p ∈ callable.parameters, TypeRef.undivided.Builds p.type := by
  have hne : callable.parameters.map (·.type) ≠ [] := by simpa using hparameters
  have htypes {p : TypeRef → Prop} :
      (∀ type ∈ callable.parameters.map (·.type), p type) ↔
        ∀ parameter ∈ callable.parameters, p parameter.type := List.forall_mem_map
  have hwanted := wantedParameters?_written hwritten (htypes.mpr hbuilt) hne hoption
  have hmatching : entry ∈ matchingMethods c o e name ↔ parametersMatch callable.parameters
      ((written.flatMap fun text => Text.filledParts text.toList).map String.ofList) = true := by
    simp [matchingMethods, hentry, hcalled, hwanted, hcallable, Member.method?]
  rw [hmatching]
  constructor
  · intro hmatch
    have hlength := (Bool.and_eq_true_iff.mp hmatch).1
    refine htypes.mp ((length_flatMap_filledParts hwritten (htypes.mpr hbuilt)).2 ?_)
    simpa using (of_decide_eq_true hlength).symm
  · intro hundivided
    rw [flatMap_filledParts hwritten (htypes.mpr hbuilt) (htypes.mpr hundivided)]
    simpa [Function.comp_def] using parametersMatch_texts callable.parameters

/-- A command that names a type, a visible method with parameters, and the types of these
parameters, between commas, finds the method exactly when no type in the list is divided by a comma
of its own: no generic definition has several arguments and no array several dimensions. The
command then succeeds and prints the details of the method. -/
theorem method_prints_iff_undivided (htype : typeWithRemainder c o = (some e, remainder))
    (hname : methodName? o remainder = some name) :
    (entry ∈ matchingMethods c o e name ↔
      ∀ p ∈ callable.parameters, TypeRef.undivided.Builds p.type) ∧
    ((∀ p ∈ callable.parameters, TypeRef.undivided.Builds p.type) →
      ∃ before after, run c .method o =
        .ok (before ++ callable.details entry.declaring.type ++ after)) := by
  have hmem := mem_matchingMethods_iff_undivided hentry hcallable hcalled hparameters hbuilt
    hwritten hoption
  refine ⟨hmem, fun hundivided => ?_⟩
  obtain ⟨earlier, later, hfound⟩ := List.append_of_mem (hmem.mpr hundivided)
  have hne : matchingMethods c o e name ≠ [] := List.ne_nil_of_mem (hmem.mpr hundivided)
  have hdetails : methodDetails entry = callable.details entry.declaring.type := by
    rw [methodDetails, hcallable]
    rfl
  refine ⟨earlier.flatMap methodDetails, later.flatMap methodDetails, ?_⟩
  rw [run_method_eq htype hname hne, hfound, List.flatMap_append, List.flatMap_cons, hdetails,
    List.append_assoc]

end Filter

/-- A public method that takes a list and an array. -/
def scale : Method :=
  { Method.ofName "Scale" 6 with parameters := [
    ⟨"factors", .generic "System.List`1" [.ofFullName "System.Int32"], 0, none⟩,
    ⟨"extents", .array (.ofFullName "System.Int32") 1, 0, none⟩] }

/-- A public method that takes an array of two dimensions. -/
def fill : Method :=
  { Method.ofName "Fill" 6 with parameters := [
    ⟨"cells", .array (.ofFullName "System.Int32") 2, 0, none⟩] }

/-- A module with one class, which has these two methods. -/
def grids : Module where
  identity := ⟨"Grids", none, none, none, none⟩
  location := ""
  files := []
  types := [{ TypeDef.ofName "" "Grid" 1 with members := [.method scale, .method fill] }]
  referencedTypes := []
  resources := []
  entryPoint := none

/-- The class. -/
def grid : Entry grids := .defined ⟨0, by decide⟩

/-- The options that ask for a method of the class by its parameter types. -/
def gridOptions (name parameters : String) : Options :=
  ⟨[("type", ["Grid"]), ("method", [name]), ("parameters", [parameters])], []⟩

/-- Tokens of these options. -/
theorem parse_gridTokens {name parameters : String} (hname : Options.IsArgument name)
    (hparameters : Options.IsArgument parameters) :
    Options.parse ["--type", "Grid", "--method", name, "--parameters", parameters] =
      gridOptions name parameters := by
  have hkey : Options.keyOfToken? "--parameters" = some "parameters" := by decide
  have hparsed := Options.parse_append_argument ["--type", "Grid", "--method", name] (by decide)
    hkey hparameters
  rwa [Options.lowerCase_key (by simp), Options.parse_type_method (by decide) hname] at hparsed

/-- The options name the class. -/
theorem typeWithRemainder_grid (name parameters : String) :
    typeWithRemainder (Catalog.of grids) (gridOptions name parameters) = (some grid, []) := by
  have hfound : (Catalog.of grids).findType? "Grid" = some grid := by
    refine (Catalog.findType?_eq_some_iff (by decide)).mpr ⟨.qualified, rfl, ?_⟩
    intro earlier hearlier
    cases earlier <;> simp [NameMatch.stage] at hearlier
  have hidentifier : typeIdentifier (gridOptions name parameters) = (some "Grid", []) := by
    have hfilled : (gridOptions name parameters).filled? "type" = some "Grid" := by
      rw [Options.filled?, Options.get?, Options.getAll, Options.lowerCase_key (by simp)]
      rfl
    rw [typeIdentifier, hfilled]
    rfl
  rw [typeWithRemainder, hidentifier]
  simp [hfound]

/-- The options show the methods of the class, which are its own. -/
theorem members_grid (name parameters : String) :
    (Catalog.of grids).members grid .method (selection (gridOptions name parameters)) =
      [⟨grid, 0, .method scale⟩, ⟨grid, 1, .method fill⟩] := by
  have hselection : selection (gridOptions name parameters) = .forVisibility false := by
    rw [selection, includeNonPublic, Options.has, Options.has, Options.lowerCase_key (by simp),
      Options.lowerCase_key (by simp)]
    rfl
  have hchain : (Catalog.of grids).baseChain grid = [] := Catalog.baseChain_eq_nil rfl
  rw [hselection, Catalog.members, hchain]
  rfl

/-- The method that takes a list and an array is found by the texts of its parameter types, which
have no commas. -/
theorem method_prints_scale :
    let c := Catalog.of grids
    let o := Options.parse ["--type", "Grid", "--method", "Scale",
      "--parameters", "System.List<System.Int32>, System.Int32[]"]
    let entry : MemberEntry grids := ⟨grid, 0, .method scale⟩
    entry ∈ c.members grid .method (selection o) ∧ Text.eqFolded entry.name "Scale" = true ∧
    scale.parameters ≠ [] ∧ (∀ p ∈ scale.parameters, TypeRef.words.Builds p.type) ∧
    List.Forall₂ TypeRef.WrittenAs (scale.parameters.map (·.type))
      ["System.List<System.Int32>", " System.Int32[]"] ∧
    typeWithRemainder c o = (some grid, []) ∧ methodName? o [] = some "Scale" ∧
    (∀ p ∈ scale.parameters, TypeRef.undivided.Builds p.type) ∧
    entry ∈ matchingMethods c o grid "Scale" ∧
    ∃ before after, run c .method o = .ok (before ++ scale.details grid.type ++ after) := by
  intro c o entry
  have ho : o = gridOptions "Scale" "System.List<System.Int32>, System.Int32[]" :=
    parse_gridTokens (by decide) (by decide)
  have hentry : entry ∈ c.members grid .method (selection o) := by
    rw [ho, members_grid]
    exact List.mem_cons_self
  have hcalled : Text.eqFolded entry.name "Scale" = true := Text.eqFolded_refl "Scale"
  have hparameters : scale.parameters ≠ [] := List.cons_ne_nil _ _
  have htypes {p : TypeRef → Prop}
      (hlist : p (.generic "System.List`1" [.ofFullName "System.Int32"]))
      (harray : p (.array (.ofFullName "System.Int32") 1)) :
      ∀ parameter ∈ scale.parameters, p parameter.type := by
    simp [scale, hlist, harray]
  have hbuilt : ∀ p ∈ scale.parameters, TypeRef.words.Builds p.type := by
    have hint : TypeRef.words.Builds (.ofFullName "System.Int32") :=
      .type (by decide : Text.IsWord "System.Int32")
    have hlist : Text.IsWord "System.List`1" := by decide
    exact htypes (.generic hlist (by simp [hint])) (.array hint trivial)
  have hwritten : List.Forall₂ TypeRef.WrittenAs (scale.parameters.map (·.type))
      ["System.List<System.Int32>", " System.Int32[]"] :=
    .cons (by decide +kernel) (.cons (by decide +kernel) .nil)
  have hoption : o.get? "parameters" =
      some (Text.join "," ["System.List<System.Int32>", " System.Int32[]"]) := by
    rw [ho]
    decide +kernel
  have htype : typeWithRemainder c o = (some grid, []) := ho ▸ typeWithRemainder_grid _ _
  have hname : methodName? o [] = some "Scale" := by
    rw [ho]
    decide +kernel
  have hundivided : ∀ p ∈ scale.parameters, TypeRef.undivided.Builds p.type := by
    have hint : TypeRef.undivided.Builds (.ofFullName "System.Int32") := .type trivial
    have hone : [TypeRef.ofFullName "System.Int32"].length ≤ 1 := by decide
    have hrank : (1 : UInt32).toNat ≤ 1 := by decide
    exact htypes (.generic hone (by simp [hint])) (.array hint hrank)
  obtain ⟨hfound, hprints⟩ := method_prints_iff_undivided hentry rfl hcalled hparameters hbuilt
    hwritten hoption htype hname
  exact ⟨hentry, hcalled, hparameters, hbuilt, hwritten, htype, hname, hundivided,
    hfound.mpr hundivided, hprints hundivided⟩

/-- The method that takes an array of two dimensions is not found by the text of its parameter
type, which has a comma. -/
theorem method_misses_fill :
    let c := Catalog.of grids
    let o := Options.parse ["--type", "Grid", "--method", "Fill", "--parameters", "System.Int32[,]"]
    let entry : MemberEntry grids := ⟨grid, 1, .method fill⟩
    entry ∈ c.members grid .method (selection o) ∧ fill.parameters ≠ [] ∧
    (∀ p ∈ fill.parameters, TypeRef.words.Builds p.type) ∧
    typeWithRemainder c o = (some grid, []) ∧ methodName? o [] = some entry.name ∧
    o.get? "parameters" = some (Text.join "," (fill.parameters.map fun p => p.type.text)) ∧
    run c .method o = .error .methodNotFound := by
  intro c o entry
  have ho : o = gridOptions "Fill" "System.Int32[,]" := parse_gridTokens (by decide) (by decide)
  have hentry : entry ∈ c.members grid .method (selection o) := by
    rw [ho, members_grid]
    exact List.mem_cons_of_mem _ List.mem_cons_self
  have hbuilt : ∀ p ∈ fill.parameters, TypeRef.words.Builds p.type := by
    have hint : TypeRef.words.Builds (.ofFullName "System.Int32") :=
      .type (by decide : Text.IsWord "System.Int32")
    exact List.forall_mem_singleton.mpr (.array hint trivial)
  have htype : typeWithRemainder c o = (some grid, []) := ho ▸ typeWithRemainder_grid _ _
  have hname : methodName? o [] = some "Fill" := by
    rw [ho]
    decide +kernel
  have hoption : o.get? "parameters" = some "System.Int32[,]" := by
    rw [ho]
    decide +kernel
  have hmatching : matchingMethods c o grid "Fill" = [] := by
    have hwanted :
        wantedParameters? (gridOptions "Fill" "System.Int32[,]") = some ["System.Int32[", "]"] := by
      decide +kernel
    rw [ho, matchingMethods, members_grid, hwanted]
    decide +kernel
  refine ⟨hentry, List.cons_ne_nil _ _, hbuilt, htype, hname, hoption, ?_⟩
  simp only [run, method, htype, hname, hmatching]

end Query

end ModuleInspector
