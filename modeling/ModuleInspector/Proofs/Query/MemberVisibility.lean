import ModuleInspector.Proofs.Catalog.MemberSelection
import ModuleInspector.Proofs.Query.MemberViews

/-!
# Members with and without the visibility switch

The member listing sorts the members of each kind on its own. Its order looks at names, and for
constructors at signatures that no switch changes, so the listing without the visibility switch
consists of the public members of the listing with it, in the same order.
-/

namespace ModuleInspector

variable {m : Module}

/-- The visibility switch widens the selection. -/
theorem Selection.narrows_forVisibility : (forVisibility false).Narrows (forVisibility true) where
  declaredOnly := id
  instances := id
  statics := id
  publics := id
  nonPublics _ := rfl

/-- Without the visibility switch the public members are selected. -/
theorem MemberEntry.selectedBy_forVisibility (entry : MemberEntry m) :
    entry.selectedBy (.forVisibility false) = entry.member.isPublic := by
  simp [selectedBy, Selection.selects, Selection.forVisibility]

/-- The visibility switch changes the signatures of properties only. -/
theorem MemberEntry.signature_constructor {entry : MemberEntry m}
    (hkind : entry.member.kind = .constructor) (b : Bool) :
    entry.signature b = entry.signature true := by
  obtain ⟨declaring, index, member⟩ := entry
  cases member with
  | constructor => rfl
  | _ => cases hkind

namespace Query

/-- The members behind the lines of the member listing, in printed order. -/
def printedMembers (c : Catalog m) (o : Options) : Except QueryError (List (MemberEntry m)) :=
  match typeWithRemainder c o with
  | (none, _) => .error .typeNotFound
  | (some e, remainder) =>
    .ok ((MemberKind.all.filter fun kind => (selectedKinds o remainder).contains kind).flatMap
      (listedMembers c o e))

/-- The lines of the member listing are the signatures of the members behind them. -/
theorem members_eq_map_printedMembers (c : Catalog m) (o : Options) :
    members c o =
      (printedMembers c o).map (List.map (MemberEntry.signature (includeNonPublic o))) := by
  rw [members, printedMembers]
  obtain ⟨found, remainder⟩ := typeWithRemainder c o
  cases found with
  | none => rfl
  | some e => exact congrArg Except.ok List.map_flatMap.symm

/-- The members of a kind that are listed without the visibility switch are the public ones of
those that are listed with it. -/
theorem listedMembers_eq_filter (c : Catalog m) (e : Entry m) (kind : MemberKind)
    {o all : Options} (hplain : includeNonPublic o = false) (hall : includeNonPublic all = true) :
    listedMembers c o e kind =
      (listedMembers c all e kind).filter fun entry => entry.member.isPublic := by
  have hmembers : c.members e kind (.forVisibility false) =
      (c.members e kind (.forVisibility true)).filter fun entry => entry.member.isPublic := by
    rw [Catalog.members_eq_filter c e kind Selection.narrows_forVisibility rfl]
    exact congrArg (List.filter · _) (funext MemberEntry.selectedBy_forVisibility)
  rw [listedMembers, listedMembers, selection, selection, hplain, hall, hmembers]
  split
  next hkind =>
    subst hkind
    rw [Text.filter_sortOrdinal]
    refine Text.sortOrdinal_congr fun entry hentry => ?_
    exact entry.signature_constructor
      (Catalog.kind_of_mem_members (List.mem_of_mem_filter hentry)) false
  next => rw [Text.filter_sortOrdinal]

/-- Options with the same type, the same kinds and no difference but the visibility switch list the
public members and all members. -/
theorem printedMembers_eq_filter (c : Catalog m) {o all : Options}
    (hidentifier : typeIdentifier o = typeIdentifier all)
    (hkinds : o.getAll "kind" = all.getAll "kind")
    (hplain : includeNonPublic o = false) (hall : includeNonPublic all = true) :
    printedMembers c o =
      (printedMembers c all).map (List.filter fun entry => entry.member.isPublic) := by
  have hfound : typeWithRemainder c o = typeWithRemainder c all := by
    rw [typeWithRemainder, typeWithRemainder, hidentifier]
  rw [printedMembers, printedMembers, hfound]
  obtain ⟨found, remainder⟩ := typeWithRemainder c all
  cases found with
  | none => rfl
  | some e =>
    have hselected : selectedKinds o remainder = selectedKinds all remainder := by
      rw [selectedKinds, selectedKinds, hkinds]
    have hlisted : listedMembers c o e = fun kind =>
        (listedMembers c all e kind).filter fun entry => entry.member.isPublic :=
      funext fun kind => listedMembers_eq_filter c e kind hplain hall
    simp only [Except.map, List.filter_flatMap, hselected, hlisted]

/-- A final visibility switch asks for all members, and leaves the type and the kinds alone. -/
theorem reads_append_nonPublic (tokens : List String) :
    includeNonPublic (Options.parse (tokens ++ ["--nonpublic"])) = true ∧
    typeIdentifier (Options.parse tokens) =
      typeIdentifier (Options.parse (tokens ++ ["--nonpublic"])) ∧
    (Options.parse tokens).getAll "kind" =
      (Options.parse (tokens ++ ["--nonpublic"])).getAll "kind" := by
  have hparse : Options.parse (tokens ++ ["--nonpublic"]) =
      ⟨Options.addValue "nonpublic" "true" (Options.parse tokens).values,
        (Options.parse tokens).positional⟩ :=
    Options.parse_append_visibility tokens true
  have hlookup {key : String} (hkey : key ∈ ["type", "kind"]) :
      (Options.parse (tokens ++ ["--nonpublic"])).values.lookup (Text.lowerCase key) =
        (Options.parse tokens).values.lookup (Text.lowerCase key) := by
    refine Options.lookup_parse_append_visibility tokens true ?_
    revert key
    decide +kernel
  refine ⟨?_, ?_, ?_⟩
  · have hswitch : (Options.parse (tokens ++ ["--nonpublic"])).has "nonpublic" = true := by
      rw [Options.has, Options.lowerCase_key (by simp), hparse, Options.lookup_addValue, if_pos rfl]
      rfl
    rw [includeNonPublic, hswitch, Bool.or_true]
  · have htype : (Options.parse (tokens ++ ["--nonpublic"])).filled? "type" =
        (Options.parse tokens).filled? "type" := by
      rw [Options.filled?, Options.filled?, Options.get?, Options.get?, Options.getAll,
        Options.getAll, hlookup (by simp)]
    rw [typeIdentifier, typeIdentifier, htype, hparse]
  · rw [Options.getAll, Options.getAll, hlookup (by simp)]

/-- Selecting members is filtering them. The members that a selection shows are those of the widest
selection of the same reach that it selects, in the same order, so narrowing a selection drops
members, and neither reveals, reorders nor repeats any. The member listing without the visibility
switch consists of the public members of the listing with it, in printed order. -/
theorem members_filter_widest (m : Module) :
    let c := Catalog.of m
    (∀ (e : Entry m) (kind : MemberKind) (s : Selection), c.members e kind s =
      (c.members e kind s.widened).filter fun entry =>
        s.selects entry.member.isPublic entry.member.isStatic) ∧
    (∀ (e : Entry m) (kind : MemberKind) (s t : Selection), s.Narrows t →
      (c.members e kind s).Sublist (c.members e kind t) ∧
        ((c.members e kind s).map MemberEntry.place).Nodup) ∧
    ∀ tokens : List String, includeNonPublic (Options.parse tokens) = false →
      let o := Options.parse tokens
      let all := Options.parse (tokens ++ ["--nonpublic"])
      run c .members o = (printedMembers c o).map (List.map (MemberEntry.signature false)) ∧
      run c .members all = (printedMembers c all).map (List.map (MemberEntry.signature true)) ∧
      printedMembers c o =
        (printedMembers c all).map (List.filter fun entry => entry.member.isPublic) := by
  intro c
  refine ⟨fun e kind s => ?_, fun e kind s t hnarrow => ?_, fun tokens hplain => ?_⟩
  · exact Catalog.members_eq_filter c e kind s.narrows_widened rfl
  · exact ⟨Catalog.members_sublist c e kind hnarrow, Catalog.nodup_place_members c e kind s⟩
  · intro o all
    obtain ⟨hswitch, hidentifier, hkinds⟩ := reads_append_nonPublic tokens
    refine ⟨?_, ?_, printedMembers_eq_filter c hidentifier hkinds hplain hswitch⟩
    · rw [run, members_eq_map_printedMembers, hplain]
    · rw [run, members_eq_map_printedMembers, hswitch]

/-- A worm whose internal method hides the public one of its base. -/
def shadowingWorm : Module where
  identity := ⟨"Gears", none, none, none, none⟩
  location := ""
  files := []
  types := [{ TypeDef.ofName "" "Worm" 1 with
      base := some (.ofFullName "Gear"), members := [.method (.ofName "Turn" 3)] },
    { TypeDef.ofName "" "Gear" 1 with
      members := [.method (.ofName "Turn" 6), .method (.ofName "Stop" 6)] }]
  referencedTypes := []
  resources := []
  entryPoint := none

/-- The switch adds the internal method of the worm, and leaves the public ones in their order. -/
theorem members_shadowingWorm :
    let c := Catalog.of shadowingWorm
    let worm : Entry shadowingWorm := .defined ⟨0, by decide⟩
    ((Selection.forVisibility false).Narrows (.forVisibility true) ∧
      includeNonPublic (Options.parse ["worm"]) = false) ∧
    (c.members worm .method (.forVisibility false)).Sublist
      (c.members worm .method (.forVisibility true)) ∧
    printedMembers c (Options.parse ["worm"]) =
      (printedMembers c (Options.parse ["worm", "--nonpublic"])).map
        (List.filter fun entry => entry.member.isPublic) := by
  intro c worm
  have hplain : includeNonPublic (Options.parse ["worm"]) = false := by decide +kernel
  obtain ⟨-, hnarrowed, hlisted⟩ := members_filter_widest shadowingWorm
  obtain ⟨hsublist, -⟩ := hnarrowed worm .method _ _ Selection.narrows_forVisibility
  obtain ⟨-, -, hprinted⟩ := hlisted ["worm"] hplain
  exact ⟨⟨Selection.narrows_forVisibility, hplain⟩, hsublist, hprinted⟩

end Query

end ModuleInspector
