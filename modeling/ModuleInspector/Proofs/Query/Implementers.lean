import ModuleInspector.Proofs.Query.MemberViews
import ModuleInspector.Proofs.Query.TypeListing

/-!
# The types that may stand for a type

The listing of types with a base and the listing of implementers look up the type in their own ways
and show different types by default. Where they show the same visibilities they list the same
types: both put the defined types to one test and sort them by name.
-/

namespace ModuleInspector

namespace Options

/-- The options of a base and possibly the switch for public types. -/
theorem parse_base {base : String} (hbase : IsArgument base) (onlyPublic : Bool) :
    parse ((if onlyPublic then ["--public"] else []) ++ ["--base", base]) =
      ⟨(if onlyPublic then [("public", ["true"])] else []) ++ [("base", [base])], []⟩ := by
  have hkey : keyOfToken? "--base" = some "base" := by decide
  have hlower : Text.lowerCase "base" = "base" := lowerCase_key (by simp)
  rw [parse_append_argument _ (by decide) hkey hbase, hlower]
  cases onlyPublic with
  | false => rfl
  | true =>
    have hswitchKey : keyOfToken? "--public" = some "public" := by decide
    have hswitchLower : Text.lowerCase "public" = "public" := lowerCase_key (by simp)
    have hswitch := parse_append_switch [] (by decide) hswitchKey
    rw [hswitchLower] at hswitch
    rw [if_pos rfl, ← List.nil_append ["--public"], hswitch]
    rfl

end Options

namespace Query

variable {m : Module}

section Tokens

variable {X : String} (hX : Options.IsArgument X)

include hX

/-- What the listing of types reads from a base. -/
theorem reads_base (onlyPublic : Bool) :
    let o := Options.parse ((if onlyPublic then ["--public"] else []) ++ ["--base", X])
    o.has "public" = onlyPublic ∧ o.has "nonpublic" = false ∧ o.filled? "namespace" = none ∧
      o.filled? "filter" = none ∧ o.filled? "base" = some X := by
  intro o
  have ho : o = _ := Options.parse_base hX onlyPublic
  obtain ⟨hpublic, hothers, hnamespace, hfilter, hbase⟩ :
      Text.lowerCase "public" = "public" ∧ Text.lowerCase "nonpublic" = "nonpublic" ∧
        Text.lowerCase "namespace" = "namespace" ∧ Text.lowerCase "filter" = "filter" ∧
        Text.lowerCase "base" = "base" := by
    refine ⟨?_, ?_, ?_, ?_, ?_⟩ <;> exact Options.lowerCase_key (by simp)
  simp only [Options.has, Options.filled?, Options.get?, Options.getAll, hpublic, hothers,
    hnamespace, hfilter, hbase, ho]
  cases onlyPublic <;> simp [Options.lookup_cons_eq_ite, hX.1]

/-- What the listing of implementers reads from a type. -/
theorem reads_reference (nonPublic : Bool) :
    let o := Options.parse (X :: Options.visibilityTokens nonPublic)
    (identifier? o ["type", "interface"]).filter (fun text => !Text.isBlank text) = some X ∧
      includeNonPublic o = nonPublic := by
  intro o
  have ho : o = ⟨if nonPublic then [("nonpublic", ["true"])] else [], [X]⟩ := by
    have hparse := Options.parse_append_visibility [X] nonPublic
    have hone : Options.parse [X] = ⟨[], [X]⟩ := Options.parse_pattern hX false
    rwa [hone] at hparse
  obtain ⟨htype, hinterface, hothers, hall⟩ :
      Text.lowerCase "type" = "type" ∧ Text.lowerCase "interface" = "interface" ∧
        Text.lowerCase "nonpublic" = "nonpublic" ∧
        Text.lowerCase "include-nonpublic" = "include-nonpublic" := by
    refine ⟨?_, ?_, ?_, ?_⟩ <;> exact Options.lowerCase_key (by simp)
  simp only [identifier?, Options.firstOf?, includeNonPublic, Options.has, Options.filled?,
    Options.get?, Options.getAll, List.findSome?_cons, List.findSome?_nil, htype, hinterface,
    hothers, hall, ho]
  cases nonPublic <;> simp [Options.lookup_cons_eq_ite, hX.1]

end Tokens

/-- The implementers of a type are the visible defined types that may stand for it, other than the
type itself. -/
theorem mem_implementersOf_iff {c : Catalog m} {nonPublic : Bool} {t e : Entry m} :
    e ∈ implementersOf c nonPublic t ↔
      e ∈ m.definedEntries ∧ (nonPublic = true ∨ e.type.isPublic = true) ∧ e ≠ t ∧
        c.isAssignable t e = true := by
  have hlisted : e ∈ m.listed true nonPublic ↔
      e ∈ m.definedEntries ∧ (nonPublic = true ∨ e.type.isPublic = true) := by
    rw [Module.listed, List.mem_filter]
    cases nonPublic <;> cases e.type.isPublic <;> simp
  rw [implementersOf, (Text.sortFolded_perm _ _).mem_iff, List.mem_filter, hlisted]
  simp only [Bool.and_eq_true, decide_eq_true_eq, ne_eq, and_assoc]

/-- The implementers of a type are in the order of their names, and in native order where these are
equal. -/
theorem pairwise_implementersOf (c : Catalog m) (nonPublic : Bool) (t : Entry m) :
    (implementersOf c nonPublic t).Pairwise (Text.ListedBefore Entry.name Entry.Precedes) :=
  Text.pairwise_listedBefore_sortFolded (m.pairwise_precedes_definedEntries.sublist
    (List.filter_sublist.trans List.filter_sublist))

/-- No implementer is listed twice. -/
theorem nodup_implementersOf (c : Catalog m) (nonPublic : Bool) (t : Entry m) :
    (implementersOf c nonPublic t).Nodup := by
  rw [implementersOf, (Text.sortFolded_perm _ _).nodup_iff]
  exact m.nodup_definedEntries.sublist (List.filter_sublist.trans List.filter_sublist)

/-- The listed types with a base are its implementers, where the switch for public types takes the
place of the absent switch for the others. -/
theorem listedTypes_base {c : Catalog m} {X : String} (hX : Options.IsArgument X) {t : Entry m}
    (hfound : c.findType? X = some t) (nonPublic : Bool) :
    listedTypes c (Options.parse ((if !nonPublic then ["--public"] else []) ++ ["--base", X])) =
      implementersOf c nonPublic t := by
  obtain ⟨hpublic, hothers, hnamespace, hfilter, hbase⟩ := reads_base hX !nonPublic
  rw [listedTypes, implementersOf]
  simp only [passesNamespace, passesFilter, passesBase, hpublic, hothers, hnamespace, hfilter,
    hbase, hfound, Bool.not_false, Bool.true_or, Bool.not_not, Bool.or_false, Bool.true_and]

/-- The implementers of a type and the listed types that have it as a base are the same types in
the same order, where the one shows the types that are not public as well and the other one is not
asked for public types only, and also where both show public types only. They are the visible
defined types for which the type is assignable, other than the type itself, each once, in the order
of their names and in native order where these are equal. For an identifier that names no type the
implementers are an error and the listing is not. -/
theorem implementers_eq_listedTypes (m : Module) {X : String} (hX : Options.IsArgument X) :
    let c := Catalog.of m
    let ofReference := fun nonPublic => Options.parse (X :: Options.visibilityTokens nonPublic)
    let ofBase := fun onlyPublic : Bool =>
      Options.parse ((if onlyPublic then ["--public"] else []) ++ ["--base", X])
    (∀ t, c.findType? X = some t → ∀ nonPublic : Bool,
      let selected := implementersOf c nonPublic t
      run c .implementers (ofReference nonPublic) =
        .ok (selected.map fun e => e.name ++ " [" ++ e.type.kindLabel ++ "]") ∧
      run c .types (ofBase !nonPublic) = .ok (selected.map fun e => e.type.line) ∧
      listedTypes c (ofBase !nonPublic) = selected ∧
      (∀ e, e ∈ selected ↔ e ∈ m.definedEntries ∧ (nonPublic = true ∨ e.type.isPublic = true) ∧
        e ≠ t ∧ c.isAssignable t e = true) ∧
      t ∉ selected ∧ selected.Nodup ∧
      selected.Pairwise (Text.ListedBefore Entry.name Entry.Precedes)) ∧
    (c.findType? X = none → ∀ nonPublic, run c .implementers (ofReference nonPublic) =
      .error .referenceTypeNotFound) ∧
    QueryError.referenceTypeNotFound.message = "Reference type not found" ∧
    ∀ onlyPublic, ∃ lines, run c .types (ofBase onlyPublic) = .ok lines := by
  intro c ofReference ofBase
  have hread (nonPublic : Bool) :
      (identifier? (ofReference nonPublic) ["type", "interface"]).filter
        (fun text => !Text.isBlank text) = some X ∧
      includeNonPublic (ofReference nonPublic) = nonPublic := reads_reference hX nonPublic
  refine ⟨fun t hfound nonPublic => ?_, fun hnone nonPublic => ?_, rfl, fun onlyPublic => ⟨_, rfl⟩⟩
  · obtain ⟨hidentifier, hvisible⟩ := hread nonPublic
    have hbase := listedTypes_base hX hfound nonPublic
    refine ⟨?_, ?_, hbase, fun e => mem_implementersOf_iff, ?_, nodup_implementersOf c nonPublic t,
      pairwise_implementersOf c nonPublic t⟩
    · rw [run, implementers, hidentifier]
      simp only [hfound, hvisible]
    · rw [run, types, hbase]
    · intro hself
      exact (mem_implementersOf_iff.mp hself).2.2.1 rfl
  · obtain ⟨hidentifier, -⟩ := hread nonPublic
    rw [run, implementers, hidentifier]
    simp only [hnone]

/-- A base with a public and an internal derived type. -/
def bevelGears : Module where
  identity := ⟨"Gears", none, none, none, none⟩
  location := ""
  files := []
  types := [.ofName "Acme" "Gear" 1,
    { TypeDef.ofName "Acme" "Spiral" 0 with base := some (.ofFullName "Acme.Gear") },
    { TypeDef.ofName "Acme" "Bevel" 1 with base := some (.ofFullName "Acme.Gear") }]
  referencedTypes := []
  resources := []
  entryPoint := none

/-- The gears of `bevelGears` are listed alike as implementers and by their base, with and without
the internal one, and a name that no type has is an error for the implementers alone. -/
theorem implementers_bevelGears :
    let c := Catalog.of bevelGears
    (Options.IsArgument "Acme.Gear" ∧ ∃ t, c.findType? "Acme.Gear" = some t ∧
      listedTypes c (Options.parse ["--base", "Acme.Gear"]) = implementersOf c true t ∧
      listedTypes c (Options.parse ["--public", "--base", "Acme.Gear"]) =
        implementersOf c false t) ∧
    Options.IsArgument "Rack" ∧ c.findType? "Rack" = none ∧
      run c .implementers (Options.parse ["Rack"]) = .error .referenceTypeNotFound := by
  intro c
  have hX : Options.IsArgument "Acme.Gear" := by decide
  have hother : Options.IsArgument "Rack" := by decide
  obtain ⟨j, hfound, -⟩ := Catalog.findType?_fullName (m := bevelGears) (i := ⟨0, by decide⟩) hX.1
  have hnone : c.findType? "Rack" = none :=
    (Catalog.findType?_eq_none_iff_eqFolded hother.1).mpr (by decide +kernel)
  obtain ⟨hselected, -⟩ := implementers_eq_listedTypes bevelGears hX
  obtain ⟨-, -, hall, -⟩ := hselected _ hfound true
  obtain ⟨-, -, hpublic, -⟩ := hselected _ hfound false
  obtain ⟨-, hfails, -⟩ := implementers_eq_listedTypes bevelGears hother
  exact ⟨⟨hX, _, hfound, hall, hpublic⟩, hother, hnone, hfails hnone false⟩

end Query

end ModuleInspector
