import ModuleInspector.Proofs.Options.Switches
import ModuleInspector.Proofs.Text.Sorting
import ModuleInspector.Query.Run
import Mathlib.Data.List.FinRange

/-!
# The listing of types

The listing keeps the defined types that pass the visibility switches and the three filters and
sorts them by name. No filter looks at the switches, and sorting is stable, so a switch picks its
types out of the listing without any: the public ones and the others divide it between them.
-/

namespace ModuleInspector

namespace Entry

variable {m : Module}

/-- Whether the first of two defined types comes before the second one in native order. -/
def Precedes (e f : Entry m) : Prop := ∃ i j, e = .defined i ∧ f = .defined j ∧ i < j

/-- No two types come before each other. -/
theorem Precedes.asymm {e f : Entry m} (hef : e.Precedes f) : ¬f.Precedes e := by
  rintro ⟨j', i', hf, he, hji⟩
  obtain ⟨i, j, rfl, rfl, hij⟩ := hef
  obtain rfl := Entry.defined.inj he
  obtain rfl := Entry.defined.inj hf
  exact absurd hij (by omega)

end Entry

/-- The defined types are enumerated in native order. -/
theorem Module.pairwise_precedes_definedEntries (m : Module) :
    m.definedEntries.Pairwise Entry.Precedes := by
  rw [definedEntries, List.pairwise_map]
  exact (List.pairwise_lt_finRange _).imp fun {i j} hij => ⟨i, j, rfl, rfl, hij⟩

/-- The defined types are enumerated once each. -/
theorem Module.nodup_definedEntries (m : Module) : m.definedEntries.Nodup :=
  m.pairwise_precedes_definedEntries.imp fun {e f} hef hsame => by
    subst hsame
    exact hef.asymm hef

/-- Whether two sets of options have the same filters for the listing of types. -/
def Options.SameFilters (o o' : Options) : Prop :=
  ∀ key ∈ ["namespace", "filter", "base"], o.filled? key = o'.filled? key

/-- A final visibility switch leaves the filters of the listing as they are. -/
theorem Options.sameFilters_parse_append {token : String} (tokens : List String)
    (hswitch : token ∈ ["--public", "--nonpublic"]) :
    (parse (tokens ++ [token])).SameFilters (parse tokens) := by
  intro key hkey
  have hblank : Text.isBlank token = false := by
    revert token
    decide
  obtain ⟨name, hname, hother⟩ : ∃ name, keyOfToken? token = some name ∧
      Text.lowerCase key ≠ Text.lowerCase name := by
    simp only [List.mem_cons, List.not_mem_nil, or_false] at hswitch
    rcases hswitch with rfl | rfl
    · refine ⟨"public", by decide, ?_⟩
      revert key
      decide +kernel
    · refine ⟨"nonpublic", by decide, ?_⟩
      revert key
      decide +kernel
  exact filled?_parse_append_switch tokens hblank hname hother

namespace Query

variable {m : Module} {c : Catalog m}

/-- Whether a type passes all three filters. -/
def passesFilters (c : Catalog m) (o : Options) (e : Entry m) : Bool :=
  passesNamespace o e && passesFilter o e && passesBase c o e

/-- The filters read nothing but their own options. -/
theorem passesFilters_congr {o o' : Options} (hsame : o.SameFilters o') :
    passesFilters c o = passesFilters c o' := by
  have hnamespace : o.filled? "namespace" = o'.filled? "namespace" := hsame _ (by simp)
  have hfilter : o.filled? "filter" = o'.filled? "filter" := hsame _ (by simp)
  have hbase : o.filled? "base" = o'.filled? "base" := hsame _ (by simp)
  funext e
  simp only [passesFilters, passesNamespace, passesFilter, passesBase, hnamespace, hfilter, hbase]

/-- Whether the visibility switches show a type. A single switch shows its own kind; both switches
show as much as none. -/
def shownBy (o : Options) (e : Entry m) : Bool :=
  if o.has "public" = o.has "nonpublic" then true else e.type.isPublic == o.has "public"

/-- The switch for public types shows these. -/
theorem shownBy_eq_isPublic {o : Options} (hpublic : o.has "public" = true)
    (hothers : o.has "nonpublic" = false) :
    shownBy o = fun e : Entry m => e.type.isPublic := by
  funext e
  simp [shownBy, hpublic, hothers]

/-- The other switch shows the other types. -/
theorem shownBy_eq_not_isPublic {o : Options} (hpublic : o.has "public" = false)
    (hothers : o.has "nonpublic" = true) :
    shownBy o = fun e : Entry m => !e.type.isPublic := by
  funext e
  simp [shownBy, hpublic, hothers]

/-- The listing is sorted from the defined types that are shown and pass the filters. -/
theorem listedTypes_eq (c : Catalog m) (o : Options) :
    listedTypes c o = Text.sortFolded Entry.name
      (m.definedEntries.filter fun e => passesFilters c o e && shownBy o e) := by
  rw [listedTypes, Module.listed, List.filter_filter]
  congr 2
  funext e
  rw [passesFilters]
  congr 1
  rw [shownBy]
  cases o.has "public" <;> cases o.has "nonpublic" <;> cases e.type.isPublic <;> rfl

/-- The switches pick their types out of the listing without any switch. -/
theorem listedTypes_eq_filter {o o' : Options} (hpublic : o.has "public" = false)
    (hothers : o.has "nonpublic" = false) (hsame : o'.SameFilters o) :
    listedTypes c o' = (listedTypes c o).filter (shownBy o') := by
  have hall : ∀ e : Entry m, shownBy o e = true := fun e => by simp [shownBy, hpublic, hothers]
  simp only [listedTypes_eq, hall, Bool.and_true, passesFilters_congr hsame]
  rw [Text.filter_sortFolded, List.filter_filter]
  simp only [Bool.and_comm]

/-- No type is listed twice. -/
theorem nodup_listedTypes (c : Catalog m) (o : Options) : (listedTypes c o).Nodup := by
  rw [listedTypes_eq, (Text.sortFolded_perm _ _).nodup_iff]
  exact m.nodup_definedEntries.sublist List.filter_sublist

/-- Options without filters list as many types as their switches show. -/
theorem length_listedTypes {o : Options} (hplain : o.SameFilters (Options.parse [])) :
    (listedTypes c o).length = m.definedEntries.countP (shownBy o) := by
  have hall : ∀ e : Entry m, passesFilters c (Options.parse []) e = true := fun e => rfl
  rw [listedTypes_eq, (Text.sortFolded_perm _ _).length_eq, List.countP_eq_length_filter]
  simp only [passesFilters_congr hplain, hall, Bool.true_and]

/-- The summary counts the types that the listing shows without options, with the switch for
public types, and with the other switch. -/
theorem summary_typeCounts (c : Catalog m) :
    (summary m)[4]? = some (
      "Types: " ++ toString (listedTypes c (Options.parse [])).length ++
      " (public " ++ toString (listedTypes c (Options.parse ["--public"])).length ++
      ", nonpublic " ++ toString (listedTypes c (Options.parse ["--nonpublic"])).length ++ ")") := by
  have hall : (listedTypes c (Options.parse [])).length = m.definedEntries.length := by
    have hshown : shownBy (m := m) (Options.parse []) = fun _ => true := rfl
    rw [length_listedTypes (fun _ _ => rfl), hshown, List.countP_true]
  have hpublic : (listedTypes c (Options.parse ["--public"])).length =
      m.definedEntries.countP fun e => e.type.isPublic := by
    have hplain : (Options.parse ["--public"]).SameFilters (Options.parse []) :=
      Options.sameFilters_parse_append [] (by simp)
    rw [length_listedTypes hplain, shownBy_eq_isPublic (by decide +kernel) (by decide +kernel)]
  have hothers : (listedTypes c (Options.parse ["--nonpublic"])).length =
      m.definedEntries.countP fun e => !e.type.isPublic := by
    have hplain : (Options.parse ["--nonpublic"]).SameFilters (Options.parse []) :=
      Options.sameFilters_parse_append [] (by simp)
    rw [length_listedTypes hplain, shownBy_eq_not_isPublic (by decide +kernel) (by decide +kernel)]
  have hlisted : m.listed true true = m.definedEntries := by
    rw [Module.listed, List.filter_eq_self]
    intro e _
    cases e.type.isPublic <;> rfl
  have hrest : m.definedEntries.length - (m.definedEntries.countP fun e => e.type.isPublic) =
      m.definedEntries.countP fun e => !e.type.isPublic := by
    have hcounts := m.definedEntries.length_eq_countP_add_countP fun e => e.type.isPublic
    simp only [Bool.not_eq_true, Bool.decide_eq_false] at hcounts
    omega
  have hline : (summary m)[4]? = some ("Types: " ++ toString (m.listed true true).length ++
      " (public " ++ toString ((m.listed true true).countP fun e => e.type.isPublic) ++
      ", nonpublic " ++ toString ((m.listed true true).length -
        (m.listed true true).countP fun e => e.type.isPublic) ++ ")") := rfl
  rw [hline, hlisted, hrest, hall, hpublic, hothers]

/-- The listing shows the defined types that pass the filters, in the order of their names and in
native order where these are equal. With both visibility switches it is the same. With one of
them it consists of the public types or of the others, in the same order, so these two listings
have no type in common and make up the whole. Without filters their lengths are the three counts
of the summary. -/
theorem listedTypes_divided (m : Module) {o : Options} (hpublic : o.has "public" = false)
    (hothers : o.has "nonpublic" = false) :
    let c := Catalog.of m
    let whole := listedTypes c o
    (∀ other, run c .types other = .ok ((listedTypes c other).map fun e => e.type.line)) ∧
    (∀ e, e ∈ whole ↔ e ∈ m.definedEntries ∧ passesNamespace o e = true ∧
      passesFilter o e = true ∧ passesBase c o e = true) ∧
    whole.Pairwise (Text.ListedBefore Entry.name Entry.Precedes) ∧
    (∀ both : Options, both.SameFilters o → both.has "public" = true →
      both.has "nonpublic" = true → listedTypes c both = whole) ∧
    (∀ publicOnly othersOnly : Options,
      publicOnly.SameFilters o → publicOnly.has "public" = true →
      publicOnly.has "nonpublic" = false →
      othersOnly.SameFilters o → othersOnly.has "public" = false →
      othersOnly.has "nonpublic" = true →
      listedTypes c publicOnly = whole.filter (fun e => e.type.isPublic) ∧
      listedTypes c othersOnly = whole.filter (fun e => !e.type.isPublic) ∧
      (listedTypes c publicOnly).Disjoint (listedTypes c othersOnly) ∧
      (listedTypes c publicOnly ++ listedTypes c othersOnly).Perm whole ∧ whole.Nodup) ∧
    (summary m)[4]? = some (
      "Types: " ++ toString (listedTypes c (Options.parse [])).length ++
      " (public " ++ toString (listedTypes c (Options.parse ["--public"])).length ++
      ", nonpublic " ++ toString (listedTypes c (Options.parse ["--nonpublic"])).length ++ ")") := by
  intro c whole
  refine ⟨fun other => rfl, fun e => ?_, ?_, fun both hsame hboth hboth' => ?_,
    fun publicOnly othersOnly hsame hp hp' hsame' hn hn' => ?_, summary_typeCounts c⟩
  · have hshown : shownBy o e = true := by simp [shownBy, hpublic, hothers]
    simp only [whole, listedTypes_eq, (Text.sortFolded_perm _ _).mem_iff, List.mem_filter,
      passesFilters, hshown, Bool.and_true, Bool.and_eq_true, and_assoc]
  · rw [show whole = _ from listedTypes_eq c o]
    exact Text.pairwise_listedBefore_sortFolded
      (m.pairwise_precedes_definedEntries.sublist List.filter_sublist)
  · rw [listedTypes_eq_filter hpublic hothers hsame, List.filter_eq_self]
    intro e _
    simp [shownBy, hboth, hboth']
  · have hpublics : listedTypes c publicOnly = whole.filter fun e => e.type.isPublic := by
      rw [listedTypes_eq_filter hpublic hothers hsame, shownBy_eq_isPublic hp hp']
    have hrest : listedTypes c othersOnly = whole.filter fun e => !e.type.isPublic := by
      rw [listedTypes_eq_filter hpublic hothers hsame', shownBy_eq_not_isPublic hn hn']
    rw [hpublics, hrest]
    refine ⟨rfl, rfl, ?_, List.filter_append_perm _ _, nodup_listedTypes c o⟩
    intro e he he'
    have hshown := (List.mem_filter.mp he).2
    have hhidden := (List.mem_filter.mp he').2
    rw [hshown] at hhidden
    cases hhidden

/-- A module with an internal type between public ones. -/
def mixedTypes : Module where
  identity := ⟨"Gears", none, none, none, none⟩
  location := ""
  files := []
  types := [.ofName "Acme" "Worm" 1, .ofName "Acme" "Cog" 0, .ofName "Other" "Rack" 1]
  referencedTypes := []
  resources := []
  entryPoint := none

/-- In `mixedTypes` the two listings of a namespace with one switch each make up the one without,
and the one with both switches equals it. -/
theorem listedTypes_mixedTypes :
    let c := Catalog.of mixedTypes
    let o := Options.parse ["--namespace", "acme"]
    let publicOnly := Options.parse ["--namespace", "acme", "--public"]
    let othersOnly := Options.parse ["--namespace", "acme", "--nonpublic"]
    let both := Options.parse ["--namespace", "acme", "--public", "--nonpublic"]
    (o.has "public" = false ∧ o.has "nonpublic" = false) ∧
    (both.SameFilters o ∧ both.has "public" = true ∧ both.has "nonpublic" = true ∧
      listedTypes c both = listedTypes c o) ∧
    (publicOnly.SameFilters o ∧ publicOnly.has "public" = true ∧
      publicOnly.has "nonpublic" = false) ∧
    (othersOnly.SameFilters o ∧ othersOnly.has "public" = false ∧
      othersOnly.has "nonpublic" = true) ∧
    (listedTypes c publicOnly ++ listedTypes c othersOnly).Perm (listedTypes c o) := by
  intro c o publicOnly othersOnly both
  have hplain : o.has "public" = false ∧ o.has "nonpublic" = false := by decide +kernel
  have hpublic : publicOnly.SameFilters o :=
    Options.sameFilters_parse_append ["--namespace", "acme"] (by simp)
  have hothers : othersOnly.SameFilters o :=
    Options.sameFilters_parse_append ["--namespace", "acme"] (by simp)
  have hboth : both.SameFilters o := fun key hkey =>
    (Options.sameFilters_parse_append ["--namespace", "acme", "--public"] (by simp) key hkey).trans
      (hpublic key hkey)
  have hpublicSwitches : publicOnly.has "public" = true ∧ publicOnly.has "nonpublic" = false := by
    decide +kernel
  have hothersSwitches : othersOnly.has "public" = false ∧ othersOnly.has "nonpublic" = true := by
    decide +kernel
  have hbothSwitches : both.has "public" = true ∧ both.has "nonpublic" = true := by
    decide +kernel
  obtain ⟨-, -, -, hwhole, hdivided, -⟩ := listedTypes_divided mixedTypes hplain.1 hplain.2
  obtain ⟨-, -, -, hperm, -⟩ := hdivided publicOnly othersOnly hpublic hpublicSwitches.1
    hpublicSwitches.2 hothers hothersSwitches.1 hothersSwitches.2
  exact ⟨hplain, ⟨hboth, hbothSwitches.1, hbothSwitches.2,
    hwhole both hboth hbothSwitches.1 hbothSwitches.2⟩, ⟨hpublic, hpublicSwitches⟩,
    ⟨hothers, hothersSwitches⟩, hperm⟩

end Query

end ModuleInspector
