import ModuleInspector.Catalog.Members
import ModuleInspector.Proofs.Catalog.Identifier
import Mathlib.Data.List.Find

/-!
# Renumbering the types of a module

A module whose lists of types are put in another order has the same types at other positions.
Where names are distinct, everything a catalog computes from one type is the same at the new
positions: what references resolve to, bases, interfaces and members. What it collects from all
types is the same up to order.
-/

namespace ModuleInspector

/-- The same module with both lists of types in any order. -/
structure Module.Reordered (m m' : Module) : Prop where
  identity : m'.identity = m.identity
  location : m'.location = m.location
  files : m'.files = m.files
  types : m.types.Perm m'.types
  referencedTypes : m.referencedTypes.Perm m'.referencedTypes
  resources : m'.resources = m.resources
  entryPoint : m'.entryPoint = m.entryPoint

/-- No two defined types have names that are equal without regard to case, and no two outside
types have the same name. -/
structure Module.DistinctNames (m : Module) : Prop where
  types : m.types.Pairwise fun t u => Text.eqFolded t.fullName u.fullName = false
  referencedTypes : (m.referencedTypes.map TypeDef.fullName).Nodup

namespace Module.DistinctNames

variable {m m' : Module}

/-- The folded names of the defined types are distinct. -/
theorem nodup_fold (hdistinct : m.DistinctNames) :
    (m.types.map fun t => Text.fold t.fullName).Nodup := by
  refine List.pairwise_map.mpr (hdistinct.types.imp fun hnames hfold => ?_)
  rw [Text.eqFolded_iff.mpr hfold] at hnames
  cases hnames

/-- Any order of the types keeps the names distinct. -/
theorem of_reordered (hdistinct : m.DistinctNames) (hreordered : m.Reordered m') :
    m'.DistinctNames where
  types := by
    refine (hreordered.types.pairwise_iff fun {t u} hnames => ?_).mp hdistinct.types
    rw [Bool.eq_false_iff, ne_eq, Text.eqFolded_iff] at hnames ⊢
    exact fun hfold => hnames hfold.symm
  referencedTypes := (hreordered.referencedTypes.map _).nodup_iff.mp hdistinct.referencedTypes

private theorem eq_of_key_eq {α : Type} {types : List TypeDef} {key : TypeDef → α}
    (hkeys : (types.map key).Nodup) {i j : Fin types.length} (hkey : key types[i] = key types[j]) :
    i = j := by
  have hvals := (@List.Nodup.getElem_inj_iff _ _ hkeys i (by simp) j (by simp)).mp
    (by simpa using hkey)
  exact Fin.ext hvals

/-- Defined types with names that are equal without regard to case are the same. -/
theorem eq_of_eqFolded (hdistinct : m.DistinctNames) {e f : Entry m}
    (he : e ∈ m.definedEntries) (hf : f ∈ m.definedEntries)
    (hnames : Text.eqFolded e.name f.name = true) : e = f := by
  obtain ⟨i, -, rfl⟩ := List.mem_map.mp he
  obtain ⟨j, -, rfl⟩ := List.mem_map.mp hf
  exact congrArg _ (eq_of_key_eq hdistinct.nodup_fold (Text.eqFolded_iff.mp hnames))

/-- Outside types with the same name are the same. -/
theorem eq_of_name_eq (hdistinct : m.DistinctNames) {e f : Entry m}
    (he : e ∈ m.referencedEntries) (hf : f ∈ m.referencedEntries) (hnames : e.name = f.name) :
    e = f := by
  obtain ⟨i, -, rfl⟩ := List.mem_map.mp he
  obtain ⟨j, -, rfl⟩ := List.mem_map.mp hf
  exact congrArg _ (eq_of_key_eq hdistinct.referencedTypes hnames)

end Module.DistinctNames

/-- An entry at a new position, by one map for the defined types and one for the outside types. -/
def Entry.map {m m' : Module} (ofDefined : Fin m.types.length → Fin m'.types.length)
    (ofReferenced : Fin m.referencedTypes.length → Fin m'.referencedTypes.length) :
    Entry m → Entry m'
  | defined i => defined (ofDefined i)
  | referenced i => referenced (ofReferenced i)

/-- The positions of the types of a module in another one, which has the same types in any
order. -/
structure Renumbering (m m' : Module) where
  toEntry : Entry m → Entry m'
  injective : Function.Injective toEntry
  type_eq : ∀ e, (toEntry e).type = e.type
  defined : (m.definedEntries.map toEntry).Perm m'.definedEntries
  referenced : (m.referencedEntries.map toEntry).Perm m'.referencedEntries

instance {m m' : Module} : CoeFun (Renumbering m m') fun _ => Entry m → Entry m' :=
  ⟨Renumbering.toEntry⟩

namespace Module

variable {m m' : Module}

private theorem exists_positions {types types' : List TypeDef} (hperm : types.Perm types')
    (hnodup : types.Nodup) : ∃ position : Fin types.length → Fin types'.length,
      Function.Injective position ∧ (∀ i, types'.get (position i) = types.get i) ∧
      ((List.finRange types.length).map position).Perm (List.finRange types'.length) := by
  have hfound : ∀ i, ∃ j, types'.get j = types.get i := fun i =>
    List.get_of_mem (hperm.mem_iff.mp (List.get_mem types i))
  choose position hposition using hfound
  have hinjective : Function.Injective position := by
    intro i j hij
    have htypes : types.get i = types.get j := by rw [← hposition i, ← hposition j, hij]
    exact hnodup.injective_get htypes
  refine ⟨position, hinjective, hposition, ?_⟩
  rw [List.perm_ext_iff_of_nodup ((List.nodup_finRange _).map hinjective) (List.nodup_finRange _)]
  intro j
  obtain ⟨i, hi⟩ := List.get_of_mem (hperm.mem_iff.mpr (List.get_mem types' j))
  have hj : position i = j :=
    (hperm.nodup_iff.mp hnodup).injective_get ((hposition i).trans hi)
  simp [← hj]

/-- Modules with the same distinct types in any order have a renumbering. -/
theorem Reordered.exists_renumbering (hreordered : m.Reordered m')
    (hdistinct : m.DistinctNames) : Nonempty (Renumbering m m') := by
  obtain ⟨ofDefined, hinjective, htypes, hdefined⟩ :=
    exists_positions hreordered.types hdistinct.nodup_fold.of_map
  obtain ⟨ofReferenced, hinjective', htypes', hreferenced⟩ :=
    exists_positions hreordered.referencedTypes hdistinct.referencedTypes.of_map
  refine ⟨⟨.map ofDefined ofReferenced, ?_, ?_, ?_, ?_⟩⟩
  · rintro (i | i) (j | j) hij
    · exact congrArg _ (hinjective (Entry.defined.inj hij))
    · cases hij
    · cases hij
    · exact congrArg _ (hinjective' (Entry.referenced.inj hij))
  · rintro (i | i)
    · exact htypes i
    · exact htypes' i
  · have hmapped := hdefined.map (@Entry.defined m')
    rw [List.map_map] at hmapped
    rwa [definedEntries, List.map_map]
  · have hmapped := hreferenced.map (@Entry.referenced m')
    rw [List.map_map] at hmapped
    rwa [referencedEntries, List.map_map]

/-- Whether a text is the qualified name of a defined type, in any case, or else names no defined
type in any way. -/
def QualifiedOrUnknown (m : Module) (identifier : String) : Prop :=
  (∃ t ∈ m.types, Text.eqFolded t.fullName identifier = true) ∨
    ∀ way : NameMatch, ∀ t ∈ m.types, way.accepts identifier t = false

end Module

namespace Renumbering

variable {m m' : Module} (r : Renumbering m m')

@[simp] theorem name_eq (e : Entry m) : (r e).name = e.name := by
  rw [Entry.name, r.type_eq, Entry.name]

/-- Of types that are the same up to order, those that pass a test are. -/
theorem filter_perm {entries : List (Entry m)} {entries' : List (Entry m')}
    (hperm : (entries.map r).Perm entries') {p : Entry m → Bool} {q : Entry m' → Bool}
    (htest : ∀ e, q (r e) = p e) : ((entries.filter p).map r).Perm (entries'.filter q) := by
  have hcomp : p = q ∘ r := funext fun e => (htest e).symm
  rw [hcomp, ← List.filter_map]
  exact hperm.filter q

/-- The listed types are the same up to order. -/
theorem listed_perm (includePublic includeNonPublic : Bool) :
    ((m.listed includePublic includeNonPublic).map r).Perm
      (m'.listed includePublic includeNonPublic) :=
  r.filter_perm r.defined fun e => by rw [r.type_eq]

/-- The nested types of a type are the same up to order. -/
theorem nestedTypes_perm (e : Entry m) : ((m.nestedTypes e).map r).Perm (m'.nestedTypes (r e)) :=
  r.filter_perm r.defined fun inner => by rw [r.type_eq, r.name_eq]

private theorem find?_of_perm_map {α β : Type} {items : List α} {others : List β} {f : α → β}
    (hperm : (items.map f).Perm others) {p : β → Bool}
    (honly : ∀ a ∈ items, ∀ b ∈ items, p (f a) = true → p (f b) = true → a = b) :
    others.find? p = (items.find? (p ∘ f)).map f := by
  rw [← List.find?_map]
  refine (List.find?_eq_find?_of_perm hperm ?_).symm
  rintro _ ⟨hfa, hpa⟩ _ ⟨hfb, hpb⟩
  obtain ⟨a, ha, rfl⟩ := List.mem_map.mp hfa
  obtain ⟨b, hb, rfl⟩ := List.mem_map.mp hfb
  rw [honly a ha b hb hpa hpb]

section Catalog

variable (hdistinct : m.DistinctNames)
include hdistinct

/-- A reference resolves to the same type. -/
theorem resolve_eq (reference : TypeRef) :
    (Catalog.of m').resolve reference = ((Catalog.of m).resolve reference).map r := by
  rw [Catalog.resolve_of, Catalog.resolve_of]
  cases reference.definitionName? with
  | none => rfl
  | some name =>
    have hdefined : m'.definedEntries.find? (fun e => e.name = name) =
        (m.definedEntries.find? fun e => e.name = name).map r := by
      refine (find?_of_perm_map r.defined fun e he f hf hename hfname => ?_).trans (by simp)
      have hnames : e.name = f.name := by simp_all
      exact hdistinct.eq_of_eqFolded he hf (by simp [hnames])
    have hreferenced : m'.referencedEntries.find? (fun e => e.name = name) =
        (m.referencedEntries.find? fun e => e.name = name).map r := by
      refine (find?_of_perm_map r.referenced fun e he f hf hename hfname => ?_).trans (by simp)
      exact hdistinct.eq_of_name_eq he hf (by simp_all)
    rw [Option.bind_some, Option.bind_some, Module.entries, Module.entries, List.find?_append,
      List.find?_append, hdefined, hreferenced, Option.map_or]

/-- The step to a base at the new positions. -/
def baseStep (step : BaseStep m) : BaseStep m' := ⟨step.reference, step.target.map r⟩

/-- A walk through the bases takes the same steps. -/
theorem basesFrom_eq (visited : List String) (current : Entry m) :
    (Catalog.of m').basesFrom visited (r current) =
      ((Catalog.of m).basesFrom visited current).map r.baseStep := by
  fun_induction Catalog.basesFrom (Catalog.of m) visited current with
  | case1 visited current hbase =>
    rw [Catalog.basesFrom, r.type_eq, hbase]
    rfl
  | case2 visited current reference hbase hresolve =>
    rw [Catalog.basesFrom, r.type_eq, hbase]
    simp [r.resolve_eq hdistinct, hresolve, baseStep]
  | case3 visited current reference hbase next hresolve hvisited =>
    rw [Catalog.basesFrom, r.type_eq, hbase]
    simp [r.resolve_eq hdistinct, hresolve, hvisited]
  | case4 visited current reference hbase next hresolve hvisited ih =>
    rw [Catalog.basesFrom, r.type_eq, hbase]
    simp [r.resolve_eq hdistinct, hresolve, hvisited, ih, baseStep]

/-- The steps from a type to its bases are the same. -/
theorem baseSteps_eq (e : Entry m) :
    (Catalog.of m').baseSteps (r e) = ((Catalog.of m).baseSteps e).map r.baseStep := by
  rw [Catalog.baseSteps, r.name_eq, r.basesFrom_eq hdistinct, Catalog.baseSteps]

/-- A type has the same bases. -/
theorem baseChain_eq (e : Entry m) :
    (Catalog.of m').baseChain (r e) = ((Catalog.of m).baseChain e).map r := by
  rw [Catalog.baseChain, r.baseSteps_eq hdistinct, Catalog.baseChain, List.filterMap_map,
    List.map_filterMap]
  rfl

/-- A type has the same inheritance chain. -/
theorem inheritanceChain_eq (e : Entry m) :
    (Catalog.of m').inheritanceChain (r e) = (Catalog.of m).inheritanceChain e := by
  rw [Catalog.inheritanceChain, r.name_eq, r.baseSteps_eq hdistinct, List.map_map,
    Catalog.inheritanceChain]
  rfl

/-- The pending types lead to the same interfaces. -/
theorem interfacesFrom_eq (visited : List String) (found : List TypeRef)
    (pending : List (Entry m)) :
    (Catalog.of m').interfacesFrom visited found (pending.map r) =
      (Catalog.of m).interfacesFrom visited found pending := by
  fun_induction Catalog.interfacesFrom (Catalog.of m) visited found pending with
  | case1 visited found => rw [List.map_nil, Catalog.interfacesFrom]
  | case2 visited found current pending hvisited ih =>
    rw [List.map_cons, Catalog.interfacesFrom, dif_pos (by rwa [r.name_eq]), ih]
  | case3 visited found current pending hvisited ih =>
    have hresolve : current.type.interfaces.filterMap (Catalog.of m').resolve =
        (current.type.interfaces.filterMap (Catalog.of m).resolve).map r := by
      rw [List.map_filterMap]
      exact List.filterMap_congr fun reference _ => r.resolve_eq hdistinct reference
    rw [List.map_cons, Catalog.interfacesFrom, dif_neg (by rwa [r.name_eq]), r.name_eq, r.type_eq,
      hresolve, ← List.map_append, ih]

/-- A type implements the same interfaces, in the same order. -/
theorem interfacesOf_eq (e : Entry m) :
    (Catalog.of m').interfacesOf (r e) = (Catalog.of m).interfacesOf e := by
  rw [Catalog.interfacesOf, r.baseChain_eq hdistinct, ← List.map_cons,
    r.interfacesFrom_eq hdistinct, Catalog.interfacesOf]

/-- The same types stand for a type. -/
theorem isAssignable_eq (target candidate : Entry m) :
    (Catalog.of m').isAssignable (r target) (r candidate) =
      (Catalog.of m).isAssignable target candidate := by
  have hrefersTo : Catalog.refersTo (r target) = Catalog.refersTo target := by
    funext reference
    rw [Catalog.refersTo, r.name_eq, Catalog.refersTo]
  rw [Catalog.isAssignable, r.baseSteps_eq hdistinct, r.interfacesOf_eq hdistinct, hrefersTo,
    List.any_map, Catalog.isAssignable]
  simp [r.injective.eq_iff, Function.comp_def, baseStep]

/-- A member at its declaring type's new position. -/
def memberEntry (entry : MemberEntry m) : MemberEntry m' :=
  ⟨r entry.declaring, entry.index, entry.member⟩

omit hdistinct in
@[simp] theorem signature_memberEntry (includeNonPublic : Bool) (entry : MemberEntry m) :
    (r.memberEntry entry).signature includeNonPublic = entry.signature includeNonPublic := by
  rw [MemberEntry.signature, memberEntry, r.type_eq, MemberEntry.signature]

omit hdistinct in
/-- A type declares the same members. -/
theorem declared_eq (e : Entry m) (kind : MemberKind) :
    (r e).declared kind = (e.declared kind).map r.memberEntry := by
  rw [Entry.declared, r.type_eq, Entry.declared, List.filter_map, List.filter_map, List.map_map]
  rfl

omit hdistinct in
/-- A chain of bases passes on the same members. -/
theorem inherited_eq (kind : MemberKind) (selection : Selection) (hidden : List String)
    (bases : List (Entry m)) :
    Catalog.inherited kind selection hidden (bases.map r) =
      (Catalog.inherited kind selection hidden bases).map r.memberEntry := by
  induction bases generalizing hidden with
  | nil => rfl
  | cons base bases ih =>
    rw [List.map_cons, Catalog.inherited, Catalog.inherited, r.declared_eq, List.filter_map,
      List.map_map, ih, List.map_append]
    rfl

/-- A type has the same members, in the same order. -/
theorem members_eq (e : Entry m) (kind : MemberKind) (selection : Selection) :
    (Catalog.of m').members (r e) kind selection =
      ((Catalog.of m).members e kind selection).map r.memberEntry := by
  rw [Catalog.members, Catalog.members, r.declared_eq, r.baseChain_eq hdistinct, List.map_map,
    r.inherited_eq, List.filter_map]
  split
  · rfl
  · rw [List.map_append]
    rfl

/-- A qualified name finds the same type. -/
theorem firstMatch_eq {identifier : String} {way : NameMatch}
    (hway : ∀ t : TypeDef, way.accepts identifier t = true →
      Text.eqFolded t.fullName identifier = true) :
    m'.firstMatch identifier way = (m.firstMatch identifier way).map r := by
  refine (find?_of_perm_map r.defined fun e he f hf hename hfname => ?_).trans ?_
  · rw [r.type_eq] at hename hfname
    have hfold := (Text.eqFolded_iff.mp (hway _ hename)).trans
      (Text.eqFolded_iff.mp (hway _ hfname)).symm
    exact hdistinct.eq_of_eqFolded he hf (Text.eqFolded_iff.mpr hfold)
  · simp [Module.firstMatch, r.type_eq]

/-- An identifier that is a qualified name or unknown finds the same type, or none. -/
theorem findType?_eq (hreordered : m.Reordered m') {identifier : String}
    (hidentifier : m.QualifiedOrUnknown identifier) :
    (Catalog.of m').findType? identifier = ((Catalog.of m).findType? identifier).map r := by
  cases hblank : Text.isBlank identifier with
  | true => rw [Catalog.findType?, Catalog.findType?, if_pos hblank, if_pos hblank, Option.map_none]
  | false =>
    rcases hidentifier with ⟨t, ht, hname⟩ | hnone
    · have hexact : m'.firstMatch identifier .qualified =
          (m.firstMatch identifier .qualified).map r :=
        r.firstMatch_eq hdistinct fun t haccepts => by
          rw [of_decide_eq_true haccepts, Text.eqFolded_refl]
      have hfolded : m'.firstMatch identifier .qualifiedFolded =
          (m.firstMatch identifier .qualifiedFolded).map r :=
        r.firstMatch_eq hdistinct fun t haccepts => haccepts
      obtain ⟨e, he⟩ : ∃ e, m.firstMatch identifier .qualifiedFolded = some e := by
        obtain ⟨i, rfl⟩ := List.get_of_mem ht
        refine Option.ne_none_iff_exists'.mp fun hnone => ?_
        exact Bool.eq_false_iff.mp (Module.find?_definedEntries_eq_none_iff.mp hnone i) hname
      -- the stages for simple names are not reached, on either side
      rw [Catalog.findType?_of_not_blank hblank, Catalog.findType?_of_not_blank hblank, hexact,
        hfolded, he]
      cases m.firstMatch identifier .qualified <;> rfl
    · have hnone' : ∀ way : NameMatch, ∀ t ∈ m'.types, way.accepts identifier t = false :=
        fun way t ht => hnone way t (hreordered.types.mem_iff.mpr ht)
      rw [(Catalog.findType?_eq_none_iff hblank).mpr fun way i => hnone way _ (List.get_mem _ i),
        (Catalog.findType?_eq_none_iff hblank).mpr fun way i => hnone' way _ (List.get_mem _ i),
        Option.map_none]

end Catalog

end Renumbering

end ModuleInspector
