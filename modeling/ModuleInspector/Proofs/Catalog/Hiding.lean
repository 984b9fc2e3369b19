import ModuleInspector.Proofs.Catalog.Assignability
import ModuleInspector.Proofs.Catalog.MemberInheritance
import ModuleInspector.Proofs.Metadata.ClosedReferences

/-!
# Hiding by signature

A member of a base is left out exactly when a nearer type declares a member of its kind with the
same name and the same parameter types, as long as the texts of these types can be read back.
Hiding compares texts, and the text of a generic type leaves out what its definition has behind
the backtick, so an overload is lost when another one differs from it only there.
-/

namespace ModuleInspector

namespace Member

/-- The types of the parameters, of which only methods and constructors have any. -/
def parameterTypes (member : Member) : List TypeRef :=
  member.method?.elim [] fun callable => callable.parameters.map (·.type)

/-- Whether two members have the same name and, one by one, the same parameter types. -/
def SameSignature (left right : Member) : Prop :=
  left.name = right.name ∧ List.Forall₂ TypeRef.Same left.parameterTypes right.parameterTypes

/-- Whether a method has a name without parentheses and parameter types that a grammar builds.
Nothing is asked of members of other kinds. -/
def SignatureIn (g : TypeRef.Grammar) (member : Member) : Prop :=
  member.kind = .method →
    '(' ∉ member.name.toList ∧ ∀ reference ∈ member.parameterTypes, g.Builds reference

/-- The key of a method is its name and, in parentheses, the texts of its parameter types. -/
theorem toList_hidingKey_method (callable : Method) :
    (method callable).hidingKey.toList =
      callable.name.toList ++ '(' ::
        ((Text.join "," (TypeRef.texts (method callable).parameterTypes)).toList ++ [')']) := by
  have htexts : TypeRef.texts (method callable).parameterTypes =
      callable.parameters.map (·.type.text) := by
    simp [TypeRef.texts_eq_map, parameterTypes, method?]
  simp [hidingKey, method?, htexts]

section Readable

variable {g : TypeRef.Grammar} (hreadable : g.Readable)

include hreadable

/-- Two methods have the same key exactly when they have the same signature. -/
theorem hidingKey_method_eq_iff {left right : Method} (hleft : (method left).SignatureIn g)
    (hright : (method right).SignatureIn g) :
    (method left).hidingKey = (method right).hidingKey ↔
      (method left).SameSignature (method right) := by
  obtain ⟨hleftName, hleftTypes⟩ := hleft rfl
  obtain ⟨hrightName, hrightTypes⟩ := hright rfl
  rw [← String.toList_inj, toList_hidingKey_method, toList_hidingKey_method]
  constructor
  · intro hkey
    obtain ⟨hname, hrest⟩ := Text.append_cons_inj hleftName hrightName hkey
    exact ⟨String.toList_inj.mp hname,
      TypeRef.forall₂_same_of_join_eq hreadable rfl hleftTypes hrightTypes
        (String.toList_inj.mp (List.append_cancel_right hrest))⟩
  · rintro ⟨hname, htypes⟩
    have hname : left.name = right.name := hname
    rw [hname, TypeRef.texts_eq_of_same htypes]

/-- Members of one kind other than constructors have the same key exactly when they have the same
signature. -/
theorem hidingKey_eq_iff {left right : Member} (hleft : left.SignatureIn g)
    (hright : right.SignatureIn g) (hkind : left.kind = right.kind)
    (hconstructor : left.kind ≠ .constructor) :
    left.hidingKey = right.hidingKey ↔ left.SameSignature right := by
  cases left with
  | method left =>
    cases right with
    | method right => exact hidingKey_method_eq_iff hreadable hleft hright
    | constructor | property | field | event => cases hkind
  | constructor left => exact absurd rfl hconstructor
  | property | field | event =>
    cases right <;> simp [kind, hidingKey, SameSignature, method?, parameterTypes] at hkind ⊢

end Readable

end Member

/-- Whether a grammar builds the signatures of all methods of a module. -/
def Module.SignaturesIn (g : TypeRef.Grammar) (m : Module) : Prop :=
  ∀ e : Entry m, ∀ member ∈ e.type.members, member.SignatureIn g

variable {m : Module}

/-- A position of a type is listed when its member passes the test. -/
theorem Entry.memberAt_mem_membersWhere {e : Entry m} {i : Fin e.type.members.length}
    {p : Member → Bool} : e.memberAt i ∈ e.membersWhere p ↔ p (e.memberAt i).member = true := by
  rw [membersWhere, List.mem_filter]
  exact and_iff_right (List.mem_map_of_mem (List.mem_finRange i))

namespace Catalog

/-- A member of a base is listed when the base passes it on behind the type and the bases before
it: no other type of the chain lists it. -/
theorem memberAt_mem_members_iff {c : Catalog m} {e base : Entry m} {i : Nat}
    (hbase : (c.baseChain e)[i]? = some base) (j : Fin base.type.members.length)
    {kind : MemberKind} {selection : Selection} (hinherits : selection.declaredOnly = false)
    (hconstructor : kind ≠ .constructor) :
    base.memberAt j ∈ c.members e kind selection ↔
      base.memberAt j ∈ passedOn kind selection (e :: (c.baseChain e).take i) base := by
  obtain ⟨he, hchain⟩ := List.nodup_cons.mp (nodup_baseChain (c := c) e)
  rw [members_eq_declared_append, if_neg (by simp [hinherits, hconstructor]),
    inherited_eq_flatMap, List.mem_append, List.mem_flatMap]
  constructor
  · rintro (hown | ⟨⟨other, k⟩, hother, hpassed⟩)
    · have hdeclaring : base = e := Entry.declaring_of_mem_membersWhere hown
      have hmem := List.mem_of_getElem? hbase
      rw [hdeclaring] at hmem
      exact absurd hmem he
    · have hdeclaring : base = other := Entry.declaring_of_mem_membersWhere hpassed
      subst hdeclaring
      obtain ⟨hi, -⟩ := List.getElem?_eq_some_iff.mp hbase
      have hposition : i = k := (List.getElem?_inj hi hchain).mp
        (hbase.trans (List.mk_mem_zipIdx_iff_getElem?.mp hother).symm)
      subst hposition
      exact hpassed
  · intro hpassed
    exact .inr ⟨(base, i), List.mk_mem_zipIdx_iff_getElem?.mpr hbase, hpassed⟩

section Inherited

variable {e base : Entry m} {i : Nat} {kind : MemberKind} {selection : Selection}
  (hbase : ((Catalog.of m).baseChain e)[i]? = some base) (j : Fin base.type.members.length)
  (hinherits : selection.declaredOnly = false) (hconstructor : kind ≠ .constructor)
  (hkind : (base.memberAt j).member.kind = kind)
  (hinstance : (base.memberAt j).member.isStatic = false)
  (hprivate : (base.memberAt j).member.isPrivate = false)
  (hselected : selection.selects (base.memberAt j).member.isPublic false = true)

include hbase hinherits hconstructor hkind hinstance hprivate hselected

/-- A selected instance member of a base that is not private is left out exactly when a nearer
type declares its key. -/
theorem notMem_members_iff_declares :
    base.memberAt j ∉ (Catalog.of m).members e kind selection ↔
      Declares kind (e :: ((Catalog.of m).baseChain e).take i)
        (base.memberAt j).member.hidingKey := by
  rw [memberAt_mem_members_iff hbase j hinherits hconstructor, passedOn,
    Entry.memberAt_mem_membersWhere]
  simp only [hkind, hinstance, hprivate, hselected, decide_true, Bool.not_false, Bool.true_and,
    Bool.not_eq_true', decide_eq_false_iff_not, not_not]

/-- In a module whose signatures can be read back from their texts, a selected instance member of
a base that is not private is left out exactly when the type itself or a base before this one
declares a member of the same kind with the same name and the same parameter types. -/
theorem notMem_members_iff_sameSignature {g : TypeRef.Grammar} (hreadable : g.Readable)
    (hbuilt : m.SignaturesIn g) :
    base.memberAt j ∉ (Catalog.of m).members e kind selection ↔
      ∃ nearer ∈ e :: ((Catalog.of m).baseChain e).take i, ∃ member ∈ nearer.type.members,
        member.kind = kind ∧ member.SameSignature (base.memberAt j).member := by
  rw [notMem_members_iff_declares hbase j hinherits hconstructor hkind hinstance hprivate
    hselected]
  refine exists_congr fun nearer => and_congr_right fun _ => exists_congr fun member =>
    and_congr_right fun hmember => and_congr_right fun hsame => ?_
  exact Member.hidingKey_eq_iff hreadable (hbuilt nearer member hmember)
    (hbuilt base _ (List.getElem_mem _)) (hsame.trans hkind.symm) (hsame ▸ hconstructor)

end Inherited

/-- A public method whose parameter is an instance of a generic definition at so many integers. -/
def overload (definition : String × Nat) : Member :=
  .method { Method.ofName "Add" 6 with
    parameters := [⟨"items", .generic definition.1
      (List.replicate definition.2 (.ofFullName "System.Int32")), 0, none⟩] }

/-- Overloads have the same signature when their definitions are the same. -/
theorem sameSignature_overload_iff {left right : String × Nat} :
    (overload left).SameSignature (overload right) ↔ left = right := by
  obtain ⟨definition, count⟩ := left
  obtain ⟨other, others⟩ := right
  constructor
  · rintro ⟨-, _ | ⟨hsame, -⟩⟩
    cases hsame with
    | generic _ harguments =>
      have hcount : count = others := by simpa using harguments.length_eq
      rw [hcount]
  · intro heq
    obtain ⟨rfl, rfl⟩ := Prod.mk.inj heq
    refine ⟨rfl, .cons (.generic _ (List.forall₂_same.mpr fun argument hargument => ?_)) .nil⟩
    obtain rfl := List.eq_of_mem_replicate hargument
    exact .type _ _ _

/-- A class and its base, each with its overloads of one method. -/
def overloads (derived inherited : List (String × Nat)) : Module where
  identity := ⟨"Overloads", none, none, none, none⟩
  location := ""
  files := []
  types := [
    { linkedType "Derived" (some "Base") [] with members := derived.map overload },
    { linkedType "Base" none [] with members := inherited.map overload }]
  referencedTypes := []
  resources := []
  entryPoint := none

section Overloads

variable (derived inherited : List (String × Nat))

/-- The class with a base. -/
def derivedClass : Entry (overloads derived inherited) := .defined ⟨0, by simp [overloads]⟩

/-- The base. -/
def baseClass : Entry (overloads derived inherited) := .defined ⟨1, by simp [overloads]⟩

/-- The base is the only one. -/
theorem baseChain_derivedClass :
    (Catalog.of (overloads derived inherited)).baseChain (derivedClass derived inherited) =
      [baseClass derived inherited] := by
  have hbase : (Catalog.of (overloads derived inherited)).baseOf (derivedClass derived inherited) =
      some (baseClass derived inherited) := by
    change (Catalog.of _).resolve (.ofFullName "Base") = _
    rw [resolve_of]
    rfl
  have hname : (baseClass derived inherited).name ≠ (derivedClass derived inherited).name := by
    change "Base" ≠ "Derived"
    decide
  exact baseChain_eq_singleton hbase hname rfl

variable {derived inherited}

/-- A grammar builds the signatures of the overloads when it has their definitions. -/
theorem signaturesIn_overloads {g : TypeRef.Grammar} (hint : g.type "System.Int32")
    (hdefinitions : ∀ definition ∈ derived ++ inherited, g.definition definition.1 definition.2) :
    (overloads derived inherited).SignaturesIn g := by
  intro e member hmember _
  have hoverload : ∃ definition ∈ derived ++ inherited, overload definition = member := by
    match e, hmember with
    | .defined ⟨0, _⟩, hmember =>
      obtain ⟨definition, hdefinition, hmember⟩ := List.mem_map.mp hmember
      exact ⟨definition, List.mem_append_left _ hdefinition, hmember⟩
    | .defined ⟨1, _⟩, hmember =>
      obtain ⟨definition, hdefinition, hmember⟩ := List.mem_map.mp hmember
      exact ⟨definition, List.mem_append_right _ hdefinition, hmember⟩
  obtain ⟨definition, hdefinition, rfl⟩ := hoverload
  refine ⟨(by decide : '(' ∉ "Add".toList), fun reference hreference => ?_⟩
  obtain rfl := List.mem_singleton.mp hreference
  refine .generic (List.length_replicate ▸ hdefinitions definition hdefinition)
    fun argument hargument => ?_
  obtain rfl := List.eq_of_mem_replicate hargument
  exact .type hint

/-- Before the base there is one class, which declares an overload of the same signature when it
declares one for the same definition. -/
theorem exists_nearer_overload_iff {definition : String × Nat} :
    (∃ nearer ∈ derivedClass derived inherited ::
        ((Catalog.of _).baseChain (derivedClass derived inherited)).take 0,
      ∃ member ∈ nearer.type.members,
        member.kind = .method ∧ member.SameSignature (overload definition)) ↔
      definition ∈ derived := by
  have hmembers : (derivedClass derived inherited).type.members = derived.map overload := rfl
  have hkind (own : String × Nat) : (overload own).kind = .method := rfl
  simp [hmembers, hkind, sameSignature_overload_iff, -Prod.exists]

end Overloads

/-- Overloads for functions, where both classes have the one for functions without arguments. -/
def functions : Module := overloads [("Func`1", 1)] [("Func`1", 1), ("Func`2", 2)]

/-- The overload for functions without arguments hides that of the base, which passes the one for
functions of one argument on. -/
theorem members_functions :
    (baseClass [("Func`1", 1)] [("Func`1", 1), ("Func`2", 2)]).memberAt ⟨0, by decide⟩ ∉
        (Catalog.of functions).members (derivedClass _ _) .method (.forVisibility false) ∧
      (baseClass [("Func`1", 1)] [("Func`1", 1), ("Func`2", 2)]).memberAt ⟨1, by decide⟩ ∈
        (Catalog.of functions).members (derivedClass _ _) .method (.forVisibility false) := by
  have hfunc : TypeRef.IsBareName "Func" := by decide
  have hbuilt : functions.SignaturesIn TypeRef.closedReferences := by
    refine signaturesIn_overloads (by decide : TypeRef.IsBareName "System.Int32") ?_
    simp only [List.cons_append, List.nil_append, List.forall_mem_cons]
    exact ⟨⟨by decide, "Func", hfunc, by decide⟩, ⟨by decide, "Func", hfunc, by decide⟩,
      ⟨by decide, "Func", hfunc, by decide⟩, List.forall_mem_nil _⟩
  have hbase : ((Catalog.of functions).baseChain (derivedClass _ _))[0]? =
      some (baseClass _ _) :=
    congrArg (·[0]?) (baseChain_derivedClass _ _)
  constructor
  · refine (notMem_members_iff_sameSignature hbase ⟨0, by decide⟩ rfl (by decide) rfl rfl rfl rfl
      TypeRef.readable_closedReferences hbuilt).mpr ?_
    exact exists_nearer_overload_iff.mpr (by decide)
  · by_contra hhidden
    have hnearer := (notMem_members_iff_sameSignature hbase ⟨1, by decide⟩ rfl (by decide) rfl
      rfl rfl rfl TypeRef.readable_closedReferences hbuilt).mp hhidden
    exact absurd (exists_nearer_overload_iff.mp hnearer) (by decide)

/-- An overload for lists, where the base has one for their enumerators. -/
def listsAndEnumerators : Module := overloads [("List`1", 1)] [("List`1+Enumerator", 1)]

/-- The references to types and to instances of definitions that have no marks in their names. -/
def unmarkedReferences : TypeRef.Grammar where
  parameter _ := False
  type := Text.Unmarked
  definition name _ := Text.Unmarked name
  rank _ := False

/-- The overload for lists hides the one for enumerators, although the names have no marks and the
signatures differ: both parameter types have the same text. -/
theorem members_listsAndEnumerators :
    let base : Entry listsAndEnumerators := baseClass _ _
    let derived : Entry listsAndEnumerators := derivedClass _ _
    let inherited := base.memberAt ⟨0, by decide⟩
    listsAndEnumerators.SignaturesIn unmarkedReferences ∧
      ((Catalog.of _).baseChain derived)[0]? = some base ∧
      inherited.member.kind = .method ∧ inherited.member.isStatic = false ∧
      inherited.member.isPrivate = false ∧
      (Selection.forVisibility false).selects inherited.member.isPublic false = true ∧
      inherited ∉ (Catalog.of _).members derived .method (.forVisibility false) ∧
      ¬∃ nearer ∈ derived :: ((Catalog.of _).baseChain derived).take 0,
        ∃ member ∈ nearer.type.members,
          member.kind = .method ∧ member.SameSignature inherited.member := by
  intro base derived inherited
  have hbuilt : listsAndEnumerators.SignaturesIn unmarkedReferences := by
    refine signaturesIn_overloads (by decide : Text.Unmarked "System.Int32") ?_
    change ∀ definition ∈ [("List`1", 1), ("List`1+Enumerator", 1)], Text.Unmarked definition.1
    decide
  have hbase : ((Catalog.of _).baseChain derived)[0]? = some base :=
    congrArg (·[0]?) (baseChain_derivedClass _ _)
  have hkey : (overload ("List`1", 1)).hidingKey =
      (overload ("List`1+Enumerator", 1)).hidingKey := by decide
  refine ⟨hbuilt, hbase, rfl, rfl, rfl, rfl, ?_, ?_⟩
  · exact (notMem_members_iff_declares hbase ⟨0, by decide⟩ rfl (by decide) rfl rfl rfl rfl).mpr
      ⟨derived, List.mem_cons_self, overload ("List`1", 1), List.mem_cons_self, rfl, hkey⟩
  · exact fun hnearer => absurd (exists_nearer_overload_iff.mp hnearer) (by decide)

end Catalog

end ModuleInspector
