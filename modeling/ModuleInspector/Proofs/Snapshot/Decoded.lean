import ModuleInspector.Proofs.Snapshot.Canonical
import ModuleInspector.Proofs.Snapshot.Postconditions

/-!
# Decoded metadata

Everything that decodes is canonical, and its form nests no deeper than the value it was decoded
from. Fields that were left out are written with their defaults; only the default of a return type
is a container, so a method and what holds methods need room for it.
-/

namespace ModuleInspector.Snapshot

/-- A number of 32 bits is no container. -/
@[simp] theorem within_encodeWord32 {depth : Nat} {value : UInt32} :
    Json.Within depth (encodeWord32 value) :=
  .number trivial

/-- A plain reference fits below a container. -/
theorem fits_named {inner : Nat} {name : String} {fullName : Option String} :
    Fits encodeTypeRef TypeRef.Canonical (inner + 1) (.named name fullName) := by
  refine ⟨.named, ?_⟩
  rw [encodeTypeRef]
  cases fullName with
  | none => exact .object (by simp [optional])
  | some fullName => exact .object (by simp [optional])

/-- An instance of a generic type fits one level above its arguments. -/
theorem fits_generic {inner : Nat} {definition : String} {arguments : List TypeRef}
    (harguments : FitsAll encodeTypeRef TypeRef.Canonical inner arguments) :
    Fits encodeTypeRef TypeRef.Canonical (inner + 1) (.generic definition arguments) := by
  refine ⟨.generic harguments.1, ?_⟩
  rw [encodeTypeRef, encodeTypeRefs_eq_map]
  exact .object (by simp [harguments.2])

/-- An array type fits one level above its element. -/
theorem fits_array {inner : Nat} {element : TypeRef} {rank : UInt32}
    (helement : Fits encodeTypeRef TypeRef.Canonical inner element)
    (hrank : 1 ≤ rank.toNat ∧ rank.toNat ≤ 32) :
    Fits encodeTypeRef TypeRef.Canonical (inner + 1) (.array element rank) := by
  refine ⟨.array helement.1 hrank.1 hrank.2, ?_⟩
  rw [encodeTypeRef]
  exact .object (by simp [helement.2])

/-- A by-reference type fits one level above its element. -/
theorem fits_byRef {inner : Nat} {element : TypeRef}
    (helement : Fits encodeTypeRef TypeRef.Canonical inner element) :
    Fits encodeTypeRef TypeRef.Canonical (inner + 1) (.byRef element) := by
  refine ⟨.byRef helement.1, ?_⟩
  rw [encodeTypeRef]
  exact .object (by simp [helement.2])

/-- A rank that decodes is between 1 and 32. -/
theorem ensures_arrayRank (depth : Nat) :
    Ensures depth arrayRank fun rank => 1 ≤ rank.toNat ∧ rank.toNat ≤ 32 := by
  intro value _
  unfold arrayRank
  refine Gives.trivial.bind fun rank _ => ?_
  split
  · next hrank => exact .pure hrank
  · exact .error

/-- The references inside a larger value that decode are canonical and nest no deeper. -/
theorem ensures_nestedTypeRef (depth : Nat) :
    Ensures depth nestedTypeRef (Fits encodeTypeRef TypeRef.Canonical depth) := by
  -- The references inside a reference are at least one level below it.
  induction depth using Nat.strongRecOn with
  | ind depth ih =>
  intro value hvalue
  have hlist : ∀ inner, inner + 1 = depth →
      Ensures inner (listOf nestedTypeRef) (FitsAll encodeTypeRef TypeRef.Canonical inner) :=
    fun inner hinner => .listOf fun deeper hdeeper => ih deeper (by omega)
  unfold nestedTypeRef
  split
  · next members =>
    obtain ⟨inner, rfl, hmembers⟩ := hvalue.of_object
    have helement := ih inner (Nat.lt_succ_self inner)
    have harguments := hlist inner rfl
    split
    · exact Gives.trivial.bind fun fullName _ => Gives.trivial.bind fun name _ =>
        Gives.trivial.bind fun name _ => .pure fits_named
    · rw [argumentsMember?_eq_member?]
      refine (harguments.member? hmembers).bind fun arguments harguments => ?_
      refine Gives.trivial.bind fun definition _ => Gives.trivial.bind fun definition _ => ?_
      exact (Gives.required harguments).bind fun arguments harguments =>
        .pure (fits_generic harguments)
    · rw [elementMember?_eq_member?]
      refine (helement.member? hmembers).bind fun element helement => ?_
      refine ((ensures_arrayRank inner).member? hmembers).bind fun rank hrank => ?_
      refine (Gives.required helement).bind fun element helement => ?_
      exact (Gives.required hrank).bind fun rank hrank => .pure (fits_array helement hrank)
    · rw [elementMember?_eq_member?]
      refine (helement.member? hmembers).bind fun element helement => ?_
      exact (Gives.required helement).bind fun element helement => .pure (fits_byRef helement)
    · exact .error
  · next kind items =>
    obtain ⟨inner, rfl, hvalues⟩ := hvalue.of_array
    have hitems := (List.forall_mem_cons.mp hvalues).2
    have helement := ih inner (Nat.lt_succ_self inner)
    split
    · have hnamed : namedItems.Yields inner (Fits encodeTypeRef TypeRef.Canonical (inner + 1)) :=
        .bind (.next .trivial) fun name _ => .bind (.nextD .trivial trivial) fun fullName _ =>
          .pure fits_named
      exact hnamed.all hitems
    · next definition arguments items _ =>
      have hlisted : Json.Within inner (.array arguments) := hitems _ (by simp)
      rw [typeRefs_eq_decodeAll]
      refine Gives.trivial.bind fun definition _ => ?_
      refine (hlist inner rfl _ hlisted).bind fun arguments harguments => ?_
      split
      · exact .pure (fits_generic harguments)
      · exact .error
    · next element items _ =>
      obtain ⟨hfirst, hrest⟩ := List.forall_mem_cons.mp hitems
      have hrank := Items.Yields.next (ensures_arrayRank inner)
      refine (helement _ hfirst).bind fun element helement => ?_
      refine (hrank.all hrest).bind fun rank hrank => ?_
      exact .pure (fits_array helement hrank)
    · next element items _ =>
      refine (helement _ (hitems _ (by simp))).bind fun element helement => ?_
      split
      · exact .pure (fits_byRef helement)
      · exact .error
    · exact .error
  · exact .error

/-- The references that decode by themselves are canonical and nest no deeper. -/
theorem ensures_typeRef (depth : Nat) :
    Ensures depth typeRef (Fits encodeTypeRef TypeRef.Canonical depth) := by
  intro value hvalue
  unfold typeRef
  split
  · exact ensures_nestedTypeRef depth value hvalue
  · exact .error

/-- A literal that is an object fits where the object does. -/
theorem fits_of_objectLiteral? {inner : Nat} {members : List (String × Json)} {literal : Literal}
    (hmembers : ∀ member ∈ members, Json.Within inner member.2)
    (hliteral : objectLiteral? members = some literal) :
    Fits encodeLiteral Literal.Canonical (inner + 1) literal := by
  unfold objectLiteral? at hliteral
  split at hliteral
  · next c hc =>
    obtain rfl := Option.some.inj hliteral
    exact ⟨.char, by rw [encodeLiteral]; exact .object (by simp)⟩
  split at hliteral
  · next enumType value henum hvalue =>
    obtain rfl := Option.some.inj hliteral
    exact ⟨.enumerant, by rw [encodeLiteral]; exact .object (by simp)⟩
  split at hliteral
  · cases hliteral
  · next value hvalue =>
    obtain ⟨type, htype, rfl⟩ := Option.map_eq_some_iff.mp hliteral
    have hdecoded : nestedTypeRef value = .ok type := by
      cases hresult : nestedTypeRef value with
      | error e => rw [hresult] at htype; cases htype
      | ok type => rw [hresult] at htype; exact congrArg Except.ok (Option.some.inj htype)
    have hfits := ensures_nestedTypeRef inner value (within_of_member? hmembers hvalue) type
      hdecoded
    exact ⟨.typeOf hfits.1, by rw [encodeLiteral]; exact .object (by simpa using hfits.2)⟩

/-- The literals of a list fit when each of them does. -/
theorem fits_of_mem_literals? {inner : Nat} {items : List Json} {literals : List Literal}
    (hitems : ∀ item ∈ items, ∀ literal, literal? item = some literal →
      Fits encodeLiteral Literal.Canonical inner literal)
    (hliterals : literals? items = some literals) :
    ∀ literal ∈ literals, Fits encodeLiteral Literal.Canonical inner literal := by
  induction items generalizing literals with
  | nil =>
    rw [literals?] at hliterals
    obtain rfl := Option.some.inj hliterals
    exact nofun
  | cons item items ih =>
    rw [literals?] at hliterals
    split at hliterals
    · next first rest hfirst hrest =>
      obtain rfl := Option.some.inj hliterals
      obtain ⟨hitem, hothers⟩ := List.forall_mem_cons.mp hitems
      exact List.forall_mem_cons.mpr ⟨hitem first hfirst, ih hothers hrest⟩
    · cases hliterals

/-- A literal fits where the value does that it is read from. -/
theorem fits_of_literal? {depth : Nat} {value : Json} {literal : Literal}
    (hvalue : Json.Within depth value) (hliteral : literal? value = some literal) :
    Fits encodeLiteral Literal.Canonical depth literal := by
  induction hvalue generalizing literal with
  | null =>
    obtain rfl := Option.some.inj hliteral
    exact ⟨.null, .null⟩
  | bool =>
    obtain rfl := Option.some.inj hliteral
    exact ⟨.bool, .bool⟩
  | @number depth value hfinite =>
    cases value with
    | unsigned value =>
      rw [literal?] at hliteral
      split at hliteral
      · obtain rfl := Option.some.inj hliteral
        exact ⟨.int, by rw [encodeLiteral]; split <;> exact .number trivial⟩
      · next hlarge =>
        obtain rfl := Option.some.inj hliteral
        exact ⟨.uint (Nat.le_of_not_lt hlarge), .number trivial⟩
    | negative value =>
      obtain rfl := Option.some.inj hliteral
      exact ⟨.int, by rw [encodeLiteral]; split <;> exact .number trivial⟩
    | float value =>
      obtain rfl := Option.some.inj hliteral
      have hfloat : value.isFinite = true := hfinite
      exact ⟨.float hfloat, by rw [encodeLiteral, if_pos hfloat]; exact .number hfloat⟩
  | string =>
    obtain rfl := Option.some.inj hliteral
    exact ⟨.string, .string⟩
  | array hitems ih =>
    obtain ⟨literals, hliterals, rfl⟩ := Option.map_eq_some_iff.mp hliteral
    have hfits := fitsAll_of_forall (fits_of_mem_literals? (fun item hitem _ => ih item hitem)
      hliterals)
    exact ⟨.array hfits.1, by rw [encodeLiteral, encodeLiterals_eq_map]; exact hfits.2⟩
  | object hmembers ih => exact fits_of_objectLiteral? hmembers hliteral

/-- The literals that decode are canonical and nest no deeper. -/
theorem ensures_literal (depth : Nat) :
    Ensures depth literal (Fits encodeLiteral Literal.Canonical depth) :=
  fun _ hvalue => .required fun _ hliteral => fits_of_literal? hvalue hliteral

/-- No object is a null literal. -/
theorem objectLiteral?_ne_null (members : List (String × Json)) :
    objectLiteral? members ≠ some .null := by
  intro hliteral
  unfold objectLiteral? at hliteral
  split at hliteral
  · cases hliteral
  split at hliteral
  · cases hliteral
  split at hliteral
  · cases hliteral
  · obtain ⟨type, -, htype⟩ := Option.map_eq_some_iff.mp hliteral
    cases htype

/-- Only null is a null literal. -/
theorem eq_null_of_literal? {value : Json} (hliteral : literal? value = some .null) :
    value = .null := by
  cases value with
  | null => rfl
  | bool | string => cases hliteral
  | number value =>
    cases value with
    | unsigned value => rw [literal?] at hliteral; split at hliteral <;> cases hliteral
    | negative | float => cases hliteral
  | array items =>
    obtain ⟨literals, -, hliterals⟩ := Option.map_eq_some_iff.mp hliteral
    cases hliterals
  | object members => exact absurd hliteral (objectLiteral?_ne_null members)

/-- A default value that decodes is not null. -/
theorem ensures_defaultValue (depth : Nat) : Ensures depth (nullable literal)
    fun value => ∀ x ∈ value, Fits encodeLiteral Literal.IsDefault depth x := by
  intro value hvalue
  unfold nullable
  split
  · exact .pure nofun
  · next hnull =>
    have hliteral : Gives (literal value) (Fits encodeLiteral Literal.IsDefault depth) := by
      refine .required fun x hx => ?_
      obtain ⟨hcanonical, hwithin⟩ := fits_of_literal? hvalue hx
      refine ⟨⟨hcanonical, ?_⟩, hwithin⟩
      rintro rfl
      exact hnull (eq_null_of_literal? hx)
    refine hliteral.map fun x hx => ?_
    rintro _ ⟨⟩
    exact hx

/-- The named arguments that decode are canonical and nest no deeper. -/
theorem ensures_namedArgument (depth : Nat) :
    Ensures depth namedArgument (Fits encodeNamedArgument NamedArgument.Canonical depth) := by
  have hfits : ∀ inner name value, Fits encodeLiteral Literal.Canonical inner value →
      Fits encodeNamedArgument NamedArgument.Canonical (inner + 1) ⟨name, value⟩ :=
    fun inner name value hvalue => ⟨hvalue.1, .object (by simpa using hvalue.2)⟩
  have hnull : ∀ inner, Fits encodeLiteral Literal.Canonical inner .null :=
    fun inner => ⟨.null, .null⟩
  refine .record ?_ ?_
  · rintro inner rfl fields hfields
    refine Gives.trivial.bind fun name _ => ?_
    refine ((ensures_literal inner).member? hfields).bind fun value hvalue => ?_
    exact Gives.trivial.bind fun name _ =>
      .pure (hfits inner name _ (forall_getD hvalue (hnull inner)))
  · rintro inner rfl
    refine .bind (.next .trivial) fun name _ => ?_
    exact .bind (.nextD (ensures_literal inner) (hnull inner)) fun value hvalue =>
      .pure (hfits inner name value hvalue)

/-- An attribute fits one level above its type and its arguments. -/
theorem fits_attribute {inner : Nat} {a : Attribute}
    (htype : Fits encodeTypeRef TypeRef.Canonical inner a.type)
    (harguments : FitsUnlessEmpty encodeLiteral Literal.Canonical inner a.arguments)
    (hnamed : FitsUnlessEmpty encodeNamedArgument NamedArgument.Canonical inner
      a.namedArguments) :
    Fits encodeAttribute Attribute.Canonical (inner + 1) a := by
  refine ⟨⟨htype.1, harguments.canonical, hnamed.canonical⟩, .object ?_⟩
  rw [encodeLiterals_eq_map]
  simp only [List.forall_mem_append]
  exact ⟨⟨harguments.within_nonempty, hnamed.within_nonempty⟩, by simpa using htype.2⟩

/-- Whether the references that a decoder accepts are canonical and nest no deeper. -/
def FitsReferences (reference : Decoder TypeRef) : Prop :=
  ∀ depth, Ensures depth reference (Fits encodeTypeRef TypeRef.Canonical depth)

/-- The attributes that decode are canonical and nest no deeper. -/
theorem ensures_customAttribute {reference : Decoder TypeRef} (htype : FitsReferences reference)
    (depth : Nat) :
    Ensures depth (customAttribute reference) (Fits encodeAttribute Attribute.Canonical depth) := by
  have harguments : ∀ inner, Ensures inner (listOf literal)
      (FitsUnlessEmpty encodeLiteral Literal.Canonical inner) :=
    fun inner => .optionalList fun deeper _ => ensures_literal deeper
  have hnamed : ∀ inner, Ensures inner (listOf namedArgument)
      (FitsUnlessEmpty encodeNamedArgument NamedArgument.Canonical inner) :=
    fun inner => .optionalList fun deeper _ => ensures_namedArgument deeper
  refine .record ?_ ?_
  · rintro inner rfl fields hfields
    refine ((harguments inner).member? hfields).bind fun arguments harguments => ?_
    refine ((hnamed inner).member? hfields).bind fun namedArguments hnamed => ?_
    refine ((htype inner).member? hfields).bind fun type htype => ?_
    refine (Gives.required htype).bind fun type htype => ?_
    exact .pure (fits_attribute htype (forall_getD harguments fitsUnlessEmpty_nil)
      (forall_getD hnamed fitsUnlessEmpty_nil))
  · rintro inner rfl
    refine .bind (.next (htype inner)) fun type htype => ?_
    refine .bind (.nextD (harguments inner) fitsUnlessEmpty_nil) fun arguments harguments => ?_
    refine .bind (.nextD (hnamed inner) fitsUnlessEmpty_nil) fun namedArguments hnamed => ?_
    exact .pure (fits_attribute htype harguments hnamed)

/-- The attributes of a member that decode are canonical and nest no deeper. -/
theorem ensures_memberAttributes (depth : Nat) :
    Ensures depth (listOf (customAttribute nestedTypeRef))
      (FitsUnlessEmpty encodeAttribute Attribute.Canonical depth) :=
  .optionalList fun inner _ => ensures_customAttribute ensures_nestedTypeRef inner

/-- The attributes of a type that decode are canonical and nest no deeper. -/
theorem ensures_typeAttributes (depth : Nat) : Ensures depth (listOf (customAttribute typeRef))
    (FitsUnlessEmpty encodeAttribute Attribute.Canonical depth) :=
  .optionalList fun inner _ => ensures_customAttribute ensures_typeRef inner

/-- The references of a list inside a larger value are canonical and nest no deeper. -/
theorem ensures_nestedTypeRefList (depth : Nat) : Ensures depth (listOf nestedTypeRef)
    (FitsUnlessEmpty encodeTypeRef TypeRef.Canonical depth) :=
  .optionalList fun inner _ => ensures_nestedTypeRef inner

/-- The references of a list that may be left out are canonical and nest no deeper. -/
theorem ensures_typeRefList (depth : Nat) : Ensures depth (listOf typeRef)
    (FitsUnlessEmpty encodeTypeRef TypeRef.Canonical depth) :=
  .optionalList fun inner _ => ensures_typeRef inner

/-- A method body is a record of numbers. -/
theorem ensures_methodBody (depth : Nat) :
    Ensures depth methodBody (Fits encodeMethodBody (fun _ => True) depth) :=
  .plainRecord fun inner body => .object (by simp)

/-- An accessor is a record of scalars. -/
theorem ensures_accessor (depth : Nat) :
    Ensures depth accessor (Fits encodeAccessor (fun _ => True) depth) :=
  .plainRecord fun inner a => .object (by simp)

/-- A parameter fits one level above its type and its default value. -/
theorem fits_parameter {inner : Nat} {p : Parameter}
    (htype : Fits encodeTypeRef TypeRef.Canonical inner p.type)
    (hdefault : ∀ x ∈ p.defaultValue, Fits encodeLiteral Literal.IsDefault inner x) :
    Fits encodeParameter Parameter.Canonical (inner + 1) p := by
  refine ⟨⟨htype.1, fun x hx => (hdefault x hx).1⟩, .object ?_⟩
  simp only [List.forall_mem_append]
  exact ⟨within_optional hdefault, by simpa using htype.2⟩

/-- The parameters that decode are canonical and nest no deeper. -/
theorem ensures_parameter (depth : Nat) :
    Ensures depth parameter (Fits encodeParameter Parameter.Canonical depth) := by
  refine .record ?_ ?_
  · rintro inner rfl fields hfields
    refine ((ensures_defaultValue inner).member? hfields).bind fun defaultValue hdefault => ?_
    refine Gives.trivial.bind fun flags _ => Gives.trivial.bind fun name _ => ?_
    refine ((ensures_nestedTypeRef inner).member? hfields).bind fun type htype => ?_
    refine (Gives.required htype).bind fun type htype => ?_
    exact .pure (fits_parameter htype (forall_join hdefault))
  · rintro inner rfl
    refine .bind (.nextD .trivial trivial) fun name _ => ?_
    refine .bind (.next (ensures_nestedTypeRef inner)) fun type htype => ?_
    refine .bind (.nextD .trivial trivial) fun flags _ => ?_
    refine .bind (.nextD (ensures_defaultValue inner) nofun) fun defaultValue hdefault => ?_
    exact .pure (fits_parameter htype hdefault)

end ModuleInspector.Snapshot
