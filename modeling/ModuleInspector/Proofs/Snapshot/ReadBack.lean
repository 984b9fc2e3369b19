import ModuleInspector.Proofs.Snapshot.Recorded
import ModuleInspector.Snapshot.Document

/-!
# Reading back

Every canonical value is decoded from its own form: references, literals, attributes, members,
types, and at last modules, of which no entry is lost.
-/

namespace ModuleInspector.Snapshot

/-- A text is decoded from its form. -/
theorem text_string (value : String) : text (.string value) = .ok value := rfl

/-- A text that may be missing is decoded from its form. -/
theorem text_optional (field : Option String) :
    ∀ value ∈ field, text (.string value) = .ok value ∧ Json.string value ≠ .null :=
  fun _ _ => ⟨rfl, nofun⟩

/-- A word of 32 bits is decoded from its form. -/
theorem word32_encode (value : UInt32) : word32 (encodeWord32 value) = .ok value := by
  have hsmall : value.toUInt64.toNat < UInt32.size := by
    rw [UInt32.toNat_toUInt64]
    exact value.toNat_lt
  rw [encodeWord32, word32, if_pos hsmall]
  simp

/-- A rank between 1 and 32 is decoded from its form. -/
theorem arrayRank_encode {rank : UInt32} (hpositive : 1 ≤ rank.toNat) (hrank : rank.toNat ≤ 32) :
    arrayRank (encodeWord32 rank) = .ok rank := by
  rw [arrayRank, word32_encode, ok_bind, if_pos ⟨hpositive, hrank⟩]
  rfl

/-- A canonical reference is decoded from its form inside a larger value. -/
theorem nestedTypeRef_encode {reference : TypeRef} (hreference : reference.Canonical) :
    nestedTypeRef (encodeTypeRef reference) = .ok reference := by
  induction hreference with
  | @named name fullName =>
    have hkind : ReferenceKind.ofJson? (.string "named") = some .named := rfl
    rw [encodeTypeRef, nestedTypeRef, namedMembers,
      member?_eq_map_some (text_optional fullName) (by simp),
      member?_eq_some (text_string name) (by simp)]
    simp [hkind]
  | @generic definition arguments harguments ih =>
    have hkind : ReferenceKind.ofJson? (.string "generic") = some .generic := rfl
    have hlist : listOf nestedTypeRef (.array (arguments.map encodeTypeRef)) = .ok arguments :=
      decodeAll_map ih
    rw [encodeTypeRef, nestedTypeRef, encodeTypeRefs_eq_map, argumentsMember?_eq_member?,
      member?_eq_some hlist (by simp), member?_eq_some (text_string definition) (by simp)]
    simp [hkind]
  | @array element rank helement hpositive hrank ih =>
    have hkind : ReferenceKind.ofJson? (.string "array") = some .array := rfl
    rw [encodeTypeRef, nestedTypeRef, elementMember?_eq_member?, member?_eq_some ih (by simp),
      member?_eq_some (arrayRank_encode hpositive hrank) (by simp)]
    simp [hkind]
  | @byRef element helement ih =>
    have hkind : ReferenceKind.ofJson? (.string "by_ref") = some .byRef := rfl
    rw [encodeTypeRef, nestedTypeRef, elementMember?_eq_member?, member?_eq_some ih (by simp)]
    simp [hkind]

/-- A canonical reference is decoded from its form. -/
theorem typeRef_encode {reference : TypeRef} (hreference : reference.Canonical) :
    typeRef (encodeTypeRef reference) = .ok reference := by
  obtain ⟨kind, hkind⟩ : ∃ kind, kindValue? (encodeTypeRef reference) = some (.string kind) := by
    cases reference <;> simp [encodeTypeRef, kindValue?]
  rw [typeRef, hkind]
  exact nestedTypeRef_encode hreference

/-- A signed number that is not negative is below the ones that are only unsigned. -/
theorem toNat_toUInt64_lt {value : Int64} (hvalue : ¬value < 0) :
    value.toUInt64.toNat < Nat.pow 2 63 := by
  have hpositive : 0 ≤ value := Int64.not_lt.mp hvalue
  rw [Int64.toNat_toUInt64_of_le hpositive]
  exact value.toNatClampNeg_lt

/-- The literals of a list are read from their forms. -/
theorem literals?_map {items : List Literal}
    (hitems : ∀ item ∈ items, literal? (encodeLiteral item) = some item) :
    literals? (items.map encodeLiteral) = some items := by
  induction items with
  | nil => rfl
  | cons item items ih =>
    obtain ⟨hitem, hrest⟩ := List.forall_mem_cons.mp hitems
    rw [List.map_cons, literals?, hitem, ih hrest]

/-- A canonical literal is read from its form. -/
theorem literal?_encode {value : Literal} (hvalue : value.Canonical) :
    literal? (encodeLiteral value) = some value := by
  induction hvalue with
  | null | bool | string => rfl
  | @int value =>
    rw [encodeLiteral]
    split
    · rfl
    · next hpositive =>
      rw [literal?, if_pos (toNat_toUInt64_lt hpositive), Int64.toInt64_toUInt64]
  | uint hlarge => rw [encodeLiteral, literal?, if_neg (Nat.not_lt.mpr hlarge)]
  | float hfinite => rw [encodeLiteral, if_pos hfinite]; rfl
  | @char value =>
    have hchar : char? (.string (String.singleton value)) = some value := by
      rw [char?, String.toList_singleton]
    rw [encodeLiteral, literal?, objectLiteral?]
    simp [hchar]
  | @enumerant enumType value =>
    rw [encodeLiteral, literal?, objectLiteral?]
    simp
  | @typeOf type htype =>
    rw [encodeLiteral, literal?, objectLiteral?]
    simp [nestedTypeRef_encode htype, Except.toOption]
  | @array items hitems ih =>
    rw [encodeLiteral, literal?, encodeLiterals_eq_map, literals?_map ih]
    rfl

/-- A canonical literal is decoded from its form. -/
theorem literal_encode {value : Literal} (hvalue : value.Canonical) :
    literal (encodeLiteral value) = .ok value := by
  rw [literal, literal?_encode hvalue, required_some]

/-- Only the form of null is null. -/
theorem encodeLiteral_ne_null {value : Literal} (hvalue : value.IsDefault) :
    encodeLiteral value ≠ .null := by
  obtain ⟨hcanonical, hnull⟩ := hvalue
  intro hencoded
  have hread := literal?_encode hcanonical
  rw [hencoded, literal?] at hread
  exact hnull (Option.some.inj hread).symm

/-- A canonical named argument is decoded from its form. -/
theorem namedArgument_encode {argument : NamedArgument} (hargument : argument.Canonical) :
    namedArgument (encodeNamedArgument argument) = .ok argument := by
  rw [encodeNamedArgument, namedArgument, record,
    member?_eq_some (text_string argument.name) (by simp),
    member?_eq_some (literal_encode hargument) (by simp)]
  rfl

/-- A canonical attribute is decoded from its form by a decoder that reads its type back. -/
theorem customAttribute_encode {reference : Decoder TypeRef} {a : Attribute}
    (htype : reference (encodeTypeRef a.type) = .ok a.type) (ha : a.Canonical) :
    customAttribute reference (encodeAttribute a) = .ok a := by
  have harguments : ∀ x ∈ a.arguments, literal (encodeLiteral x) = .ok x :=
    fun x hx => literal_encode (ha.arguments x hx)
  have hnamed : ∀ x ∈ a.namedArguments, namedArgument (encodeNamedArgument x) = .ok x :=
    fun x hx => namedArgument_encode (ha.namedArguments x hx)
  rw [encodeAttribute, customAttribute, record, encodeLiterals_eq_map,
    member?_eq_unlessEmpty harguments (by simp), member?_eq_unlessEmpty hnamed (by simp),
    member?_eq_some htype (by simp)]
  simp

/-- The attributes of a member are decoded from their forms. -/
theorem memberAttributes_encode {attributes : List Attribute}
    (hattributes : ∀ x ∈ attributes, x.Canonical) :
    ∀ x ∈ attributes, customAttribute nestedTypeRef (encodeAttribute x) = .ok x := fun x hx =>
  customAttribute_encode (nestedTypeRef_encode (hattributes x hx).type) (hattributes x hx)

/-- The attributes of a type are decoded from their forms. -/
theorem typeAttributes_encode {attributes : List Attribute}
    (hattributes : ∀ x ∈ attributes, x.Canonical) :
    ∀ x ∈ attributes, customAttribute typeRef (encodeAttribute x) = .ok x := fun x hx =>
  customAttribute_encode (typeRef_encode (hattributes x hx).type) (hattributes x hx)

/-- The references of a list inside a larger value are decoded from their forms. -/
theorem nestedTypeRefs_encode {references : List TypeRef}
    (hreferences : ∀ x ∈ references, x.Canonical) :
    ∀ x ∈ references, nestedTypeRef (encodeTypeRef x) = .ok x :=
  fun x hx => nestedTypeRef_encode (hreferences x hx)

/-- The references of a list are decoded from their forms. -/
theorem typeRefs_encode {references : List TypeRef}
    (hreferences : ∀ x ∈ references, x.Canonical) :
    ∀ x ∈ references, typeRef (encodeTypeRef x) = .ok x :=
  fun x hx => typeRef_encode (hreferences x hx)

/-- The body of a method is decoded from its form. -/
theorem methodBody_encode (body : MethodBody) :
    methodBody (encodeMethodBody body) = .ok body := by
  rw [encodeMethodBody, methodBody, record,
    member?_eq_some (word32_encode body.ilSize) (by simp),
    member?_eq_some (word32_encode body.localCount) (by simp)]
  rfl

/-- An accessor is decoded from its form. -/
theorem accessor_encode (a : Accessor) : accessor (encodeAccessor a) = .ok a := by
  rw [encodeAccessor, accessor, record, member?_eq_some (word32_encode a.flags) (by simp),
    member?_eq_some (text_string a.name) (by simp)]
  rfl

/-- An accessor that may be missing is decoded from its form. -/
theorem accessor_optional (field : Option Accessor) :
    ∀ x ∈ field, accessor (encodeAccessor x) = .ok x ∧ encodeAccessor x ≠ .null :=
  fun x _ => ⟨accessor_encode x, nofun⟩

/-- A canonical parameter is decoded from its form. -/
theorem parameter_encode {p : Parameter} (hp : p.Canonical) :
    parameter (encodeParameter p) = .ok p := by
  have hdefault : ∀ x ∈ p.defaultValue,
      literal (encodeLiteral x) = .ok x ∧ encodeLiteral x ≠ .null := fun x hx =>
    ⟨literal_encode (hp.defaultValue x hx).1, encodeLiteral_ne_null (hp.defaultValue x hx)⟩
  rw [encodeParameter, parameter, record, member?_eq_map_some hdefault (by simp),
    member?_eq_some (word32_encode p.flags) (by simp),
    member?_eq_some (text_string p.name) (by simp),
    member?_eq_some (nestedTypeRef_encode hp.type) (by simp)]
  simp

/-- A canonical method or constructor is decoded from its members, whatever its kind. -/
theorem methodMembers_encode {m : Method} {kind : MemberKind} {members : List (String × Json)}
    (hm : m.Canonical) (hmembers : encodeMethod kind m = .object members) :
    methodMembers members = .ok m := by
  obtain rfl := Json.object.inj hmembers
  have hbody : ∀ x ∈ m.body, methodBody (encodeMethodBody x) = .ok x ∧
      encodeMethodBody x ≠ .null := fun x _ => ⟨methodBody_encode x, nofun⟩
  have hparameters : ∀ x ∈ m.parameters, parameter (encodeParameter x) = .ok x :=
    fun x hx => parameter_encode (hm.parameters x hx)
  rw [methodMembers, attributesMember, encodeTypeRefs_eq_map,
    member?_eq_unlessEmpty (memberAttributes_encode hm.attributes) (by simp),
    member?_eq_map_some hbody (by simp), member?_eq_some (word32_encode m.flags) (by simp),
    member?_eq_unlessEmpty (nestedTypeRefs_encode hm.genericArguments) (by simp),
    member?_eq_some (text_string m.name) (by simp),
    member?_eq_unlessEmpty hparameters (by simp),
    member?_eq_some (nestedTypeRef_encode hm.returnType) (by simp)]
  simp

/-- The kind of a method is among its members. -/
theorem member?_kind_encodeMethod {m : Method} {kind : MemberKind}
    {members : List (String × Json)} (hmembers : encodeMethod kind m = .object members) :
    Json.member? "kind" members = some (.string kind.name) := by
  obtain rfl := Json.object.inj hmembers
  simp [attributesMember]

/-- The kind of a member decides how its other members are decoded. -/
theorem member_object {members : List (String × Json)} (kind : MemberKind)
    (hkind : Json.member? "kind" members = some (.string kind.name)) :
    member (.object members) = memberOfMembers members kind := by
  have hname : memberKind? kind.name = some kind := by cases kind <;> rfl
  rw [member, hkind]
  dsimp only
  rw [hname, required_some, ok_bind]

/-- A canonical member is decoded from its form. -/
theorem member_encode {x : Member} (hx : x.Canonical) : member (encodeMember x) = .ok x := by
  cases x with
  | method m =>
    obtain ⟨members, hmembers⟩ : ∃ members, encodeMethod .method m = .object members := ⟨_, rfl⟩
    rw [encodeMember, hmembers, member_object _ (member?_kind_encodeMethod hmembers),
      memberOfMembers, methodMembers_encode hx hmembers]
    rfl
  | constructor m =>
    obtain ⟨members, hmembers⟩ : ∃ members, encodeMethod .constructor m = .object members :=
      ⟨_, rfl⟩
    rw [encodeMember, hmembers, member_object _ (member?_kind_encodeMethod hmembers),
      memberOfMembers, methodMembers_encode hx hmembers]
    rfl
  | property p =>
    have hp : p.Canonical := hx
    rw [encodeMember, member_object .property (by simp [attributesMember]), memberOfMembers,
      propertyMembers, attributesMember,
      member?_eq_unlessEmpty (memberAttributes_encode hp.attributes) (by simp),
      member?_eq_map_some (accessor_optional p.getter) (by simp),
      member?_eq_some (text_string p.name) (by simp),
      member?_eq_map_some (accessor_optional p.setter) (by simp),
      member?_eq_some (nestedTypeRef_encode hp.type) (by simp)]
    simp [Except.map]
  | field f =>
    have hf : f.Canonical := hx
    rw [encodeMember, member_object .field (by simp [attributesMember]), memberOfMembers,
      fieldMembers, attributesMember,
      member?_eq_unlessEmpty (memberAttributes_encode hf.attributes) (by simp),
      member?_eq_some (word32_encode f.flags) (by simp),
      member?_eq_some (text_string f.name) (by simp),
      member?_eq_some (nestedTypeRef_encode hf.type) (by simp)]
    simp [Except.map]
  | event e =>
    have he : e.Canonical := hx
    rw [encodeMember, member_object .event (by simp [attributesMember]), memberOfMembers,
      eventMembers, attributesMember,
      member?_eq_map_some (accessor_optional e.adder) (by simp),
      member?_eq_unlessEmpty (memberAttributes_encode he.attributes) (by simp),
      member?_eq_some (nestedTypeRef_encode he.handlerType) (by simp),
      member?_eq_some (text_string e.name) (by simp),
      member?_eq_map_some (accessor_optional e.remover) (by simp)]
    simp [Except.map]

/-- The kind of a type is decoded from its name. -/
theorem typeKind_name (kind : TypeKind) : typeKind (.string kind.name) = .ok kind := by
  cases kind <;> rfl

/-- A canonical type is decoded from its form. -/
theorem typeDef_encode {t : TypeDef} (ht : t.Canonical) : typeDef (encodeTypeDef t) = .ok t := by
  have hbase : ∀ x ∈ t.base, typeRef (encodeTypeRef x) = .ok x ∧ encodeTypeRef x ≠ .null :=
    fun x hx => ⟨typeRef_encode (ht.base x hx), by cases x <;> simp [encodeTypeRef]⟩
  have hmembers : ∀ x ∈ t.members, member (encodeMember x) = .ok x :=
    fun x hx => member_encode (ht.members x hx)
  rw [encodeTypeDef, typeDef, record, attributesMember, encodeTypeRefs_eq_map,
    encodeTypeRefs_eq_map,
    member?_eq_unlessEmpty (typeAttributes_encode ht.attributes) (by simp),
    member?_eq_map_some hbase (by simp),
    member?_eq_map_some (text_optional t.declaringType) (by simp),
    member?_eq_some (word32_encode t.flags) (by simp),
    member?_eq_unlessEmpty (typeRefs_encode ht.genericArguments) (by simp),
    member?_eq_unlessEmpty (typeRefs_encode ht.interfaces) (by simp),
    member?_eq_some (typeKind_name t.kind) (by simp),
    member?_eq_unlessEmpty hmembers (by simp),
    member?_eq_some (text_string t.name) (by simp),
    member?_eq_map_some (text_optional t.nameSpace) (by simp)]
  simp

/-- The identity of a module is decoded from its form. -/
theorem moduleIdentity_encode (identity : ModuleIdentity) :
    moduleIdentity (encodeIdentity identity) = .ok identity := by
  rw [encodeIdentity, moduleIdentity, record,
    member?_eq_map_some (text_optional identity.culture) (by simp),
    member?_eq_some (text_string identity.name) (by simp),
    member?_eq_map_some (text_optional identity.publicKey) (by simp),
    member?_eq_map_some (text_optional identity.publicKeyToken) (by simp),
    member?_eq_map_some (text_optional identity.version) (by simp)]
  simp

/-- A resource is decoded from its form. -/
theorem resource_encode (r : Resource) : resource (encodeResource r) = .ok r := by
  have hsize : word64 (.number (.unsigned r.size)) = .ok r.size := rfl
  rw [encodeResource, resource, record, member?_eq_some (text_string r.name) (by simp),
    member?_eq_some hsize (by simp)]
  rfl

/-- An entry point is decoded from its form. -/
theorem entryPoint_encode (e : EntryPoint) : entryPoint (encodeEntryPoint e) = .ok e := by
  rw [encodeEntryPoint, entryPoint, record,
    member?_eq_some (text_string e.declaringType) (by simp),
    member?_eq_some (text_string e.method) (by simp)]
  rfl

/-- The location of a module, if it is known. -/
def knownLocation (m : Module) : Option String := if m.location = "" then none else some m.location

/-- A location that is left out is the empty one. -/
@[simp] theorem getD_knownLocation {m : Module} : (knownLocation m).getD "" = m.location := by
  unfold knownLocation
  split
  · next hlocation => exact hlocation.symm
  · rfl

/-- The location of a module is written when it is known. -/
theorem locationMember_eq_optional (m : Module) :
    (if m.location = "" then [] else [("location", .string m.location)]) =
      optional "location" Json.string (knownLocation m) := by
  unfold knownLocation
  split <;> rfl

/-- The members of a module other than its lists of types are decoded from its form. -/
theorem moduleMembers_encode {m : Module} {members : List (String × Json)}
    (hmembers : encodeModule m = .object members) :
    moduleMembers m.types m.referencedTypes members = .ok m := by
  obtain rfl := Json.object.inj hmembers
  have hstart : ∀ x ∈ m.entryPoint, entryPoint (encodeEntryPoint x) = .ok x ∧
      encodeEntryPoint x ≠ .null := fun x _ => ⟨entryPoint_encode x, nofun⟩
  have hfiles : ∀ x ∈ m.files, text (.string x) = .ok x := fun x _ => text_string x
  have hlocation : ∀ x ∈ knownLocation m, text (.string x) = .ok x := fun x _ => text_string x
  have hresources : ∀ x ∈ m.resources, resource (encodeResource x) = .ok x :=
    fun x _ => resource_encode x
  rw [locationMember_eq_optional, moduleMembers, member?_eq_map_some hstart (by simp),
    member?_eq_unlessEmpty hfiles (by simp),
    member?_eq_some (moduleIdentity_encode m.identity) (by simp),
    member?_eq_self hlocation (by simp),
    member?_eq_unlessEmpty hresources (by simp)]
  simp

/-- A member under another key than those of the lists is among the others. -/
theorem member?_besidesLists {key : String} (htypes : key ≠ TypeList.types.key)
    (hreferenced : key ≠ TypeList.referencedTypes.key) (members : List (String × Json)) :
    Json.member? key (besidesLists members) = Json.member? key members := by
  induction members with
  | nil => rfl
  | cons member members ih =>
    obtain ⟨name, value⟩ := member
    rw [besidesLists] at ih ⊢
    by_cases hname : name ≠ TypeList.types.key ∧ name ≠ TypeList.referencedTypes.key
    · rw [List.filter_cons_of_pos (by simpa using hname), Json.member?_cons, Json.member?_cons, ih]
    · have hother : key ≠ name := by
        rintro rfl
        exact hname ⟨htypes, hreferenced⟩
      rw [List.filter_cons_of_neg (by simpa using hname), ih, Json.member?_cons, if_neg hother]

/-- The lists of types have no effect on how the rest of a module is decoded. -/
theorem moduleMembers_besidesLists (types referencedTypes : List TypeDef)
    (members : List (String × Json)) :
    moduleMembers types referencedTypes (besidesLists members) =
      moduleMembers types referencedTypes members := by
  unfold moduleMembers member?
  rw [member?_besidesLists (by decide) (by decide), member?_besidesLists (by decide) (by decide),
    member?_besidesLists (by decide) (by decide), member?_besidesLists (by decide) (by decide),
    member?_besidesLists (by decide) (by decide)]

/-- The types of a module are among its members. -/
theorem entries_types_encode {m : Module} {members : List (String × Json)}
    (hmembers : encodeModule m = .object members) :
    entries .types members = .ok (m.types.map encodeTypeDef) := by
  obtain rfl := Json.object.inj hmembers
  rw [locationMember_eq_optional, entries, TypeList.key]
  simp

/-- The outside types of a module are among its members, unless there are none. -/
theorem entries_referencedTypes_encode {m : Module} {members : List (String × Json)}
    (hmembers : encodeModule m = .object members) :
    entries .referencedTypes members = .ok (m.referencedTypes.map encodeTypeDef) := by
  obtain rfl := Json.object.inj hmembers
  rw [locationMember_eq_optional, entries, TypeList.key]
  cases m.referencedTypes <;> simp [unlessEmpty]

/-- Every canonical type is kept. -/
theorem keptTypes_encode {types : List TypeDef} (htypes : ∀ type ∈ types, type.Canonical) :
    keptTypes (types.map encodeTypeDef) = types := by
  induction types with
  | nil => rfl
  | cons type types ih =>
    obtain ⟨htype, hrest⟩ := List.forall_mem_cons.mp htypes
    have hdecoded : decoded? (encodeTypeDef type) = some type := by
      rw [decoded?, typeDef_encode htype]
      rfl
    rw [List.map_cons, keptTypes, List.filterMap_cons_some hdecoded]
    exact congrArg (type :: ·) (ih hrest)

/-- No canonical type is lost. -/
theorem lostEntries_encode {types : List TypeDef} (htypes : ∀ type ∈ types, type.Canonical)
    (start : Nat) : lostEntries start (types.map encodeTypeDef) = [] := by
  induction types generalizing start with
  | nil => rfl
  | cons type types ih =>
    obtain ⟨htype, hrest⟩ := List.forall_mem_cons.mp htypes
    rw [List.map_cons, lostEntries, typeDef_encode htype]
    exact ih hrest (start + 1)

/-- A list of canonical types is read without warnings. -/
theorem warnings_encode {types : List TypeDef} (htypes : ∀ type ∈ types, type.Canonical)
    (list : TypeList) : warnings list (types.map encodeTypeDef) = [] := by
  rw [warnings, lostEntries_encode htypes]
  rfl

/-- A canonical module is decoded from its form, and nothing of it is lost. -/
theorem ofJson_encodeModule {m : Module} (hm : m.Canonical) :
    ofJson (encodeModule m) = .ok (m, []) := by
  obtain ⟨members, hmembers⟩ : ∃ members, encodeModule m = .object members := ⟨_, rfl⟩
  rw [hmembers, ofJson, entries_types_encode hmembers, entries_referencedTypes_encode hmembers]
  dsimp only
  rw [keptTypes_encode hm.types, keptTypes_encode hm.referencedTypes,
    moduleMembers_besidesLists, moduleMembers_encode hmembers, warnings_encode hm.types,
    warnings_encode hm.referencedTypes]
  rfl

end ModuleInspector.Snapshot
