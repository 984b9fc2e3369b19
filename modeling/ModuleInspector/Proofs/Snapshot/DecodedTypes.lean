import ModuleInspector.Proofs.Snapshot.Decoded
import ModuleInspector.Proofs.Json.Reading
import ModuleInspector.Snapshot.Document

/-!
# Decoded types and modules

Members and types that decode are canonical, and so is the module of a document.

A method without a recorded return type is written with a reference for it, so its form needs two
levels, and the form of a type with methods needs four.
-/

namespace ModuleInspector.Snapshot

/-- The reference that stands for no result fits in any container. -/
theorem fits_void {inner : Nat} : Fits encodeTypeRef TypeRef.Canonical (inner + 1) .void :=
  fits_named

section Methods

variable {inner : Nat}

/-- A method fits one level above its signature, its attributes and its body. -/
theorem fits_method {m : Method} (kind : MemberKind)
    (hattributes : FitsUnlessEmpty encodeAttribute Attribute.Canonical inner m.attributes)
    (hbody : ∀ body ∈ m.body, Fits encodeMethodBody (fun _ => True) inner body)
    (hgeneric : FitsUnlessEmpty encodeTypeRef TypeRef.Canonical inner m.genericArguments)
    (hparameters : FitsUnlessEmpty encodeParameter Parameter.Canonical inner m.parameters)
    (hreturn : Fits encodeTypeRef TypeRef.Canonical inner m.returnType) :
    Fits (encodeMethod kind) Method.Canonical (inner + 1) m := by
  refine ⟨⟨hreturn.1, hgeneric.canonical, hparameters.canonical, hattributes.canonical⟩,
    .object ?_⟩
  rw [encodeTypeRefs_eq_map, attributesMember]
  simp only [List.forall_mem_append]
  refine ⟨⟨⟨⟨⟨⟨hattributes.within_nonempty, within_optional hbody⟩, ?_⟩,
    hgeneric.within_nonempty⟩, ?_⟩, hparameters.within_nonempty⟩, ?_⟩
  · simp
  · simp
  · simpa using hreturn.2

/-- The parameters of a list that may be left out are canonical and nest no deeper. -/
theorem ensures_parameters (depth : Nat) : Ensures depth (listOf parameter)
    (FitsUnlessEmpty encodeParameter Parameter.Canonical depth) :=
  .optionalList fun inner _ => ensures_parameter inner

/-- A method that is an object is canonical and nests no deeper. -/
theorem gives_methodMembers {fields : List (String × Json)} (kind : MemberKind)
    (hfields : ∀ field ∈ fields, Json.Within (inner + 1) field.2) :
    Gives (methodMembers fields) (Fits (encodeMethod kind) Method.Canonical (inner + 2)) := by
  refine ((ensures_memberAttributes _).member? hfields).bind fun attributes hattributes => ?_
  refine ((ensures_methodBody _).nullable.member? hfields).bind fun body hbody => ?_
  refine Gives.trivial.bind fun flags _ => ?_
  refine ((ensures_nestedTypeRefList _).member? hfields).bind fun generics hgeneric => ?_
  refine Gives.trivial.bind fun name _ => ?_
  refine ((ensures_parameters _).member? hfields).bind fun parameters hparameters => ?_
  refine ((ensures_nestedTypeRef _).member? hfields).bind fun returnType hreturn => ?_
  refine Gives.trivial.bind fun name _ => .pure ?_
  exact fits_method kind (forall_getD hattributes fitsUnlessEmpty_nil) (forall_join hbody)
    (forall_getD hgeneric fitsUnlessEmpty_nil) (forall_getD hparameters fitsUnlessEmpty_nil)
    (forall_getD hreturn fits_void)

/-- A method that is an array is canonical and nests no deeper. -/
theorem yields_methodItems (kind : MemberKind) :
    methodItems.Yields (inner + 1) (Fits (encodeMethod kind) Method.Canonical (inner + 2)) := by
  refine .bind (.next .trivial) fun name _ => .bind (.nextD .trivial trivial) fun flags _ => ?_
  refine .bind (.nextD (ensures_nestedTypeRef _) fits_void) fun returnType hreturn => ?_
  refine .bind (.nextD (ensures_nestedTypeRefList _) fitsUnlessEmpty_nil)
    fun generics hgeneric => ?_
  refine .bind (.nextD (ensures_parameters _) fitsUnlessEmpty_nil) fun parameters hparameters => ?_
  refine .bind (.nextD (ensures_memberAttributes _) fitsUnlessEmpty_nil)
    fun attributes hattributes => ?_
  refine .bind (.nextD (ensures_methodBody _).nullable nofun) fun body hbody => .pure ?_
  exact fits_method kind hattributes hbody hgeneric hparameters hreturn

end Methods

section Properties

variable {inner : Nat}

/-- A property fits one level above its type, its accessors and its attributes. -/
theorem fits_property {p : Property}
    (hattributes : FitsUnlessEmpty encodeAttribute Attribute.Canonical inner p.attributes)
    (hgetter : ∀ getter ∈ p.getter, Fits encodeAccessor (fun _ => True) inner getter)
    (hsetter : ∀ setter ∈ p.setter, Fits encodeAccessor (fun _ => True) inner setter)
    (htype : Fits encodeTypeRef TypeRef.Canonical inner p.type) :
    Fits encodeMember Member.Canonical (inner + 1) (.property p) := by
  refine ⟨⟨htype.1, hattributes.canonical⟩, .object ?_⟩
  rw [attributesMember]
  simp only [List.forall_mem_append]
  refine ⟨⟨⟨⟨hattributes.within_nonempty, within_optional hgetter⟩, ?_⟩,
    within_optional hsetter⟩, ?_⟩
  · simp
  · simpa using htype.2

/-- A property that is an object is canonical and nests no deeper. -/
theorem gives_propertyMembers {fields : List (String × Json)}
    (hfields : ∀ field ∈ fields, Json.Within inner field.2) :
    Gives (propertyMembers fields)
      fun p => Fits encodeMember Member.Canonical (inner + 1) (.property p) := by
  refine ((ensures_memberAttributes _).member? hfields).bind fun attributes hattributes => ?_
  refine ((ensures_accessor _).nullable.member? hfields).bind fun getter hgetter => ?_
  refine Gives.trivial.bind fun name _ => ?_
  refine ((ensures_accessor _).nullable.member? hfields).bind fun setter hsetter => ?_
  refine ((ensures_nestedTypeRef _).member? hfields).bind fun type htype => ?_
  refine Gives.trivial.bind fun name _ => (Gives.required htype).bind fun type htype => .pure ?_
  exact fits_property (forall_getD hattributes fitsUnlessEmpty_nil) (forall_join hgetter)
    (forall_join hsetter) htype

/-- A property that is an array is canonical and nests no deeper. -/
theorem yields_propertyItems :
    propertyItems.Yields inner
      fun p => Fits encodeMember Member.Canonical (inner + 1) (.property p) := by
  refine .bind (.next .trivial) fun name _ => ?_
  refine .bind (.next (ensures_nestedTypeRef _)) fun type htype => ?_
  refine .bind (.nextD (ensures_accessor _).nullable nofun) fun getter hgetter => ?_
  refine .bind (.nextD (ensures_accessor _).nullable nofun) fun setter hsetter => ?_
  refine .bind (.nextD (ensures_memberAttributes _) fitsUnlessEmpty_nil)
    fun attributes hattributes => ?_
  exact .pure (fits_property hattributes hgetter hsetter htype)

end Properties

section Fields

variable {inner : Nat}

/-- A field fits one level above its type and its attributes. -/
theorem fits_field {f : Field}
    (hattributes : FitsUnlessEmpty encodeAttribute Attribute.Canonical inner f.attributes)
    (htype : Fits encodeTypeRef TypeRef.Canonical inner f.type) :
    Fits encodeMember Member.Canonical (inner + 1) (.field f) := by
  refine ⟨⟨htype.1, hattributes.canonical⟩, .object ?_⟩
  rw [attributesMember]
  simp only [List.forall_mem_append]
  exact ⟨hattributes.within_nonempty, by simpa using htype.2⟩

/-- A field that is an object is canonical and nests no deeper. -/
theorem gives_fieldMembers {fields : List (String × Json)}
    (hfields : ∀ field ∈ fields, Json.Within inner field.2) :
    Gives (fieldMembers fields)
      fun f => Fits encodeMember Member.Canonical (inner + 1) (.field f) := by
  refine ((ensures_memberAttributes _).member? hfields).bind fun attributes hattributes => ?_
  refine Gives.trivial.bind fun flags _ => Gives.trivial.bind fun name _ => ?_
  refine ((ensures_nestedTypeRef _).member? hfields).bind fun type htype => ?_
  refine Gives.trivial.bind fun name _ => (Gives.required htype).bind fun type htype => .pure ?_
  exact fits_field (forall_getD hattributes fitsUnlessEmpty_nil) htype

/-- A field that is an array is canonical and nests no deeper. -/
theorem yields_fieldItems :
    fieldItems.Yields inner fun f => Fits encodeMember Member.Canonical (inner + 1) (.field f) := by
  refine .bind (.next .trivial) fun name _ => ?_
  refine .bind (.next (ensures_nestedTypeRef _)) fun type htype => ?_
  refine .bind (.nextD .trivial trivial) fun flags _ => ?_
  refine .bind (.nextD (ensures_memberAttributes _) fitsUnlessEmpty_nil)
    fun attributes hattributes => ?_
  exact .pure (fits_field hattributes htype)

end Fields

section Events

variable {inner : Nat}

/-- An event fits one level above its handler type, its accessors and its attributes. -/
theorem fits_event {e : Event}
    (hadder : ∀ adder ∈ e.adder, Fits encodeAccessor (fun _ => True) inner adder)
    (hattributes : FitsUnlessEmpty encodeAttribute Attribute.Canonical inner e.attributes)
    (htype : Fits encodeTypeRef TypeRef.Canonical inner e.handlerType)
    (hremover : ∀ remover ∈ e.remover, Fits encodeAccessor (fun _ => True) inner remover) :
    Fits encodeMember Member.Canonical (inner + 1) (.event e) := by
  refine ⟨⟨htype.1, hattributes.canonical⟩, .object ?_⟩
  rw [attributesMember]
  simp only [List.forall_mem_append]
  refine ⟨⟨⟨within_optional hadder, hattributes.within_nonempty⟩, ?_⟩, within_optional hremover⟩
  simpa using htype.2

/-- An event that is an object is canonical and nests no deeper. -/
theorem gives_eventMembers {fields : List (String × Json)}
    (hfields : ∀ field ∈ fields, Json.Within inner field.2) :
    Gives (eventMembers fields)
      fun e => Fits encodeMember Member.Canonical (inner + 1) (.event e) := by
  refine ((ensures_accessor _).nullable.member? hfields).bind fun adder hadder => ?_
  refine ((ensures_memberAttributes _).member? hfields).bind fun attributes hattributes => ?_
  refine ((ensures_nestedTypeRef _).member? hfields).bind fun type htype => ?_
  refine Gives.trivial.bind fun name _ => ?_
  refine ((ensures_accessor _).nullable.member? hfields).bind fun remover hremover => ?_
  refine Gives.trivial.bind fun name _ => (Gives.required htype).bind fun type htype => .pure ?_
  exact fits_event (forall_join hadder) (forall_getD hattributes fitsUnlessEmpty_nil) htype
    (forall_join hremover)

/-- An event that is an array is canonical and nests no deeper. -/
theorem yields_eventItems :
    eventItems.Yields inner fun e => Fits encodeMember Member.Canonical (inner + 1) (.event e) := by
  refine .bind (.next .trivial) fun name _ => ?_
  refine .bind (.next (ensures_nestedTypeRef _)) fun type htype => ?_
  refine .bind (.nextD (ensures_accessor _).nullable nofun) fun adder hadder => ?_
  refine .bind (.nextD (ensures_accessor _).nullable nofun) fun remover hremover => ?_
  refine .bind (.nextD (ensures_memberAttributes _) fitsUnlessEmpty_nil)
    fun attributes hattributes => ?_
  exact .pure (fits_event hadder hattributes htype hremover)

end Events

section Members

variable {inner : Nat}

/-- A member of any kind that is an object is canonical and nests no deeper. -/
theorem gives_memberOfMembers {fields : List (String × Json)} (kind : MemberKind)
    (hfields : ∀ field ∈ fields, Json.Within (inner + 1) field.2) :
    Gives (memberOfMembers fields kind) (Fits encodeMember Member.Canonical (inner + 2)) := by
  cases kind with
  | method => exact (gives_methodMembers .method hfields).map fun _ hm => hm
  | constructor => exact (gives_methodMembers .constructor hfields).map fun _ hm => hm
  | property => exact (gives_propertyMembers hfields).map fun _ hp => hp
  | field => exact (gives_fieldMembers hfields).map fun _ hf => hf
  | event => exact (gives_eventMembers hfields).map fun _ he => he

/-- A member of any kind that is an array is canonical and nests no deeper. -/
theorem gives_memberOfItems {items : List Json} (kind : MemberKind)
    (hitems : ∀ item ∈ items, Json.Within (inner + 1) item) :
    Gives (memberOfItems items kind) (Fits encodeMember Member.Canonical (inner + 2)) := by
  cases kind with
  | method => exact ((yields_methodItems .method).all hitems).map fun _ hm => hm
  | constructor => exact ((yields_methodItems .constructor).all hitems).map fun _ hm => hm
  | property => exact (yields_propertyItems.all hitems).map fun _ hp => hp
  | field => exact (yields_fieldItems.all hitems).map fun _ hf => hf
  | event => exact (yields_eventItems.all hitems).map fun _ he => he

/-- The members that decode are canonical and nest no deeper, given room for two levels. -/
theorem ensures_member (inner : Nat) :
    Ensures (inner + 2) member (Fits encodeMember Member.Canonical (inner + 2)) := by
  intro value hvalue
  unfold member
  split
  · next members =>
    obtain ⟨depth, hdepth, hmembers⟩ := hvalue.of_object
    obtain rfl : inner + 1 = depth := by omega
    split
    · exact Gives.trivial.bind fun kind _ => gives_memberOfMembers kind hmembers
    · exact .error
  · next name items =>
    obtain ⟨depth, hdepth, hitems⟩ := hvalue.of_array
    obtain rfl : inner + 1 = depth := by omega
    have hrest := (List.forall_mem_cons.mp hitems).2
    exact Gives.trivial.bind fun kind _ => gives_memberOfItems kind hrest
  · exact .error

end Members

section Types

variable {inner : Nat}

/-- A type fits one level above everything it refers to and declares. -/
theorem fits_typeDef {t : TypeDef}
    (hattributes : FitsUnlessEmpty encodeAttribute Attribute.Canonical inner t.attributes)
    (hbase : ∀ base ∈ t.base, Fits encodeTypeRef TypeRef.Canonical inner base)
    (hgeneric : FitsUnlessEmpty encodeTypeRef TypeRef.Canonical inner t.genericArguments)
    (hinterfaces : FitsUnlessEmpty encodeTypeRef TypeRef.Canonical inner t.interfaces)
    (hmembers : FitsUnlessEmpty encodeMember Member.Canonical inner t.members) :
    Fits encodeTypeDef TypeDef.Canonical (inner + 1) t := by
  have htexts : ∀ (field : Option String), ∀ x ∈ field,
      Fits Json.string (fun _ => True) inner x := fun _ _ _ => ⟨trivial, .string⟩
  refine ⟨⟨fun base h => (hbase base h).1, hinterfaces.canonical, hgeneric.canonical,
    hattributes.canonical, hmembers.canonical⟩, .object ?_⟩
  rw [encodeTypeRefs_eq_map, encodeTypeRefs_eq_map, attributesMember]
  simp only [List.forall_mem_append]
  refine ⟨⟨⟨⟨⟨⟨⟨⟨⟨hattributes.within_nonempty, within_optional hbase⟩,
    within_optional (htexts _)⟩, ?_⟩, hgeneric.within_nonempty⟩, hinterfaces.within_nonempty⟩,
    ?_⟩, hmembers.within_nonempty⟩, ?_⟩, within_optional (htexts _)⟩
  · simp
  · simp
  · simp

/-- The members of a type that decode are canonical and nest no deeper. -/
theorem ensures_members (inner : Nat) : Ensures (inner + 3) (listOf member)
    (FitsUnlessEmpty encodeMember Member.Canonical (inner + 3)) := by
  refine .optionalList fun depth hdepth => ?_
  obtain rfl : inner + 2 = depth := by omega
  exact ensures_member inner

/-- The types that decode are canonical and nest no deeper, given room for four levels. -/
theorem ensures_typeDef (inner : Nat) :
    Ensures (inner + 4) typeDef (Fits encodeTypeDef TypeDef.Canonical (inner + 4)) := by
  refine .record ?_ ?_
  · intro depth hdepth fields hfields
    obtain rfl : inner + 3 = depth := by omega
    refine ((ensures_typeAttributes _).member? hfields).bind fun attributes hattributes => ?_
    refine ((ensures_typeRef _).nullable.member? hfields).bind fun base hbase => ?_
    refine Gives.trivial.bind fun declaringType _ => Gives.trivial.bind fun flags _ => ?_
    refine ((ensures_typeRefList _).member? hfields).bind fun genericArguments hgeneric => ?_
    refine ((ensures_typeRefList _).member? hfields).bind fun interfaces hinterfaces => ?_
    refine Gives.trivial.bind fun kind _ => ?_
    refine ((ensures_members _).member? hfields).bind fun members hmembers => ?_
    refine Gives.trivial.bind fun name _ => Gives.trivial.bind fun nameSpace _ => ?_
    refine Gives.trivial.bind fun name _ => .pure ?_
    exact fits_typeDef (forall_getD hattributes fitsUnlessEmpty_nil) (forall_join hbase)
      (forall_getD hgeneric fitsUnlessEmpty_nil) (forall_getD hinterfaces fitsUnlessEmpty_nil)
      (forall_getD hmembers fitsUnlessEmpty_nil)
  · intro depth hdepth
    obtain rfl : inner + 3 = depth := by omega
    refine .bind (.next .trivial) fun name _ => ?_
    refine .bind (.nextD .trivial trivial) fun nameSpace _ => ?_
    refine .bind (.nextD .trivial trivial) fun declaringType _ => ?_
    refine .bind (.nextD .trivial trivial) fun flags _ => ?_
    refine .bind (.nextD .trivial trivial) fun kind _ => ?_
    refine .bind (.nextD (ensures_typeRef _).nullable nofun) fun base hbase => ?_
    refine .bind (.nextD (ensures_typeRefList _) fitsUnlessEmpty_nil)
      fun interfaces hinterfaces => ?_
    refine .bind (.nextD (ensures_typeRefList _) fitsUnlessEmpty_nil) fun generics hgeneric => ?_
    refine .bind (.nextD (ensures_typeAttributes _) fitsUnlessEmpty_nil)
      fun attributes hattributes => ?_
    refine .bind (.nextD (ensures_members _) fitsUnlessEmpty_nil) fun members hmembers => ?_
    exact .pure (fits_typeDef hattributes hbase hgeneric hinterfaces hmembers)

end Types

section Modules

/-- The identity of a module is a record of scalars. -/
theorem ensures_moduleIdentity (depth : Nat) :
    Ensures depth moduleIdentity (Fits encodeIdentity (fun _ => True) depth) := by
  refine .plainRecord fun inner identity => .object ?_
  have htexts : ∀ (field : Option String), ∀ x ∈ field,
      Fits Json.string (fun _ => True) inner x := fun _ _ _ => ⟨trivial, .string⟩
  simp only [List.forall_mem_append]
  exact ⟨⟨⟨⟨within_optional (htexts _), by simp⟩, within_optional (htexts _)⟩,
    within_optional (htexts _)⟩, within_optional (htexts _)⟩

/-- A resource is a record of scalars. -/
theorem ensures_resource (depth : Nat) :
    Ensures depth resource (Fits encodeResource (fun _ => True) depth) := by
  refine .plainRecord fun inner resource => .object ?_
  have hsize : Json.Within inner (.number (.unsigned resource.size)) := .number trivial
  simpa using hsize

/-- An entry point is a record of scalars. -/
theorem ensures_entryPoint (depth : Nat) :
    Ensures depth entryPoint (Fits encodeEntryPoint (fun _ => True) depth) :=
  .plainRecord fun inner start => .object (by simp)

/-- The text of a file name is no container. -/
theorem ensures_text (depth : Nat) : Ensures depth text (Fits Json.string (fun _ => True) depth) :=
  fun _ _ _ _ => ⟨trivial, .string⟩

/-- The module of a document has the given types, and its form nests one deeper than its parts. -/
theorem gives_moduleMembers {inner : Nat} {types referencedTypes : List TypeDef}
    {fields : List (String × Json)}
    (htypes : FitsAll encodeTypeDef TypeDef.Canonical inner types)
    (hreferenced : FitsAll encodeTypeDef TypeDef.Canonical inner referencedTypes)
    (hfields : ∀ field ∈ fields, Json.Within inner field.2) :
    Gives (moduleMembers types referencedTypes fields) fun m =>
      m.types = types ∧ m.referencedTypes = referencedTypes ∧
        Json.Within (inner + 1) (encodeModule m) := by
  have hfiles : Ensures inner (listOf text) (FitsUnlessEmpty Json.string (fun _ => True) inner) :=
    .optionalList fun depth _ => ensures_text depth
  have hresources : Ensures inner (listOf resource)
      (FitsUnlessEmpty encodeResource (fun _ => True) inner) :=
    .optionalList fun depth _ => ensures_resource depth
  refine ((ensures_entryPoint _).nullable.member? hfields).bind fun start hstart => ?_
  refine (hfiles.member? hfields).bind fun files hfiles => ?_
  refine ((ensures_moduleIdentity _).member? hfields).bind fun identity hidentity => ?_
  refine Gives.trivial.bind fun location _ => ?_
  refine (hresources.member? hfields).bind fun resources hresources => ?_
  refine (Gives.required hidentity).bind fun identity hidentity => .pure ⟨rfl, rfl, .object ?_⟩
  simp only [List.forall_mem_append]
  refine ⟨⟨⟨⟨⟨⟨within_optional (forall_join hstart),
    (forall_getD hfiles fitsUnlessEmpty_nil).within_nonempty⟩, ?_⟩, ?_⟩,
    FitsUnlessEmpty.within_nonempty (.inr hreferenced)⟩,
    (forall_getD hresources fitsUnlessEmpty_nil).within_nonempty⟩, ?_⟩
  · simpa using hidentity.2
  · split <;> simp
  · simpa using htypes.2

/-- The entries of a list of types nest less deep than the document. -/
theorem within_of_entries {inner : Nat} {list : TypeList} {fields : List (String × Json)}
    {items : List Json} (hfields : ∀ field ∈ fields, Json.Within (inner + 1) field.2)
    (hitems : entries list fields = .ok items) : ∀ item ∈ items, Json.Within inner item := by
  unfold entries at hitems
  split at hitems
  · obtain rfl := Except.ok.inj hitems
    exact nofun
  · obtain rfl := Except.ok.inj hitems
    exact nofun
  · next values hvalues =>
    obtain rfl := Except.ok.inj hitems
    obtain ⟨depth, hdepth, hwithin⟩ := (within_of_member? hfields hvalues).of_array
    obtain rfl : inner = depth := by omega
    exact hwithin
  · cases hitems

/-- The types that are kept of a list are canonical and nest no deeper. -/
theorem fitsAll_keptTypes {inner : Nat} {items : List Json}
    (hitems : ∀ item ∈ items, Json.Within (inner + 4) item) :
    FitsAll encodeTypeDef TypeDef.Canonical (inner + 5) (keptTypes items) := by
  refine fitsAll_of_forall fun type htype => ?_
  obtain ⟨item, hitem, hdecoded⟩ := List.mem_filterMap.mp htype
  unfold decoded? at hdecoded
  cases hresult : typeDef item with
  | error e => rw [hresult] at hdecoded; cases hdecoded
  | ok decoded =>
    rw [hresult] at hdecoded
    obtain rfl := Option.some.inj hdecoded
    exact ensures_typeDef inner item (hitems item hitem) decoded hresult

/-- The module of a document is canonical. -/
theorem canonical_of_parse {document : List UInt8} {m : Module} {losses : List Warning}
    (hparse : parse document = .ok (m, losses)) : m.Canonical := by
  unfold parse at hparse
  split at hparse
  · cases hparse
  next value hread =>
  have hvalue : Json.Within 127 value := Json.within_of_read hread
  unfold ofJson at hparse
  split at hparse
  · next members =>
    obtain ⟨inner, hinner, hmembers⟩ := hvalue.of_object
    obtain rfl : 126 = inner := by omega
    split at hparse
    · cases hparse
    · cases hparse
    next types referencedTypes htypes hreferenced =>
    split at hparse
    · cases hparse
    next decoded hdecoded =>
    obtain ⟨rfl, -⟩ := Prod.mk.inj (Except.ok.inj hparse)
    have hkept : FitsAll encodeTypeDef TypeDef.Canonical 126 (keptTypes types) :=
      fitsAll_keptTypes (within_of_entries hmembers htypes)
    have hkeptReferenced : FitsAll encodeTypeDef TypeDef.Canonical 126
        (keptTypes referencedTypes) :=
      fitsAll_keptTypes (within_of_entries hmembers hreferenced)
    have hrest : ∀ member ∈ besidesLists members, Json.Within 126 member.2 :=
      fun member hmember => hmembers member (List.mem_filter.mp hmember |>.1)
    obtain ⟨htypesEq, hreferencedEq, hwithin⟩ :=
      gives_moduleMembers hkept hkeptReferenced hrest decoded hdecoded
    exact ⟨htypesEq ▸ hkept.1, hreferencedEq ▸ hkeptReferenced.1,
      Nat.lt_succ_of_le hwithin.nesting_le⟩
  · cases hparse

end Modules

end ModuleInspector.Snapshot
