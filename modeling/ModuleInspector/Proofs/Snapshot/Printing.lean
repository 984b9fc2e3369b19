import ModuleInspector.Proofs.Json.ReadCompact
import ModuleInspector.Proofs.Snapshot.Canonical

/-!
# Forms in order

The members that encoding writes ascend by their keys, so a reader returns them in the same order.
-/

namespace ModuleInspector.Snapshot

/-- Whether members have some of the given keys in their order, and values in order. -/
def TidyMembers (keys : List String) (members : List (String × Json)) : Prop :=
  (members.map Prod.fst).Sublist keys ∧ ∀ member ∈ members, member.2.Tidy

namespace TidyMembers

/-- A member that is always written. -/
theorem single {key : String} {value : Json} (hvalue : value.Tidy) :
    TidyMembers [key] [(key, value)] :=
  ⟨.refl _, by simpa using hvalue⟩

/-- A member that is written when there is a value. -/
theorem optional {α : Type} {key : String} {encode : α → Json} {field : Option α}
    (hfield : ∀ x ∈ field, (encode x).Tidy) :
    TidyMembers [key] (Snapshot.optional key encode field) := by
  cases field with
  | none => exact ⟨List.nil_sublist _, nofun⟩
  | some x => exact single (hfield x rfl)

/-- A member that is written when it is not empty. -/
theorem nonempty {key : String} {items : List Json} (hitems : ∀ item ∈ items, item.Tidy) :
    TidyMembers [key] (Snapshot.nonempty key items) := by
  cases items with
  | nil => exact ⟨List.nil_sublist _, nofun⟩
  | cons item items => exact single (.array hitems)

/-- Members after each other have their keys after each other. -/
theorem append {front back : List String} {first second : List (String × Json)}
    (hfirst : TidyMembers front first) (hsecond : TidyMembers back second) :
    TidyMembers (front ++ back) (first ++ second) := by
  refine ⟨?_, List.forall_mem_append.mpr ⟨hfirst.2, hsecond.2⟩⟩
  rw [List.map_append]
  exact hfirst.1.append hsecond.1

/-- The object of members whose keys ascend. -/
theorem object {keys : List String} {members : List (String × Json)}
    (hmembers : TidyMembers keys members)
    (hkeys : keys.Pairwise fun first second => compare first second = .lt) :
    (Json.object members).Tidy :=
  .object (hkeys.sublist hmembers.1) hmembers.2

end TidyMembers

/-- A text is in order. -/
theorem tidy_string (field : Option String) : ∀ value ∈ field, (Json.string value).Tidy :=
  fun _ _ => .string

/-- A number of 32 bits is in order. -/
theorem tidy_encodeWord32 (value : UInt32) : (encodeWord32 value).Tidy := .unsigned

mutual

/-- The form of a reference is in order. -/
theorem tidy_encodeTypeRef : (reference : TypeRef) → (encodeTypeRef reference).Tidy
  | .named name fullName => by
    rw [encodeTypeRef]
    have hfullName : TidyMembers ["full_name"] (optional "full_name" Json.string fullName) :=
      .optional (tidy_string fullName)
    exact (hfullName.append (.append (.single .string) (.single .string))).object (by decide)
  | .generic definition arguments => by
    rw [encodeTypeRef]
    have harguments : (Json.array (encodeTypeRefs arguments)).Tidy :=
      .array (tidy_encodeTypeRefs arguments)
    exact ((TidyMembers.single harguments).append
      (.append (.single .string) (.single .string))).object (by decide)
  | .array element rank => by
    rw [encodeTypeRef]
    exact ((TidyMembers.single (tidy_encodeTypeRef element)).append
      (.append (.single .string) (.single (tidy_encodeWord32 rank)))).object (by decide)
  | .byRef element => by
    rw [encodeTypeRef]
    exact ((TidyMembers.single (tidy_encodeTypeRef element)).append (.single .string)).object
      (by decide)

/-- The forms of a list of references are in order. -/
theorem tidy_encodeTypeRefs : (references : List TypeRef) →
    ∀ item ∈ encodeTypeRefs references, item.Tidy
  | [] => nofun
  | reference :: references => by
    rw [encodeTypeRefs]
    exact List.forall_mem_cons.mpr ⟨tidy_encodeTypeRef reference, tidy_encodeTypeRefs references⟩

end

mutual

/-- The form of a literal is in order. -/
theorem tidy_encodeLiteral : (literal : Literal) → (encodeLiteral literal).Tidy
  | .null => .null
  | .bool _ => .bool
  | .int value => by
    rw [encodeLiteral]
    split
    · next hvalue => exact .negative hvalue
    · exact .unsigned
  | .uint _ => .unsigned
  | .float value => by
    rw [encodeLiteral]
    split
    · exact .float
    · exact .null
  | .string _ => .string
  | .char _ => by
    rw [encodeLiteral]
    exact (TidyMembers.single .string).object (by decide)
  | .enumerant _ _ => by
    rw [encodeLiteral]
    exact ((TidyMembers.single .string).append (.single .string)).object (by decide)
  | .typeOf type => by
    rw [encodeLiteral]
    exact (TidyMembers.single (tidy_encodeTypeRef type)).object (by decide)
  | .array items => .array (tidy_encodeLiterals items)

/-- The forms of a list of literals are in order. -/
theorem tidy_encodeLiterals : (items : List Literal) →
    ∀ item ∈ encodeLiterals items, item.Tidy
  | [] => nofun
  | item :: items => by
    rw [encodeLiterals]
    exact List.forall_mem_cons.mpr ⟨tidy_encodeLiteral item, tidy_encodeLiterals items⟩

end

/-- Values whose forms are in order are listed in order. -/
theorem tidy_map {α : Type} {encode : α → Json} (hencode : ∀ x, (encode x).Tidy) (xs : List α) :
    ∀ item ∈ xs.map encode, item.Tidy :=
  List.forall_mem_map.mpr fun x _ => hencode x

/-- The form of a named argument is in order. -/
theorem tidy_encodeNamedArgument (argument : NamedArgument) :
    (encodeNamedArgument argument).Tidy :=
  ((TidyMembers.single .string).append (.single (tidy_encodeLiteral argument.value))).object
    (by decide)

/-- The form of an attribute is in order. -/
theorem tidy_encodeAttribute (a : Attribute) : (encodeAttribute a).Tidy :=
  TidyMembers.nonempty (tidy_encodeLiterals a.arguments)
    |>.append (.nonempty (tidy_map tidy_encodeNamedArgument a.namedArguments))
    |>.append (.single (tidy_encodeTypeRef a.type))
    |>.object (by decide)

/-- The member that holds attributes is in order. -/
theorem tidy_attributesMember (attributes : List Attribute) :
    TidyMembers ["attributes"] (attributesMember attributes) :=
  .nonempty (tidy_map tidy_encodeAttribute attributes)

/-- The form of a method body is in order. -/
theorem tidy_encodeMethodBody (body : MethodBody) : (encodeMethodBody body).Tidy :=
  ((TidyMembers.single (tidy_encodeWord32 _)).append (.single (tidy_encodeWord32 _))).object
    (by decide)

/-- The form of a parameter is in order. -/
theorem tidy_encodeParameter (p : Parameter) : (encodeParameter p).Tidy :=
  ((TidyMembers.optional fun x _ => tidy_encodeLiteral x).append
    ((TidyMembers.single (tidy_encodeWord32 _)).append
      (.append (.single .string) (.single (tidy_encodeTypeRef p.type))))).object (by decide)

/-- The form of a method or constructor is in order. -/
theorem tidy_encodeMethod (kind : MemberKind) (m : Method) : (encodeMethod kind m).Tidy := by
  have hbody : TidyMembers ["body"] (optional "body" encodeMethodBody m.body) :=
    .optional fun x _ => tidy_encodeMethodBody x
  have hgeneric : TidyMembers ["generic_arguments"]
      (nonempty "generic_arguments" (encodeTypeRefs m.genericArguments)) :=
    .nonempty (tidy_encodeTypeRefs m.genericArguments)
  have hparameters : TidyMembers ["parameters"]
      (nonempty "parameters" (m.parameters.map encodeParameter)) :=
    .nonempty (tidy_map tidy_encodeParameter m.parameters)
  exact tidy_attributesMember m.attributes
    |>.append hbody
    |>.append (.single (tidy_encodeWord32 m.flags))
    |>.append hgeneric
    |>.append (.append (.single .string) (.single .string))
    |>.append hparameters
    |>.append (.single (tidy_encodeTypeRef m.returnType))
    |>.object (by decide)

/-- The form of an accessor is in order. -/
theorem tidy_encodeAccessor (a : Accessor) : (encodeAccessor a).Tidy :=
  ((TidyMembers.single (tidy_encodeWord32 a.flags)).append (.single .string)).object (by decide)

/-- A member that holds an accessor is in order. -/
theorem tidy_accessorMember (key : String) (field : Option Accessor) :
    TidyMembers [key] (optional key encodeAccessor field) :=
  .optional fun x _ => tidy_encodeAccessor x

/-- The form of a member is in order. -/
theorem tidy_encodeMember (member : Member) : (encodeMember member).Tidy := by
  cases member with
  | method m => exact tidy_encodeMethod .method m
  | constructor m => exact tidy_encodeMethod .constructor m
  | property p =>
    exact tidy_attributesMember p.attributes
      |>.append (tidy_accessorMember "getter" p.getter)
      |>.append (.append (.single .string) (.single .string))
      |>.append (tidy_accessorMember "setter" p.setter)
      |>.append (.single (tidy_encodeTypeRef p.type))
      |>.object (by decide)
  | field f =>
    have hlater : TidyMembers ["flags", "kind", "name", "type"]
        [("flags", encodeWord32 f.flags), ("kind", .string MemberKind.field.name),
          ("name", .string f.name), ("type", encodeTypeRef f.type)] :=
      .append (.single (tidy_encodeWord32 f.flags))
        (.append (.single .string) (.append (.single .string)
          (.single (tidy_encodeTypeRef f.type))))
    exact ((tidy_attributesMember f.attributes).append hlater).object (by decide)
  | event e =>
    exact tidy_accessorMember "adder" e.adder
      |>.append (tidy_attributesMember e.attributes)
      |>.append (.append (.single (tidy_encodeTypeRef e.handlerType))
        (.append (.single .string) (.single .string)))
      |>.append (tidy_accessorMember "remover" e.remover)
      |>.object (by decide)

/-- The form of a type is in order. -/
theorem tidy_encodeTypeDef (t : TypeDef) : (encodeTypeDef t).Tidy := by
  have hbase : TidyMembers ["base"] (optional "base" encodeTypeRef t.base) :=
    .optional fun x _ => tidy_encodeTypeRef x
  have hdeclaring : TidyMembers ["declaring_type"]
      (optional "declaring_type" Json.string t.declaringType) := .optional (tidy_string _)
  have hnameSpace : TidyMembers ["namespace"] (optional "namespace" Json.string t.nameSpace) :=
    .optional (tidy_string _)
  have hgeneric : TidyMembers ["generic_arguments"]
      (nonempty "generic_arguments" (encodeTypeRefs t.genericArguments)) :=
    .nonempty (tidy_encodeTypeRefs t.genericArguments)
  have hinterfaces : TidyMembers ["interfaces"]
      (nonempty "interfaces" (encodeTypeRefs t.interfaces)) :=
    .nonempty (tidy_encodeTypeRefs t.interfaces)
  have hdeclared : TidyMembers ["members"] (nonempty "members" (t.members.map encodeMember)) :=
    .nonempty (tidy_map tidy_encodeMember t.members)
  exact tidy_attributesMember t.attributes
    |>.append hbase
    |>.append hdeclaring
    |>.append (.single (tidy_encodeWord32 t.flags))
    |>.append hgeneric
    |>.append hinterfaces
    |>.append (.single .string)
    |>.append hdeclared
    |>.append (.single .string)
    |>.append hnameSpace
    |>.object (by decide)

/-- The form of a module identity is in order. -/
theorem tidy_encodeIdentity (identity : ModuleIdentity) : (encodeIdentity identity).Tidy := by
  have htext : ∀ key field, TidyMembers [key] (optional key Json.string field) :=
    fun key field => .optional (tidy_string field)
  exact htext "culture" identity.culture
    |>.append (.single .string)
    |>.append (htext "public_key" identity.publicKey)
    |>.append (htext "public_key_token" identity.publicKeyToken)
    |>.append (htext "version" identity.version)
    |>.object (by decide)

/-- The form of a resource is in order. -/
theorem tidy_encodeResource (r : Resource) : (encodeResource r).Tidy :=
  ((TidyMembers.single .string).append (.single .unsigned)).object (by decide)

/-- The form of an entry point is in order. -/
theorem tidy_encodeEntryPoint (e : EntryPoint) : (encodeEntryPoint e).Tidy :=
  ((TidyMembers.single .string).append (.single .string)).object (by decide)

/-- The form of a module is in order. -/
theorem tidy_encodeModule (m : Module) : (encodeModule m).Tidy := by
  have hstart : TidyMembers ["entry_point"]
      (optional "entry_point" encodeEntryPoint m.entryPoint) :=
    .optional fun x _ => tidy_encodeEntryPoint x
  have hfiles : TidyMembers ["files"] (nonempty "files" (m.files.map .string)) :=
    .nonempty (tidy_map (fun _ => .string) m.files)
  have hlocation : TidyMembers ["location"]
      (if m.location = "" then [] else [("location", .string m.location)]) := by
    split
    · exact ⟨List.nil_sublist _, nofun⟩
    · exact .single .string
  have hreferenced : TidyMembers ["referenced_types"]
      (nonempty "referenced_types" (m.referencedTypes.map encodeTypeDef)) :=
    .nonempty (tidy_map tidy_encodeTypeDef m.referencedTypes)
  have hresources : TidyMembers ["resources"]
      (nonempty "resources" (m.resources.map encodeResource)) :=
    .nonempty (tidy_map tidy_encodeResource m.resources)
  exact hstart
    |>.append hfiles
    |>.append (.single (tidy_encodeIdentity m.identity))
    |>.append hlocation
    |>.append hreferenced
    |>.append hresources
    |>.append (.single (.array (tidy_map tidy_encodeTypeDef m.types)))
    |>.object (by decide)

end ModuleInspector.Snapshot
