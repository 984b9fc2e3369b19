import ModuleInspector.Metadata.Module
import ModuleInspector.Json.Value

/-!
# Encoding metadata

The JSON forms that decoding reads. Members are written in the order of their keys, and a member
that decoding would supply by itself is left out, except flags, kinds and the other fields that
are always written.
-/

namespace ModuleInspector.Snapshot

/-- A member that is written when there is a value. -/
def optional {α : Type} (key : String) (encode : α → Json) : Option α → List (String × Json)
  | none => []
  | some value => [(key, encode value)]

/-- A member that is written when the list is not empty. -/
def nonempty (key : String) : List Json → List (String × Json)
  | [] => []
  | items => [(key, .array items)]

/-- A number of 32 bits. -/
def encodeWord32 (value : UInt32) : Json := .number (.unsigned value.toUInt64)

mutual

/-- The form of a type reference. -/
def encodeTypeRef : TypeRef → Json
  | .named name fullName =>
    .object (optional "full_name" .string fullName ++
      [("kind", .string "named"), ("name", .string name)])
  | .generic definition arguments =>
    .object [("arguments", .array (encodeTypeRefs arguments)),
      ("definition", .string definition), ("kind", .string "generic")]
  | .array element rank =>
    .object [("element", encodeTypeRef element), ("kind", .string "array"),
      ("rank", encodeWord32 rank)]
  | .byRef element =>
    .object [("element", encodeTypeRef element), ("kind", .string "by_ref")]

/-- The forms of a list of type references. -/
def encodeTypeRefs : List TypeRef → List Json
  | [] => []
  | reference :: references => encodeTypeRef reference :: encodeTypeRefs references

end

mutual

/-- The form of a literal. A double that is no number has no form and becomes null. -/
def encodeLiteral : Literal → Json
  | .null => .null
  | .bool value => .bool value
  | .int value =>
    if value < 0 then .number (.negative value) else .number (.unsigned value.toUInt64)
  | .uint value => .number (.unsigned value)
  | .float value => if value.isFinite then .number (.float value) else .null
  | .string value => .string value
  | .char value => .object [("char", .string (String.ofList [value]))]
  | .enumerant enumType value => .object [("enum", .string enumType), ("value", .string value)]
  | .typeOf type => .object [("type", encodeTypeRef type)]
  | .array items => .array (encodeLiterals items)

/-- The forms of a list of literals. -/
def encodeLiterals : List Literal → List Json
  | [] => []
  | item :: items => encodeLiteral item :: encodeLiterals items

end

/-- The form of a named argument. -/
def encodeNamedArgument (argument : NamedArgument) : Json :=
  .object [("name", .string argument.name), ("value", encodeLiteral argument.value)]

/-- The form of an attribute. -/
def encodeAttribute (a : Attribute) : Json :=
  .object (nonempty "arguments" (encodeLiterals a.arguments) ++
    nonempty "named_arguments" (a.namedArguments.map encodeNamedArgument) ++
    [("type", encodeTypeRef a.type)])

/-- The member that holds attributes. -/
def attributesMember (attributes : List Attribute) : List (String × Json) :=
  nonempty "attributes" (attributes.map encodeAttribute)

/-- The form of a method body. -/
def encodeMethodBody (body : MethodBody) : Json :=
  .object [("il_size", encodeWord32 body.ilSize), ("local_count", encodeWord32 body.localCount)]

/-- The form of a parameter. -/
def encodeParameter (p : Parameter) : Json :=
  .object (optional "default_value" encodeLiteral p.defaultValue ++
    [("flags", encodeWord32 p.flags), ("name", .string p.name), ("type", encodeTypeRef p.type)])

/-- The form of a method or constructor, which differ in their kind. -/
def encodeMethod (kind : MemberKind) (m : Method) : Json :=
  .object (attributesMember m.attributes ++ optional "body" encodeMethodBody m.body ++
    [("flags", encodeWord32 m.flags)] ++
    nonempty "generic_arguments" (encodeTypeRefs m.genericArguments) ++
    [("kind", .string kind.name), ("name", .string m.name)] ++
    nonempty "parameters" (m.parameters.map encodeParameter) ++
    [("return_type", encodeTypeRef m.returnType)])

/-- The form of an accessor. -/
def encodeAccessor (a : Accessor) : Json :=
  .object [("flags", encodeWord32 a.flags), ("name", .string a.name)]

/-- The form of a member. -/
def encodeMember : Member → Json
  | .method m => encodeMethod .method m
  | .constructor m => encodeMethod .constructor m
  | .property p =>
    .object (attributesMember p.attributes ++ optional "getter" encodeAccessor p.getter ++
      [("kind", .string MemberKind.property.name), ("name", .string p.name)] ++
      optional "setter" encodeAccessor p.setter ++ [("type", encodeTypeRef p.type)])
  | .field f =>
    .object (attributesMember f.attributes ++
      [("flags", encodeWord32 f.flags), ("kind", .string MemberKind.field.name),
        ("name", .string f.name), ("type", encodeTypeRef f.type)])
  | .event e =>
    .object (optional "adder" encodeAccessor e.adder ++ attributesMember e.attributes ++
      [("handler_type", encodeTypeRef e.handlerType), ("kind", .string MemberKind.event.name),
        ("name", .string e.name)] ++ optional "remover" encodeAccessor e.remover)

/-- The form of a type. -/
def encodeTypeDef (t : TypeDef) : Json :=
  .object (attributesMember t.attributes ++ optional "base" encodeTypeRef t.base ++
    optional "declaring_type" .string t.declaringType ++ [("flags", encodeWord32 t.flags)] ++
    nonempty "generic_arguments" (encodeTypeRefs t.genericArguments) ++
    nonempty "interfaces" (encodeTypeRefs t.interfaces) ++ [("kind", .string t.kind.name)] ++
    nonempty "members" (t.members.map encodeMember) ++ [("name", .string t.name)] ++
    optional "namespace" .string t.nameSpace)

/-- The form of a module identity. -/
def encodeIdentity (m : ModuleIdentity) : Json :=
  .object (optional "culture" .string m.culture ++ [("name", .string m.name)] ++
    optional "public_key" .string m.publicKey ++
    optional "public_key_token" .string m.publicKeyToken ++ optional "version" .string m.version)

/-- The form of a resource. -/
def encodeResource (r : Resource) : Json :=
  .object [("name", .string r.name), ("size", .number (.unsigned r.size))]

/-- The form of an entry point. -/
def encodeEntryPoint (e : EntryPoint) : Json :=
  .object [("declaring_type", .string e.declaringType), ("method", .string e.method)]

/-- The form of a module. -/
def encodeModule (m : Module) : Json :=
  .object (optional "entry_point" encodeEntryPoint m.entryPoint ++
    nonempty "files" (m.files.map .string) ++ [("identity", encodeIdentity m.identity)] ++
    (if m.location = "" then [] else [("location", .string m.location)]) ++
    nonempty "referenced_types" (m.referencedTypes.map encodeTypeDef) ++
    nonempty "resources" (m.resources.map encodeResource) ++
    [("types", .array (m.types.map encodeTypeDef))])

end ModuleInspector.Snapshot
