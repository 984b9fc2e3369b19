import ModuleInspector.Metadata.Module
import ModuleInspector.Snapshot.Record

/-!
# Decoding metadata

The JSON forms of type references, literals, attributes, members, types and modules.

References and members say in `kind` what they are; as an array they start with it. A kind is
recorded by its name. The kind of a reference inside a member, a literal or another reference may
also be recorded by its position among the kinds. A literal is the first of its alternatives that
fits, and an alternative that fails inside is one that does not fit.
-/

namespace ModuleInspector.Snapshot

/-- A rank between 1 and 32. -/
def arrayRank : Decoder UInt32 := fun value => do
  let rank ← word32 value
  if 1 ≤ rank.toNat ∧ rank.toNat ≤ 32 then return rank else .error (.arrayRank rank)

/-- A plain reference as an object. -/
def namedMembers (members : List (String × Json)) : Except DecodeError TypeRef := do
  let fullName ← member? "full_name" (nullable text) members
  let name ← member? "name" text members
  return .named (← required name) fullName.join

/-- A plain reference as an array. -/
def namedItems : Items TypeRef := do
  let name ← Items.next text
  let fullName ← Items.nextD none (nullable text)
  return .named name fullName

/-- The kinds of type references. -/
inductive ReferenceKind
  | named
  | generic
  | array
  | byRef
  deriving DecidableEq

namespace ReferenceKind

/-- All kinds of type references, in the order of their positions. -/
def all : List ReferenceKind := [named, generic, array, byRef]

/-- The name of a kind. -/
def name : ReferenceKind → String
  | named => "named"
  | generic => "generic"
  | array => "array"
  | byRef => "by_ref"

/-- The kind that a value records by its name or by its position. -/
def ofJson? : Json → Option ReferenceKind
  | .string text => all.find? fun kind => kind.name = text
  | .number (.unsigned position) => all[position.toNat]?
  | _ => none

end ReferenceKind

/-- The value that says what kind of reference an object or array is. -/
def kindValue? : Json → Option Json
  | .object members => Json.member? "kind" members
  | .array items => items.head?
  | _ => none

mutual

/-- A type reference inside a larger value. -/
def nestedTypeRef : Json → Except DecodeError TypeRef
  | .object members =>
    match (Json.member? "kind" members).bind ReferenceKind.ofJson? with
    | some .named => namedMembers members
    | some .generic => do
      let arguments ← argumentsMember? members
      let definition ← member? "definition" text members
      return .generic (← required definition) (← required arguments)
    | some .array => do
      let element ← elementMember? members
      let rank ← member? "rank" arrayRank members
      return .array (← required element) (← required rank)
    | some .byRef => do
      let element ← elementMember? members
      return .byRef (← required element)
    | none => .error .shape
  | .array (kind :: items) =>
    match ReferenceKind.ofJson? kind, items with
    | some .named, items => namedItems.all items
    | some .generic, definition :: .array arguments :: items => do
      let definition ← text definition
      let arguments ← typeRefs arguments
      if items.isEmpty then return .generic definition arguments else .error .shape
    | some .array, element :: items => do
      let element ← nestedTypeRef element
      let rank ← (Items.next arrayRank).all items
      return .array element rank
    | some .byRef, element :: items => do
      let element ← nestedTypeRef element
      if items.isEmpty then return .byRef element else .error .shape
    | _, _ => .error .shape
  | _ => .error .shape

/-- A list of type references inside a larger value, up to the first failure. -/
def typeRefs : List Json → Except DecodeError (List TypeRef)
  | [] => .ok []
  | item :: items => do
    let first ← nestedTypeRef item
    let rest ← typeRefs items
    return first :: rest

/-- The member `element` of an array or by-reference type. -/
def elementMember? : List (String × Json) → Except DecodeError (Option TypeRef)
  | [] => .ok none
  | (key, value) :: members =>
    if key = "element" then (nestedTypeRef value).map some else elementMember? members

/-- The member `arguments` of a generic type. -/
def argumentsMember? : List (String × Json) → Except DecodeError (Option (List TypeRef))
  | [] => .ok none
  | (key, value) :: members =>
    if key = "arguments" then
      match value with
      | .array items => (typeRefs items).map some
      | _ => .error .shape
    else argumentsMember? members

end

/-- A type reference that stands by itself: its kind is recorded by name. -/
def typeRef : Decoder TypeRef := fun value =>
  match kindValue? value with
  | some (.string _) => nestedTypeRef value
  | _ => .error .shape

-- Only inside a larger value is a kind recorded by its position.
example : nestedTypeRef (.array [.number (.unsigned 0), .string "Int32"]) =
    .ok (.named "Int32" none) := rfl

example : typeRef (.array [.number (.unsigned 0), .string "Int32"]) = .error .shape := rfl

/-- A single character. -/
def char? : Json → Option Char
  | .string value =>
    match value.toList with
    | [c] => some c
    | _ => none
  | _ => none

/-- A literal that is written as an object. -/
def objectLiteral? (members : List (String × Json)) : Option Literal :=
  match (Json.member? "char" members).bind char? with
  | some c => some (.char c)
  | none =>
    match Json.member? "enum" members, Json.member? "value" members with
    | some (.string enumType), some (.string value) => some (.enumerant enumType value)
    | _, _ =>
      match Json.member? "type" members with
      | none => none
      | some value => (nestedTypeRef value).toOption.map .typeOf

mutual

/-- A literal, if one fits. -/
def literal? : Json → Option Literal
  | .null => some .null
  | .bool value => some (.bool value)
  | .number (.unsigned value) =>
    if value.toNat < Nat.pow 2 63 then some (.int value.toInt64) else some (.uint value)
  | .number (.negative value) => some (.int value)
  | .number (.float value) => some (.float value)
  | .string value => some (.string value)
  | .object members => objectLiteral? members
  | .array items => (literals? items).map .array

/-- A list of literals, if each of them fits. -/
def literals? : List Json → Option (List Literal)
  | [] => some []
  | item :: items =>
    match literal? item, literals? items with
    | some first, some rest => some (first :: rest)
    | _, _ => none

end

/-- A literal. -/
def literal : Decoder Literal := fun value => required (literal? value)

/-- A named argument of an attribute. -/
def namedArgument : Decoder NamedArgument :=
  record
    (fun members => do
      let name ← member? "name" text members
      let value ← member? "value" literal members
      return ⟨← required name, value.getD .null⟩)
    (do
      let name ← Items.next text
      let value ← Items.nextD .null literal
      return ⟨name, value⟩)

/-- An attribute whose type is decoded in a given way. -/
def customAttribute (reference : Decoder TypeRef) : Decoder Attribute :=
  record
    (fun members => do
      let arguments ← member? "arguments" (listOf literal) members
      let namedArguments ← member? "named_arguments" (listOf namedArgument) members
      let type ← member? "type" reference members
      return ⟨← required type, arguments.getD [], namedArguments.getD []⟩)
    (do
      let type ← Items.next reference
      let arguments ← Items.nextD [] (listOf literal)
      let namedArguments ← Items.nextD [] (listOf namedArgument)
      return ⟨type, arguments, namedArguments⟩)

/-- The summary of a method body. -/
def methodBody : Decoder MethodBody :=
  record
    (fun members => do
      let ilSize ← member? "il_size" word32 members
      let localCount ← member? "local_count" word32 members
      return ⟨ilSize.getD 0, localCount.getD 0⟩)
    (do
      let ilSize ← Items.nextD 0 word32
      let localCount ← Items.nextD 0 word32
      return ⟨ilSize, localCount⟩)

/-- A parameter. -/
def parameter : Decoder Parameter :=
  record
    (fun members => do
      let defaultValue ← member? "default_value" (nullable literal) members
      let flags ← member? "flags" word32 members
      let name ← member? "name" text members
      let type ← member? "type" nestedTypeRef members
      return ⟨name.getD "", ← required type, flags.getD 0, defaultValue.join⟩)
    (do
      let name ← Items.nextD "" text
      let type ← Items.next nestedTypeRef
      let flags ← Items.nextD 0 word32
      let defaultValue ← Items.nextD none (nullable literal)
      return ⟨name, type, flags, defaultValue⟩)

/-- The members of a method or constructor. -/
def methodMembers (members : List (String × Json)) : Except DecodeError Method := do
  let attributes ← member? "attributes" (listOf (customAttribute nestedTypeRef)) members
  let body ← member? "body" (nullable methodBody) members
  let flags ← member? "flags" word32 members
  let genericArguments ← member? "generic_arguments" (listOf nestedTypeRef) members
  let name ← member? "name" text members
  let parameters ← member? "parameters" (listOf parameter) members
  let returnType ← member? "return_type" nestedTypeRef members
  return ⟨← required name, flags.getD 0, returnType.getD .void, genericArguments.getD [],
    parameters.getD [], attributes.getD [], body.join⟩

/-- The items of a method or constructor. -/
def methodItems : Items Method := do
  let name ← Items.next text
  let flags ← Items.nextD 0 word32
  let returnType ← Items.nextD .void nestedTypeRef
  let genericArguments ← Items.nextD [] (listOf nestedTypeRef)
  let parameters ← Items.nextD [] (listOf parameter)
  let attributes ← Items.nextD [] (listOf (customAttribute nestedTypeRef))
  let body ← Items.nextD none (nullable methodBody)
  return ⟨name, flags, returnType, genericArguments, parameters, attributes, body⟩

/-- An accessor. -/
def accessor : Decoder Accessor :=
  record
    (fun members => do
      let flags ← member? "flags" word32 members
      let name ← member? "name" text members
      return ⟨← required name, flags.getD 0⟩)
    (do
      let name ← Items.next text
      let flags ← Items.nextD 0 word32
      return ⟨name, flags⟩)

/-- The members of a property. -/
def propertyMembers (members : List (String × Json)) : Except DecodeError Property := do
  let attributes ← member? "attributes" (listOf (customAttribute nestedTypeRef)) members
  let getter ← member? "getter" (nullable accessor) members
  let name ← member? "name" text members
  let setter ← member? "setter" (nullable accessor) members
  let type ← member? "type" nestedTypeRef members
  return ⟨← required name, ← required type, getter.join, setter.join, attributes.getD []⟩

/-- The items of a property. -/
def propertyItems : Items Property := do
  let name ← Items.next text
  let type ← Items.next nestedTypeRef
  let getter ← Items.nextD none (nullable accessor)
  let setter ← Items.nextD none (nullable accessor)
  let attributes ← Items.nextD [] (listOf (customAttribute nestedTypeRef))
  return ⟨name, type, getter, setter, attributes⟩

/-- The members of a field. -/
def fieldMembers (members : List (String × Json)) : Except DecodeError Field := do
  let attributes ← member? "attributes" (listOf (customAttribute nestedTypeRef)) members
  let flags ← member? "flags" word32 members
  let name ← member? "name" text members
  let type ← member? "type" nestedTypeRef members
  return ⟨← required name, ← required type, flags.getD 0, attributes.getD []⟩

/-- The items of a field. -/
def fieldItems : Items Field := do
  let name ← Items.next text
  let type ← Items.next nestedTypeRef
  let flags ← Items.nextD 0 word32
  let attributes ← Items.nextD [] (listOf (customAttribute nestedTypeRef))
  return ⟨name, type, flags, attributes⟩

/-- The members of an event. -/
def eventMembers (members : List (String × Json)) : Except DecodeError Event := do
  let adder ← member? "adder" (nullable accessor) members
  let attributes ← member? "attributes" (listOf (customAttribute nestedTypeRef)) members
  let handlerType ← member? "handler_type" nestedTypeRef members
  let name ← member? "name" text members
  let remover ← member? "remover" (nullable accessor) members
  return ⟨← required name, ← required handlerType, adder.join, remover.join, attributes.getD []⟩

/-- The items of an event. -/
def eventItems : Items Event := do
  let name ← Items.next text
  let handlerType ← Items.next nestedTypeRef
  let adder ← Items.nextD none (nullable accessor)
  let remover ← Items.nextD none (nullable accessor)
  let attributes ← Items.nextD [] (listOf (customAttribute nestedTypeRef))
  return ⟨name, handlerType, adder, remover, attributes⟩

/-- The kind of a member by its exact name. -/
def memberKind? (name : String) : Option MemberKind :=
  MemberKind.all.find? fun kind => kind.name = name

/-- A member of a known kind as an object. -/
def memberOfMembers (members : List (String × Json)) :
    MemberKind → Except DecodeError Member
  | .method => (methodMembers members).map .method
  | .constructor => (methodMembers members).map .constructor
  | .property => (propertyMembers members).map .property
  | .field => (fieldMembers members).map .field
  | .event => (eventMembers members).map .event

/-- A member of a known kind as an array. -/
def memberOfItems (items : List Json) : MemberKind → Except DecodeError Member
  | .method => (methodItems.all items).map .method
  | .constructor => (methodItems.all items).map .constructor
  | .property => (propertyItems.all items).map .property
  | .field => (fieldItems.all items).map .field
  | .event => (eventItems.all items).map .event

/-- A member. -/
def member : Decoder Member
  | .object members =>
    match Json.member? "kind" members with
    | some (.string name) => do memberOfMembers members (← required (memberKind? name))
    | _ => .error .shape
  | .array (.string name :: items) => do memberOfItems items (← required (memberKind? name))
  | _ => .error .shape

/-- A kind of type: its name, or an object with the name as its only key and no value. -/
def typeKind : Decoder TypeKind
  | .string name => required (TypeKind.ofName? name)
  | .object [(name, .null)] => required (TypeKind.ofName? name)
  | _ => .error .shape

/-- A type. -/
def typeDef : Decoder TypeDef :=
  record
    (fun members => do
      let attributes ← member? "attributes" (listOf (customAttribute typeRef)) members
      let base ← member? "base" (nullable typeRef) members
      let declaringType ← member? "declaring_type" (nullable text) members
      let flags ← member? "flags" word32 members
      let genericArguments ← member? "generic_arguments" (listOf typeRef) members
      let interfaces ← member? "interfaces" (listOf typeRef) members
      let kind ← member? "kind" typeKind members
      let declared ← member? "members" (listOf member) members
      let name ← member? "name" text members
      let nameSpace ← member? "namespace" (nullable text) members
      return ⟨← required name, nameSpace.join, declaringType.join, flags.getD 0,
        kind.getD .classType, base.join, interfaces.getD [], genericArguments.getD [],
        attributes.getD [], declared.getD []⟩)
    (do
      let name ← Items.next text
      let nameSpace ← Items.nextD none (nullable text)
      let declaringType ← Items.nextD none (nullable text)
      let flags ← Items.nextD 0 word32
      let kind ← Items.nextD .classType typeKind
      let base ← Items.nextD none (nullable typeRef)
      let interfaces ← Items.nextD [] (listOf typeRef)
      let genericArguments ← Items.nextD [] (listOf typeRef)
      let attributes ← Items.nextD [] (listOf (customAttribute typeRef))
      let declared ← Items.nextD [] (listOf member)
      return ⟨name, nameSpace, declaringType, flags, kind, base, interfaces, genericArguments,
        attributes, declared⟩)

/-- The identity of a module. -/
def moduleIdentity : Decoder ModuleIdentity :=
  record
    (fun members => do
      let culture ← member? "culture" (nullable text) members
      let name ← member? "name" text members
      let publicKey ← member? "public_key" (nullable text) members
      let publicKeyToken ← member? "public_key_token" (nullable text) members
      let version ← member? "version" (nullable text) members
      return ⟨← required name, version.join, culture.join, publicKey.join, publicKeyToken.join⟩)
    (do
      let name ← Items.next text
      let version ← Items.nextD none (nullable text)
      let culture ← Items.nextD none (nullable text)
      let publicKey ← Items.nextD none (nullable text)
      let publicKeyToken ← Items.nextD none (nullable text)
      return ⟨name, version, culture, publicKey, publicKeyToken⟩)

/-- A resource. -/
def resource : Decoder Resource :=
  record
    (fun members => do
      let name ← member? "name" text members
      let size ← member? "size" word64 members
      return ⟨← required name, size.getD 0⟩)
    (do
      let name ← Items.next text
      let size ← Items.nextD 0 word64
      return ⟨name, size⟩)

/-- An entry point. -/
def entryPoint : Decoder EntryPoint :=
  record
    (fun members => do
      let declaringType ← member? "declaring_type" text members
      let method ← member? "method" text members
      return ⟨← required declaringType, ← required method⟩)
    (do
      let declaringType ← Items.next text
      let method ← Items.next text
      return ⟨declaringType, method⟩)

/-- The members of a module other than its two lists of types. -/
def moduleMembers (types referencedTypes : List TypeDef) (members : List (String × Json)) :
    Except DecodeError Module := do
  let start ← member? "entry_point" (nullable entryPoint) members
  let files ← member? "files" (listOf text) members
  let identity ← member? "identity" moduleIdentity members
  let location ← member? "location" text members
  let resources ← member? "resources" (listOf resource) members
  return ⟨← required identity, location.getD "", files.getD [], types, referencedTypes,
    resources.getD [], start.join⟩

end ModuleInspector.Snapshot
