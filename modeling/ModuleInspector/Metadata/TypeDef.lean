import ModuleInspector.Metadata.Member

/-!
# Type definitions

What a module records about one type. The qualified name is the namespace and the name, or the
enclosing type and the name for a nested type.
-/

namespace ModuleInspector

/-- The declared kind of a type. A static class is a class that is both abstract and sealed. -/
inductive TypeKind
  | classType
  | structType
  | interfaceType
  | enumType
  deriving DecidableEq

namespace TypeKind

/-- All kinds. -/
def all : List TypeKind := [classType, structType, interfaceType, enumType]

/-- The name of a kind. -/
def name : TypeKind → String
  | classType => "class"
  | structType => "struct"
  | interfaceType => "interface"
  | enumType => "enum"

/-- The kind with a name, in lower case. -/
def ofName? (text : String) : Option TypeKind := all.find? fun kind => kind.name = text

end TypeKind

/-- A type with its members. -/
structure TypeDef where
  name : String
  nameSpace : Option String
  declaringType : Option String
  flags : UInt32
  kind : TypeKind
  base : Option TypeRef
  interfaces : List TypeRef
  genericArguments : List TypeRef
  attributes : List Attribute
  members : List Member

namespace TypeDef

/-- A top-level class without members; an empty namespace is none. -/
def ofName (nameSpace name : String) (flags : UInt32) : TypeDef :=
  ⟨name, if nameSpace = "" then none else some nameSpace, none, flags, .classType, none, [], [],
    [], []⟩

/-- The namespace, where an empty one is none. -/
def nameSpace? (t : TypeDef) : Option String := t.nameSpace.filter (· != "")

/-- The qualified name. -/
def fullName (t : TypeDef) : String :=
  match t.declaringType with
  | some outer => outer ++ "+" ++ t.name
  | none =>
    match t.nameSpace? with
    | some nameSpace => nameSpace ++ "." ++ t.name
    | none => t.name

/-- Whether the type is declared inside another one. -/
def isNested (t : TypeDef) : Bool := t.declaringType.isSome

/-- Whether the type counts as public in listings. -/
def isPublic (t : TypeDef) : Bool := Accessibility.isPublicType t.isNested t.flags

/-- The accessibility of the type. -/
def accessibility (t : TypeDef) : Accessibility := .ofType t.isNested t.flags

/-- Whether the type is an interface, by its kind or its word. -/
def isInterface (t : TypeDef) : Bool :=
  t.kind = .interfaceType || Flags.has t.flags Flags.interfaceType

/-- Whether the type has no instances of its own. -/
def isAbstract (t : TypeDef) : Bool := Flags.has t.flags Flags.abstractType

/-- Whether the type cannot be derived from. -/
def isSealed (t : TypeDef) : Bool := Flags.has t.flags Flags.sealedType

/-- Whether the type is a static class. -/
def isStatic (t : TypeDef) : Bool := t.isAbstract && t.isSealed

/-- Whether the type has generic parameters. -/
def isGeneric (t : TypeDef) : Bool := !t.genericArguments.isEmpty

/-- The members of one kind, in metadata order. -/
def declared (t : TypeDef) (kind : MemberKind) : List Member :=
  t.members.filter fun member => member.kind = kind

/-- The label of the kind in listings. -/
def kindLabel (t : TypeDef) : String :=
  if t.isInterface then "interface"
  else
    match t.kind with
    | .enumType => "enum"
    | .structType => "struct"
    | _ => if t.isStatic then "static class" else "class"

/-- The line of the type in listings. -/
def line (t : TypeDef) : String :=
  t.fullName ++ " [" ++ t.accessibility.label ++ "] [" ++ t.kindLabel ++ "]"

end TypeDef

end ModuleInspector
