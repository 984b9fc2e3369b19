import ModuleInspector.Catalog.Members
import ModuleInspector.Json.Value

/-!
# The exported document

The JSON document of a module and its types. Keys keep the order in which they are listed here.
Constructors are not exported.
-/

namespace ModuleInspector.Export

/-- An exported member. -/
structure MemberModel where
  kind : String
  name : String
  signature : String
  deriving DecidableEq

/-- An exported type. -/
structure TypeModel where
  fullName : String
  accessibility : String
  kind : String
  baseType : Option String
  interfaces : List String
  attributes : List String
  members : List MemberModel
  deriving DecidableEq

/-- An exported module. -/
structure ModuleModel where
  name : String
  version : Option String
  location : String
  types : List TypeModel
  deriving DecidableEq

/-- The exported kinds of members, in order. -/
def exportedKinds : List MemberKind := [.method, .property, .field, .event]

/-- A member as it is exported. -/
def ofMember {m : Module} (includeNonPublic : Bool) (e : MemberEntry m) : MemberModel where
  kind := e.member.kind.name
  name := e.name
  signature := e.signature includeNonPublic

/-- The exported members of a type. -/
def membersOf {m : Module} (c : Catalog m) (includeNonPublic : Bool) (e : Entry m) :
    List MemberModel :=
  exportedKinds.flatMap fun kind =>
    (c.members e kind (.forVisibility includeNonPublic)).map (ofMember includeNonPublic)

/-- A type as it is exported, with its interfaces in the order of their texts. -/
def ofType {m : Module} (c : Catalog m) (includeMembers includeNonPublic : Bool)
    (e : Entry m) : TypeModel where
  fullName := e.name
  accessibility := e.type.accessibility.label
  kind := e.type.kindLabel
  baseType := e.type.base.map TypeRef.text
  interfaces := Text.sortOrdinal id (TypeRef.texts (c.interfacesOf e))
  attributes := e.type.attributes.map Attribute.text
  members := if includeMembers then membersOf c includeNonPublic e else []

/-- A module as it is exported, with the given types. -/
def ofModule (m : Module) (types : List TypeModel) : ModuleModel :=
  ⟨m.identity.name, m.identity.version, m.location, types⟩

/-- A text, or null when there is none. -/
def optionalText : Option String → Json
  | none => .null
  | some text => .string text

/-- The document of a member. -/
def MemberModel.toJson (model : MemberModel) : Json :=
  .object [("Kind", .string model.kind), ("Name", .string model.name),
    ("Signature", .string model.signature)]

/-- The document of a type. -/
def TypeModel.toJson (model : TypeModel) : Json :=
  .object [("FullName", .string model.fullName),
    ("Accessibility", .string model.accessibility), ("Kind", .string model.kind),
    ("BaseType", optionalText model.baseType),
    ("Interfaces", .array (model.interfaces.map .string)),
    ("Attributes", .array (model.attributes.map .string)),
    ("Members", .array (model.members.map MemberModel.toJson))]

/-- The document of a module. -/
def ModuleModel.toJson (model : ModuleModel) : Json :=
  .object [("Name", .string model.name), ("Version", optionalText model.version),
    ("Location", .string model.location), ("Types", .array (model.types.map TypeModel.toJson))]

end ModuleInspector.Export
