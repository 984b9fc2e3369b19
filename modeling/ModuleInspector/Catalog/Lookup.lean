import ModuleInspector.Catalog.Entry
import ModuleInspector.Text.Blank
import ModuleInspector.Text.Fold
import Std.Data.HashMap

/-!
# Looking up types

A catalog indexes the qualified names of a module by the first position that carries each of
them. References resolve through the index, to a defined type before an outside one. A text that
a user typed names a defined type, by its qualified or its simple name and with or without
regard to case.
-/

namespace ModuleInspector

/-- The first position of every name in a list. -/
structure NameIndex where
  positions : Std.HashMap String Nat

namespace NameIndex

/-- Adds the names from a position on; a name that is present keeps its position. -/
def addFrom (start : Nat) (positions : Std.HashMap String Nat) :
    List String → Std.HashMap String Nat
  | [] => positions
  | name :: names => addFrom (start + 1) (positions.insertIfNew name start) names

/-- The index of a list of names. -/
def ofNames (names : List String) : NameIndex := ⟨addFrom 0 ∅ names⟩

/-- The first position of a name. -/
def find? (index : NameIndex) (name : String) : Option Nat := index.positions[name]?

end NameIndex

/-- The indices of a module's names. -/
structure Catalog (m : Module) where
  defined : NameIndex
  referenced : NameIndex

namespace Catalog

variable {m : Module}

/-- The catalog of a module. -/
def of (m : Module) : Catalog m where
  defined := .ofNames (m.types.map TypeDef.fullName)
  referenced := .ofNames (m.referencedTypes.map TypeDef.fullName)

/-- The first defined type with a qualified name. -/
def definedNamed? (c : Catalog m) (name : String) : Option (Entry m) :=
  (c.defined.find? name).bind m.definedAt?

/-- The type that a typed identifier names: the first defined type with this qualified name, or
else with this qualified name in another case, or else with this simple name, or else with this
simple name in another case. -/
def findType? (c : Catalog m) (identifier : String) : Option (Entry m) :=
  if Text.isBlank identifier then none
  else
    ((c.definedNamed? identifier).or
      (m.definedEntries.find? fun e => Text.eqFolded e.name identifier)).or
    ((m.definedEntries.find? fun e => e.type.name = identifier).or
      (m.definedEntries.find? fun e => Text.eqFolded e.type.name identifier))

/-- The type a reference is built from. Arrays, by-reference types and generic parameters have
none. -/
def resolve (c : Catalog m) (reference : TypeRef) : Option (Entry m) :=
  match reference.definitionName? with
  | none => none
  | some name =>
    match c.defined.find? name with
    | some index => m.definedAt? index
    | none => (c.referenced.find? name).bind m.referencedAt?

/-- The base type, if it resolves. -/
def baseOf (c : Catalog m) (e : Entry m) : Option (Entry m) := e.type.base.bind c.resolve

end Catalog

namespace Module

/-- The defined types with the requested visibilities, in native order; without a request all of
them. -/
def listed (m : Module) (includePublic includeNonPublic : Bool) : List (Entry m) :=
  m.definedEntries.filter fun e =>
    if e.type.isPublic then includePublic || !includeNonPublic
    else includeNonPublic || !includePublic

/-- The defined types whose enclosing type carries the name of this one, in native order. -/
def nestedTypes (m : Module) (e : Entry m) : List (Entry m) :=
  m.definedEntries.filter fun inner => inner.type.declaringType = some e.name

/-- The name of a type together with the display name of the module. -/
def qualifiedName (m : Module) (e : Entry m) : String := e.name ++ ", " ++ m.identity.displayName

end Module

end ModuleInspector
