import ModuleInspector.Binary64.Shortest
import ModuleInspector.Metadata.TypeRef

/-!
# Literals and attributes

The constant values that attributes and default values hold, and the attributes that apply them.
-/

namespace ModuleInspector

/-- A constant value. -/
inductive Literal
  | null
  | bool (value : Bool)
  | int (value : Int64)
  | uint (value : UInt64)
  | float (value : Binary64)
  | string (value : String)
  | char (value : Char)
  | enumerant (enumType : String) (value : String)
  | typeOf (type : TypeRef)
  | array (items : List Literal)

namespace Literal

mutual

/-- The text of a value. -/
def text : Literal → String
  | null => "null"
  | bool value => if value then "true" else "false"
  | int value => toString value.toInt
  | uint value => toString value.toNat
  | float value => value.text
  | string value => "\"" ++ value ++ "\""
  | char value => String.ofList ['\x27', value, '\x27']
  | enumerant enumType value => simpleNameOf enumType ++ "." ++ value
  | typeOf type => type.text
  | array items => "[" ++ Text.join ", " (texts items) ++ "]"

/-- The texts of a list of values. -/
def texts : List Literal → List String
  | [] => []
  | item :: items => item.text :: texts items

end

theorem texts_eq_map (items : List Literal) : texts items = items.map text := by
  induction items with
  | nil => rfl
  | cons item items ih => rw [texts, ih, List.map_cons]

end Literal

/-- A field or property that an attribute sets. -/
structure NamedArgument where
  name : String
  value : Literal

/-- An attribute with its constructor arguments and the fields it sets. -/
structure Attribute where
  type : TypeRef
  arguments : List Literal
  namedArguments : List NamedArgument

namespace Attribute

/-- Whether an attribute has no arguments of either sort. -/
def isEmpty (a : Attribute) : Bool := a.arguments.isEmpty && a.namedArguments.isEmpty

/-- The attribute type, with the arguments in parentheses when there are any. -/
def text (a : Attribute) : String :=
  if a.isEmpty then a.type.text
  else
    a.type.text ++ "(" ++
      Text.join ", " (Literal.texts a.arguments ++
        a.namedArguments.map fun argument => argument.name ++ "=" ++ argument.value.text) ++ ")"

end Attribute

end ModuleInspector
