import ModuleInspector.Text.Pieces

/-!
# Type references

A type as a signature mentions it. A reference is a plain name, an instance of a generic
definition, an array, or a type passed by reference. Its canonical text is what every listing
prints and what hides or distinguishes members.
-/

namespace ModuleInspector

/-- A reference to a type. A plain reference without a qualified name is a generic parameter. -/
inductive TypeRef
  | named (name : String) (fullName : Option String)
  | generic (definition : String) (arguments : List TypeRef)
  | array (element : TypeRef) (rank : UInt32)
  | byRef (element : TypeRef)

/-- The part of a qualified name after its last namespace dot or nesting plus. -/
def simpleNameOf (fullName : String) : String :=
  String.ofList (Text.afterLast (fun c => c = '.' || c = '+') fullName.toList)

/-- The part of a generic definition before the backtick of its arity. -/
def definitionStem (definition : String) : String :=
  String.ofList (definition.toList.takeWhile (· != '\x60'))

namespace TypeRef

/-- The reference to a type by its qualified name. -/
def ofFullName (fullName : String) : TypeRef := named (simpleNameOf fullName) (some fullName)

/-- The reference to a generic parameter. -/
def parameter (name : String) : TypeRef := named name none

/-- The type that a method without a result returns. -/
def void : TypeRef := ofFullName "System.Void"

/-- The brackets of an array, with a comma for every dimension after the first. -/
def brackets (rank : UInt32) : String :=
  String.ofList ('[' :: List.replicate (rank.toNat - 1) ',' ++ [']'])

mutual

/-- The canonical text. -/
def text : TypeRef → String
  | named name fullName => fullName.getD name
  | generic definition arguments =>
    definitionStem definition ++ "<" ++ Text.join ", " (texts arguments) ++ ">"
  | array element rank => element.text ++ brackets rank
  | byRef element => element.text ++ "&"

/-- The canonical texts of a list of references. -/
def texts : List TypeRef → List String
  | [] => []
  | reference :: references => reference.text :: texts references

end

/-- The unqualified name. -/
def simpleName : TypeRef → String
  | named name _ => name
  | generic definition _ => simpleNameOf definition
  | array element rank => element.simpleName ++ brackets rank
  | byRef element => element.simpleName ++ "&"

/-- The qualified name of a plain reference. -/
def fullName? : TypeRef → Option String
  | named _ fullName => fullName
  | _ => none

/-- The qualified name of the definition a reference is built from. -/
def definitionName? : TypeRef → Option String
  | named _ fullName => fullName
  | generic definition _ => some definition
  | _ => none

/-- Whether the type is passed by reference. -/
def isByRef : TypeRef → Bool
  | byRef _ => true
  | _ => false

/-- The type behind a by-reference type, or the type itself. -/
def stripByRef : TypeRef → TypeRef
  | byRef element => element
  | other => other

theorem texts_eq_map (references : List TypeRef) : texts references = references.map text := by
  induction references with
  | nil => rfl
  | cons reference references ih => rw [texts, ih, List.map_cons]

/-- The canonical texts of a list of references, with commas between them. -/
def joined (references : List TypeRef) : String := Text.join ", " (texts references)

end TypeRef

/-- The language keywords of the built-in types. -/
def keywords : List (String × String) := [
  ("System.Boolean", "bool"), ("System.Byte", "byte"), ("System.SByte", "sbyte"),
  ("System.Char", "char"), ("System.Int16", "short"), ("System.UInt16", "ushort"),
  ("System.Int32", "int"), ("System.UInt32", "uint"), ("System.Int64", "long"),
  ("System.UInt64", "ulong"), ("System.Single", "float"), ("System.Double", "double"),
  ("System.Decimal", "decimal"), ("System.String", "string"), ("System.Object", "object"),
  ("System.Void", "void")]

/-- The keyword of a built-in type by its qualified name. -/
def keyword? (fullName : String) : Option String := keywords.lookup fullName

end ModuleInspector
