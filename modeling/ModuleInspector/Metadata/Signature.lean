import ModuleInspector.Metadata.TypeDef

/-!
# Signatures

The one-line text of a member. It starts with the qualified name of the declaring type, so an
inherited member shows where it comes from.
-/

namespace ModuleInspector

/-- A parameter: its direction, type and name, and its default value if it has one. -/
def Parameter.text (p : Parameter) : String :=
  (if p.isOut then "out " else if p.type.isByRef then "ref " else "") ++
    p.type.stripByRef.text ++ " " ++ p.name ++
    (if p.hasDefault then " = " ++ (p.defaultValue.getD .null).text else "")

/-- A method: its name, generic arguments and parameters. -/
def Method.signature (declaring : TypeDef) (m : Method) : String :=
  declaring.fullName ++ "." ++ m.name ++
    (if m.genericArguments.isEmpty then "" else "<" ++ TypeRef.joined m.genericArguments ++ ">") ++
    "(" ++ Text.join ", " (m.parameters.map Parameter.text) ++ ")"

/-- A property: its name, type and accessors, of which only public ones are shown by default. -/
def Property.signature (declaring : TypeDef) (includeNonPublic : Bool) (p : Property) : String :=
  let shown := p.accessors.filter fun accessor => includeNonPublic || accessor.isPublic
  declaring.fullName ++ "." ++ p.name ++ " : " ++ p.type.text ++ " [" ++
    Text.join ", " (shown.map (·.name)) ++ "]"

/-- A field: its name, type, accessibility and storage. -/
def Field.signature (declaring : TypeDef) (f : Field) : String :=
  declaring.fullName ++ "." ++ f.name ++ " : " ++ f.type.text ++ " [" ++ f.accessibility.label ++
    (if f.isStatic then ", static" else "") ++ "]"

/-- An event: its name and handler type. -/
def Event.signature (declaring : TypeDef) (e : Event) : String :=
  declaring.fullName ++ "." ++ e.name ++ " : " ++ e.handlerType.text

/-- The signature of a member. -/
def Member.signature (declaring : TypeDef) (includeNonPublic : Bool) : Member → String
  | .method m => m.signature declaring
  | .constructor m => m.signature declaring
  | .property p => p.signature declaring includeNonPublic
  | .field f => f.signature declaring
  | .event e => e.signature declaring

/-- A truth value as it is printed. -/
def boolText (value : Bool) : String := if value then "true" else "false"

/-- The lines that describe a method in detail. -/
def Method.details (declaring : TypeDef) (m : Method) : List String :=
  [m.signature declaring,
    "Accessibility: " ++ m.accessibility.label,
    "Static: " ++ boolText m.isStatic,
    "Virtual: " ++ boolText m.isVirtual,
    "Abstract: " ++ boolText m.isAbstract,
    "ReturnType: " ++ m.returnType.text] ++
  (if m.attributes.isEmpty then [] else "Attributes:" :: m.attributes.map Attribute.text) ++
  (match m.body with
    | none => []
    | some body =>
      ["ILSize: " ++ toString body.ilSize.toNat,
        "LocalVariables: " ++ toString body.localCount.toNat])

end ModuleInspector
