import ModuleInspector.Catalog.Members
import ModuleInspector.Options
import ModuleInspector.Query.Command

/-!
# What a query selects

The parts that several commands read from their options: the visibility switch, and the type a
command is about.
-/

namespace ModuleInspector.Query

/-- Whether the options ask for members and types that are not public. -/
def includeNonPublic (o : Options) : Bool := o.has "include-nonpublic" || o.has "nonpublic"

/-- The members that the visibility options ask for. -/
def selection (o : Options) : Selection := .forVisibility (includeNonPublic o)

/-- The identifier of the type a command is about, from the option `type` or else the first
positional token, and the positional tokens that remain. -/
def typeIdentifier (o : Options) : Option String × List String :=
  match o.filled? "type" with
  | some identifier => (some identifier, o.positional)
  | none =>
    match o.positional with
    | [] => (none, [])
    | identifier :: remainder => (some identifier, remainder)

/-- The value of the first of the keys that has one, or else the first positional token. -/
def identifier? (o : Options) (keys : List String) : Option String :=
  (o.firstOf? keys).or o.positional.head?

variable {m : Module}

/-- The type a command is about, and the positional tokens that remain. -/
def typeWithRemainder (c : Catalog m) (o : Options) : Option (Entry m) × List String :=
  let identifier := typeIdentifier o
  (identifier.1.bind c.findType?, identifier.2)

/-- The type that the first of the keys names, or else the first positional token. -/
def resolveType (c : Catalog m) (o : Options) (keys : List String) :
    Except QueryError (Entry m) :=
  match (identifier? o keys).bind c.findType? with
  | some e => .ok e
  | none => .error .typeNotFound

end ModuleInspector.Query
