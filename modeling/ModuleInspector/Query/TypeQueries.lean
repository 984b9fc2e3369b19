import ModuleInspector.Query.Selection

/-!
# Queries about types

The filtered listing, the details of one type, its bases, and the types that may stand for it.
-/

namespace ModuleInspector.Query

variable {m : Module}

/-- Whether a type passes the namespace filter: its namespace starts with the value. -/
def passesNamespace (o : Options) (e : Entry m) : Bool :=
  match o.filled? "namespace" with
  | none => true
  | some start => Text.startsWithFolded (e.type.nameSpace?.getD "") start

/-- Whether a type passes the text filter: its qualified name contains the value. -/
def passesFilter (o : Options) (e : Entry m) : Bool :=
  match o.filled? "filter" with
  | none => true
  | some part => Text.containsFolded e.name part

/-- Whether a type passes the base filter: it may stand for the type that the value names, or,
when the value names no type, its base carries the value as its qualified name. -/
def passesBase (c : Catalog m) (o : Options) (e : Entry m) : Bool :=
  match o.filled? "base" with
  | none => true
  | some base =>
    match c.findType? base with
    | some target => e ≠ target && c.isAssignable target e
    | none => (e.type.base.bind TypeRef.fullName?).any fun name => Text.eqFolded name base

/-- The types of the listing, in the order of their names. -/
def listedTypes (c : Catalog m) (o : Options) : List (Entry m) :=
  let onlyPublic := o.has "public"
  let onlyOthers := o.has "nonpublic"
  let shown := (m.listed (!onlyOthers || onlyPublic) (!onlyPublic || onlyOthers)).filter fun e =>
    passesNamespace o e && passesFilter o e && passesBase c o e
  Text.sortFolded Entry.name shown

/-- The filtered listing. -/
def types (c : Catalog m) (o : Options) : List String :=
  (listedTypes c o).map fun e => e.type.line

/-- A heading with lines under it, or nothing when there are none. -/
def headed (heading : String) (lines : List String) : List String :=
  if lines.isEmpty then [] else heading :: lines

/-- The details of a type. -/
def typeDetails (c : Catalog m) (e : Entry m) : List String :=
  let t := e.type
  ["FullName: " ++ e.name,
    "Namespace: " ++ t.nameSpace?.getD "",
    "AssemblyQualifiedName: " ++ m.qualifiedName e,
    "Accessibility: " ++ t.accessibility.label,
    "Kind: " ++ t.kindLabel,
    "Abstract: " ++ boolText t.isAbstract,
    "Sealed: " ++ boolText t.isSealed,
    "Static: " ++ boolText t.isStatic,
    "Generic: " ++ boolText t.isGeneric] ++
  (if t.isGeneric then ["GenericArguments: " ++ TypeRef.joined t.genericArguments] else []) ++
  (t.base.map fun base => "BaseType: " ++ base.text).toList ++
  headed "Interfaces:" (Text.sortOrdinal id (TypeRef.texts (c.interfacesOf e))) ++
  headed "Attributes:" (t.attributes.map Attribute.text) ++
  headed "NestedTypes:"
    ((Text.sortFolded Entry.name (m.nestedTypes e)).map fun inner => inner.type.line)

/-- The details of the type that the options name. -/
def type (c : Catalog m) (o : Options) : Except QueryError (List String) :=
  (resolveType c o ["type", "name"]).map (typeDetails c)

/-- The type that the options name and its bases. -/
def inheritance (c : Catalog m) (o : Options) : Except QueryError (List String) :=
  (resolveType c o ["type"]).map c.inheritanceChain

/-- The other types that may stand for a type, in the order of their names. -/
def implementersOf (c : Catalog m) (includeNonPublic : Bool) (target : Entry m) :
    List (Entry m) :=
  Text.sortFolded Entry.name ((m.listed true includeNonPublic).filter fun e =>
    e ≠ target && c.isAssignable target e)

/-- The types that may stand for the type that the options name. -/
def implementers (c : Catalog m) (o : Options) : Except QueryError (List String) :=
  match (identifier? o ["type", "interface"]).filter fun text => !Text.isBlank text with
  | none => .error (.missingArgument .typeOrInterface)
  | some identifier =>
    match c.findType? identifier with
    | none => .error .referenceTypeNotFound
    | some target =>
      .ok ((implementersOf c (includeNonPublic o) target).map fun e =>
        e.name ++ " [" ++ e.type.kindLabel ++ "]")

end ModuleInspector.Query
