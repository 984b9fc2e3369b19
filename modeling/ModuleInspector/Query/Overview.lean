import ModuleInspector.Query.Selection

/-!
# Overviews of a module

The summary, the resources and the entry point.
-/

namespace ModuleInspector.Query

variable {m : Module}

/-- The distinct namespaces of types, in order. -/
def namespaces (entries : List (Entry m)) : List String :=
  Text.sortOrdinal id (entries.filterMap fun e => e.type.nameSpace?).eraseDups

/-- The identity, location, files, type counts and namespaces of the module. -/
def summary (m : Module) : List String :=
  let types := m.listed true true
  let publicCount := types.countP fun e => e.type.isPublic
  let names := namespaces types
  ["Name: " ++ m.identity.name,
    "Version: " ++ m.identity.version.getD "",
    "Location: " ++ m.location,
    "Modules: " ++ Text.join ", " m.fileNames,
    "Types: " ++ toString types.length ++ " (public " ++ toString publicCount ++
      ", nonpublic " ++ toString (types.length - publicCount) ++ ")",
    "Namespaces: " ++ toString names.length] ++ names

/-- The resources with their sizes. -/
def resources (m : Module) : List String :=
  m.resources.map fun resource =>
    resource.name ++ " (" ++ toString resource.size.toNat ++ " bytes)"

/-- The signature of the method that the entry point names, if there is one. -/
def entryPointSignature? (c : Catalog m) (start : EntryPoint) : Option String :=
  (c.findType? start.declaringType).bind fun e =>
    (((e.type.declared .method).filterMap Member.method?).find? fun method =>
      method.name = start.method).map fun method => method.signature e.type

/-- The recorded entry point, and its signature when it resolves. -/
def entryPoint (c : Catalog m) : List String :=
  match m.entryPoint with
  | none => ["EntryPoint: none"]
  | some start =>
    ("EntryPoint: " ++ start.declaringType ++ "." ++ start.method) ::
      (entryPointSignature? c start).toList

end ModuleInspector.Query
