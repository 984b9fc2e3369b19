import ModuleInspector.Metadata.TypeDef
import ModuleInspector.Path
import ModuleInspector.StrongName.Identity

/-!
# Modules

Everything recorded about one compiled module: its identity, the types it defines, the outside
types that those build on, its resources and its entry point.
-/

namespace ModuleInspector

/-- A resource embedded in a module. -/
structure Resource where
  name : String
  size : UInt64
  deriving DecidableEq

/-- The method an executable module starts with. -/
structure EntryPoint where
  declaringType : String
  method : String
  deriving DecidableEq

/-- A module. The location is empty when it is not known. -/
structure Module where
  identity : ModuleIdentity
  location : String
  files : List String
  types : List TypeDef
  referencedTypes : List TypeDef
  resources : List Resource
  entryPoint : Option EntryPoint

/-- The recorded file names, or else the file name of the location, or else a name made from the
module name. -/
def Module.fileNames (m : Module) : List String :=
  if m.files.isEmpty then [(Path.fileName? m.location).getD (m.identity.name ++ ".dll")]
  else m.files

end ModuleInspector
