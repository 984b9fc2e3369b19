import ModuleInspector.Session.Provider

/-!
# The module store

A store keeps modules under their paths and lends copies of them. It counts the modules it has
lent and the ones it has taken back.
-/

namespace ModuleInspector

/-- A store of modules, the last inserted one first. -/
structure Store where
  modules : List (List Path.Part × Module)
  loads : Nat
  releases : Nat

namespace Store

/-- A store without modules. -/
def empty : Store := ⟨[], 0, 0⟩

/-- Puts a module under a path, in place of one under an equal path. -/
def insert (s : Store) (path : String) (module : Module) : Store :=
  { s with modules := (Path.parts path, module) :: s.modules }

/-- The module under a path, if there is one. -/
def find? (s : Store) (path : String) : Option Module := s.modules.lookup (Path.parts path)

/-- A module that carries the path when its location is not known. -/
def located (path : String) (module : Module) : Module :=
  if module.location = "" then { module with location := path } else module

/-- Lends the module under a path. -/
def lend (path : String) (s : Store) : List LogEntry × Except LoadError (Module × Store) :=
  match s.find? path with
  | none => ([], .error (.moduleNotFound path))
  | some module => ([], .ok (located path module, { s with loads := s.loads + 1 }))

/-- Takes a module back. -/
def takeBack (module : Module) (s : Store) : List LogEntry × Store :=
  ([.handedBack module.identity.name], { s with releases := s.releases + 1 })

/-- A store as a provider. -/
def provider : Provider Store := ⟨lend, takeBack⟩

end Store

end ModuleInspector
