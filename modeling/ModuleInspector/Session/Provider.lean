import ModuleInspector.Session.Log
import ModuleInspector.Snapshot.Document

/-!
# Providers

A provider lends the module at a path and takes it back. Both may change the state that the
provider keeps.
-/

namespace ModuleInspector

/-- The reasons why a path cannot be opened although something may be there. -/
inductive PathError
  | notDirectory
  | nameTooLong
  | nulByte
  | refused (reason : String)
  deriving DecidableEq

/-- The message of a path that cannot be opened. -/
def PathError.message : PathError → String
  | notDirectory => "Not a directory (os error 20)"
  | nameTooLong => "File name too long (os error 36)"
  | nulByte => "file name contained an unexpected NUL byte"
  | refused reason => reason

/-- The ways a module fails to load: nothing is at the path, the path cannot be opened, a
directory is there, or the document is not a snapshot, for the reason in the text. -/
inductive LoadError
  | moduleNotFound (path : String)
  | unreachable (error : PathError)
  | directory
  | document (error : Snapshot.DocumentError) (text : String)

namespace LoadError

/-- The message of a failed load. -/
def message : LoadError → String
  | moduleNotFound path => "Module not found: " ++ path
  | unreachable error => error.message
  | directory => "No such device (os error 19)"
  | document _ text => text

/-- The texts of a failed load and of its causes. An error of the system or of the JSON layer is
passed on as the cause of one with the same text. -/
def causes (e : LoadError) : List String :=
  match e with
  | unreachable _ => [e.message, e.message]
  | document (.unreadable _ _) _ => [e.message, e.message]
  | document (.undecodable _ _) _ => [e.message, e.message]
  | _ => [e.message]

end LoadError

/-- A source of modules with a state. Lending a module may add to the log, whether or not it
succeeds, and so may taking it back. -/
structure Provider (σ : Type) where
  lend : String → σ → List LogEntry × Except LoadError (Module × σ)
  takeBack : Module → σ → List LogEntry × σ

namespace Provider

variable {σ : Type}

/-- Opens the module at a path. -/
def openModule (p : Provider σ) (path : String) (state : σ) :
    List LogEntry × Except LoadError (Module × σ) :=
  let lent := p.lend path state
  match lent.2 with
  | .error e => (.loading path :: lent.1, .error e)
  | .ok (module, after) =>
    (.loading path :: lent.1 ++ [.loaded module.identity.name module.types.length],
      .ok (module, after))

/-- Takes an opened module back. -/
def close (p : Provider σ) (module : Module) (state : σ) : List LogEntry × σ :=
  let returned := p.takeBack module state
  (returned.1 ++ [.released module.identity.name], returned.2)

end Provider

end ModuleInspector
