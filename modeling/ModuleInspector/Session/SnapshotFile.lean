import ModuleInspector.Session.Provider

/-!
# Snapshot files

A module may be loaded from the snapshot in a file. Its location is then the place of the file,
whatever the snapshot says. What the JSON layer says of what it refuses is a parameter.
-/

namespace ModuleInspector

/-- What is found at a path: nothing, something that cannot be opened, a directory, or a file
with its place and its contents. -/
inductive Found
  | missing
  | unreachable (error : PathError)
  | directory
  | file (location : String) (content : List UInt8)
  deriving DecidableEq

namespace SnapshotFile

section Words

variable (words : Snapshot.Words)

/-- The module in what is found at a path, with the losses of its snapshot. -/
def load (path : String) : Found → Except LoadError (Module × List Snapshot.Warning)
  | .missing => .error (.moduleNotFound path)
  | .unreachable e => .error (.unreachable e)
  | .directory => .error .directory
  | .file location content =>
    match Snapshot.parse content with
    | .error e => .error (.document e (e.text words))
    | .ok (module, losses) => .ok ({ module with location := location }, losses)

/-- What is logged of a file before it is read. -/
def mapping : Found → List LogEntry
  | .file location content => [.mapped content.length location]
  | _ => []

/-- The provider of the snapshots that `locate` finds. It keeps no state. -/
def provider (locate : String → Found) : Provider Unit where
  lend path _ :=
    match load words path (locate path) with
    | .error e => (mapping (locate path), .error e)
    | .ok (module, losses) =>
      (mapping (locate path) ++ losses.map (.loss <| ·.text words), .ok (module, ()))
  takeBack _ _ := ([], ())

end Words

end SnapshotFile

end ModuleInspector
