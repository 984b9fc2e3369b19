import ModuleInspector.Session.Application
import ModuleInspector.Session.SnapshotFile

/-!
# The command line

The program on the files of the machine. It prints what both sinks received and the warnings of
the log, and exits with the status of the run.
-/

namespace ModuleInspector.Main

/-- What is found at a path of the machine. -/
def locate (path : String) : IO Found := do
  try
    let _ ← IO.FS.Handle.mk path .read
    let place ← IO.FS.realPath path
    if ← place.isDir then return .directory
    return .file place.toString (← IO.FS.readBinFile place).toList
  catch
    | .noFileOrDirectory _ _ _ => return .missing
    | .inappropriateType _ _ _ => return .unreachable .notDirectory
    | e => return .unreachable (.refused e.toString)

/-- What is found at the path among the arguments. -/
def locateArgument (arguments : List String) : IO Found :=
  match arguments with
  | path :: _ :: _ => locate path
  | _ => return .missing

/-- What is said of what is refused. -/
def words : Snapshot.Words where
  document _ := "the text is not JSON"
  module _ := "the JSON value is not a module"
  type _ := "the JSON value is not a type"

/-- The lines of the warnings in a log. -/
def warnings (log : List LogEntry) : List String :=
  (log.filter fun entry => entry.level = .warn).map fun entry => "[WARN ] " ++ entry.message

end ModuleInspector.Main

open ModuleInspector in
/-- Runs the program on the arguments of the command line. -/
def main (arguments : List String) : IO UInt32 := do
  let found ← Main.locateArgument arguments
  let provider := SnapshotFile.provider Main.words fun _ => found
  let (execution, _) := Application.run provider arguments .unlimited .unlimited ()
  let out ← IO.getStdout
  let err ← IO.getStderr
  for warning in Main.warnings execution.log do
    err.putStrLn warning
  try
    err.write ⟨execution.err.received.toArray⟩
    err.flush
    out.write ⟨execution.out.received.toArray⟩
    out.flush
    return UInt32.ofNat execution.status
  catch _ => return 1
