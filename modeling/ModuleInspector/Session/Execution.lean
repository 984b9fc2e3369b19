import ModuleInspector.Query.Run
import ModuleInspector.Session.Log

/-!
# Executing commands

A command that succeeds prints all its lines on the output sink; one that fails prints its
message on the error sink and nothing on the other. The status is zero when a command succeeds
and everything it printed was taken and flushed.
-/

namespace ModuleInspector

/-- The lines that a command text asks for. -/
def Query.answer {m : Module} (c : Catalog m) (text : String) (o : Options) :
    Except QueryError (List String) :=
  match Command.ofName? text with
  | none => .error (.unknownCommand text)
  | some command => run c command o

/-- A completed execution: its status, both sinks and what it logged. -/
structure Execution where
  status : Nat
  out : Sink
  err : Sink
  log : List LogEntry
  deriving DecidableEq

namespace Execution

/-- The log of printing an output. -/
def printLog (output : Output) (failure : Option WriteError) : List LogEntry :=
  (failure.map (LogEntry.writeFailed output)).toList

/-- Prints the outcome of a command. -/
def ofAnswer (answer : Except QueryError (List String)) (out err : Sink) : Execution :=
  match answer with
  | .ok lines =>
    let printed := out.print lines
    ⟨if printed.1.isSome then 1 else 0, printed.2, err, printLog .commandOutput printed.1⟩
  | .error e =>
    let printed := err.print [e.message]
    ⟨1, out, printed.2, printLog .commandOutput printed.1⟩

end Execution

/-- Runs a command on a module. A text that names no command is reported without running one. -/
def execute (m : Module) (text : String) (o : Options) (out err : Sink) : Execution :=
  let execution := Execution.ofAnswer (Query.answer (Catalog.of m) text o) out err
  { execution with
    log := ((Command.ofName? text).map LogEntry.running).toList ++ execution.log }

end ModuleInspector
