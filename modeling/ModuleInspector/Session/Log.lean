import ModuleInspector.Query.Command
import ModuleInspector.Session.Sink

/-!
# The log

What a session reports beside its output: the life of every module it loads or fails to load, the
commands it runs, the losses of a snapshot, and output that could not be written.
-/

namespace ModuleInspector

/-- The importance of a log entry. -/
inductive LogLevel
  | debug
  | warn
  deriving DecidableEq

/-- The name of a level. -/
def LogLevel.name : LogLevel → String
  | debug => "DEBUG"
  | warn => "WARN"

/-- What a session writes to a sink. -/
inductive Output
  | usage
  | error
  | commandOutput
  deriving DecidableEq

/-- The name of an output. -/
def Output.name : Output → String
  | usage => "usage"
  | error => "error"
  | commandOutput => "command output"

/-- An entry of the log. A file is `mapped` before it is read. A module is `handedBack` to the
store that lent it, and `released` when the session is done with it. -/
inductive LogEntry
  | loading (path : String)
  | mapped (size : Nat) (location : String)
  | notLoaded (path : String) (causes : List String)
  | loaded (name : String) (typeCount : Nat)
  | running (command : Command)
  | handedBack (name : String)
  | released (name : String)
  | loss (text : String)
  | writeFailed (output : Output) (error : WriteError)
  deriving DecidableEq

namespace LogEntry

/-- The importance of an entry: losses and failed writes are warnings. -/
def level : LogEntry → LogLevel
  | loss _ => .warn
  | writeFailed _ _ => .warn
  | _ => .debug

/-- A text whose lines are indented, the first one in its own way. -/
def indented (first further text : String) : String :=
  first ++ Text.join ("\n" ++ further) ((Text.split '\n' text.toList).map String.ofList)

/-- The lines of the causes of an error, which are numbered when there are several. -/
def causeLines : List String → List String
  | [cause] => [indented "    " "    " cause]
  | causes =>
    causes.zipIdx.map fun cause =>
      indented ("    " ++ toString cause.2 ++ ": ") "       " cause.1

/-- The message of an entry. -/
def message : LogEntry → String
  | loading path => "loading module " ++ path
  | mapped size location => "mapped " ++ toString size ++ " bytes from " ++ location
  | notLoaded path causes =>
    Text.join "\n" (["failed to load module: " ++ path, "", "Caused by:"] ++ causeLines causes)
  | loaded name typeCount => "loaded module " ++ name ++ " with " ++ toString typeCount ++ " types"
  | running command => "running command " ++ command.name
  | handedBack name => "memory provider released " ++ name
  | released name => "released module " ++ name
  | loss text => text
  | writeFailed output error => "failed to write " ++ output.name ++ ": " ++ error.message

/-- The line of an entry. -/
def line (entry : LogEntry) : String := entry.level.name ++ ": " ++ entry.message

end LogEntry

end ModuleInspector
