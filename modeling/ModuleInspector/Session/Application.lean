import ModuleInspector.Session.Execution
import ModuleInspector.Session.Provider

/-!
# Running the program

The arguments are the path of a module, a command and its options. The module is opened for the
command and closed after it, whether or not the command succeeds.
-/

namespace ModuleInspector.Application

/-- The lines that explain the arguments. -/
def usage : List String :=
  ["Usage: dotinspect <modulePath> <command> [options]",
    "Commands: " ++ Text.join ", " (Command.all.map Command.name)]

/-- Explains the arguments on the output sink. -/
def explain (out err : Sink) : Execution :=
  let printed := out.print usage
  ⟨1, printed.2, err, Execution.printLog .usage printed.1⟩

/-- The line that reports a failed load with its causes. -/
def loadErrorLine (path : String) (error : LoadError) : String :=
  Text.join ": " (("failed to load module: " ++ path) :: error.causes)

/-- Reports on the error sink that the module at a path did not load. -/
def reportLoadError (path : String) (error : LoadError) (out err : Sink) : Execution :=
  let written := err.writeLines [loadErrorLine path error]
  ⟨1, out, written.2, .notLoaded path error.causes :: Execution.printLog .error written.1⟩

/-- The command of its argument: blank characters around it and the case do not count. -/
def commandText (argument : String) : String := Text.lowerCase (Text.trim argument)

/-- Runs the program on its arguments, with the state of the provider after it. -/
def run {σ : Type} (p : Provider σ) (arguments : List String) (out err : Sink) (state : σ) :
    Execution × σ :=
  match arguments with
  | path :: command :: options =>
    let opened := p.openModule path state
    match opened.2 with
    | .error e =>
      let report := reportLoadError path e out err
      ({ report with log := opened.1 ++ report.log }, state)
    | .ok (module, lent) =>
      let execution := execute module (commandText command) (Options.parse options) out err
      let closed := p.close module lent
      ({ execution with log := opened.1 ++ execution.log ++ closed.1 }, closed.2)
  | _ => (explain out err, state)

end ModuleInspector.Application
