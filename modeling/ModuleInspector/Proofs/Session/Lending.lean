import ModuleInspector.Session.Application
import ModuleInspector.Session.Store
import Mathlib.Data.List.Induction

/-!
# Lending over a session

A session puts modules into one store and runs the program on it, in any order and with any
sinks. Every run that finds its module borrows it once and gives it back, on whatever path the run
ends; no other run borrows anything. What a run shows is settled by its arguments, its sinks and
the module that was last put under its path.
-/

namespace ModuleInspector

/-- A step of a session: a module is put into the store, or the program is run. -/
inductive SessionStep
  | insert (path : String) (module : Module)
  | run (arguments : List String) (out err : Sink)

/-- The path of the module that arguments ask for. Fewer than two arguments name none. -/
def Application.requestedPath? : List String → Option String
  | path :: _ :: _ => some path
  | _ => none

namespace SessionStep

/-- The module that a step puts under a path equal to this one. -/
def inserted? (path : String) : SessionStep → Option Module
  | insert place module => if Path.parts place = Path.parts path then some module else none
  | run _ _ _ => none

/-- The module last put under a path equal to this one. -/
def latest? (steps : List SessionStep) (path : String) : Option Module :=
  steps.reverse.findSome? (inserted? path)

/-- The module that a run with these arguments finds after the steps. -/
def requested? (steps : List SessionStep) (arguments : List String) : Option Module :=
  (Application.requestedPath? arguments).bind (latest? steps)

/-- Whether a step after the given ones is a run that finds its module. -/
def borrows (before : List SessionStep) : SessionStep → Bool
  | insert _ _ => false
  | run arguments _ _ => (requested? before arguments).isSome

/-- The number of steps that are runs and find their module when they come. -/
def borrowings (steps : List SessionStep) : Nat :=
  steps.zipIdx.countP fun step => borrows (steps.take step.2) step.1

theorem latest?_append (steps : List SessionStep) (step : SessionStep) (path : String) :
    latest? (steps ++ [step]) path = (step.inserted? path).or (latest? steps path) := by
  rw [latest?, List.reverse_append, List.reverse_singleton, List.singleton_append,
    List.findSome?_cons]
  cases inserted? path step <;> rfl

/-- A further step does not change how the steps before it count. -/
theorem borrowings_append (steps : List SessionStep) (step : SessionStep) :
    borrowings (steps ++ [step]) = borrowings steps + if borrows steps step then 1 else 0 := by
  have hbefore : ∀ item ∈ steps.zipIdx,
      borrows ((steps ++ [step]).take item.2) item.1 = borrows (steps.take item.2) item.1 := by
    intro item hitem
    have hlt := (List.mem_zipIdx' hitem).1
    rw [List.take_append_of_le_length (Nat.le_of_lt hlt)]
  rw [borrowings, List.zipIdx_append, List.countP_append, borrowings]
  congr 1
  · exact List.countP_congr fun item hitem => by rw [hbefore item hitem]
  · simp [List.countP_cons]

end SessionStep

namespace Store

/-- The store after a step. -/
def perform (s : Store) : SessionStep → Store
  | .insert path module => s.insert path module
  | .run arguments out err => (Application.run provider arguments out err s).2

/-- The store after the steps of a session. -/
def after (steps : List SessionStep) : Store := steps.foldl perform empty

/-- The module that a run with these arguments finds in the store. -/
def requested? (s : Store) (arguments : List String) : Option Module :=
  (Application.requestedPath? arguments).bind s.find?

end Store

/-- What a run shows when this module, or none, is stored under its path: the usage, the failed
load, or the command on a copy of the module between the entries of its loan. -/
def Application.outcome (stored : Option Module) (arguments : List String) (out err : Sink) :
    Execution :=
  match arguments, stored with
  | path :: command :: options, some module =>
    let execution :=
      execute (Store.located path module) (commandText command) (Options.parse options) out err
    { execution with
      log := [.loading path, .loaded module.identity.name module.types.length] ++ execution.log ++
        [.handedBack module.identity.name, .released module.identity.name] }
  | path :: _ :: _, none =>
    let report := reportLoadError path (.moduleNotFound path) out err
    { report with log := .loading path :: report.log }
  | _, _ => explain out err

namespace Store

/-- A run shows the outcome for the module that it finds, and counts one load and one release when
it finds one. Nothing else about the store changes. -/
theorem run_provider (arguments : List String) (out err : Sink) (s : Store) :
    Application.run provider arguments out err s =
      (Application.outcome (s.requested? arguments) arguments out err,
        if (s.requested? arguments).isSome then
          { s with loads := s.loads + 1, releases := s.releases + 1 }
        else s) := by
  match arguments with
  | [] => rfl
  | [_] => rfl
  | path :: command :: options =>
    have hlocated (module : Module) :
        (located path module).identity = module.identity ∧
          (located path module).types = module.types := by
      unfold located
      split <;> exact ⟨rfl, rfl⟩
    have hrequested : s.requested? (path :: command :: options) = s.find? path := rfl
    rw [hrequested]
    unfold Application.run
    cases hstored : s.find? path with
    | none => simp [Provider.openModule, provider, lend, hstored, Application.outcome]
    | some module =>
      obtain ⟨hidentity, htypes⟩ := hlocated module
      simp [Provider.openModule, Provider.close, provider, lend, takeBack, hstored,
        Application.outcome, hidentity, htypes]

/-- A step changes what is found under a path by what it puts there, and in no other way. -/
theorem find?_perform (s : Store) (step : SessionStep) (path : String) :
    (s.perform step).find? path = (step.inserted? path).or (s.find? path) := by
  cases step with
  | insert place module =>
    rw [perform, insert, find?, List.lookup_cons, SessionStep.inserted?]
    by_cases hsame : Path.parts place = Path.parts path
    · simp [hsame]
    · have hother : (Path.parts path == Path.parts place) = false :=
        beq_false_of_ne (Ne.symm hsame)
      simp [hsame, hother, find?]
  | run arguments out err =>
    rw [perform, run_provider]
    split_ifs <;> rfl

/-- The accounts of a session: the loads and the releases of the store are the runs that found
their module, and under every path the module last put there is found. -/
structure Accounts (steps : List SessionStep) (s : Store) : Prop where
  loads : s.loads = SessionStep.borrowings steps
  releases : s.releases = SessionStep.borrowings steps
  find? : ∀ path, s.find? path = SessionStep.latest? steps path

/-- A run finds in the store what the steps before it put there. -/
theorem Accounts.requested? {steps : List SessionStep} {s : Store} (haccounts : Accounts steps s)
    (arguments : List String) :
    s.requested? arguments = SessionStep.requested? steps arguments := by
  have hfind : s.find? = SessionStep.latest? steps := funext haccounts.find?
  rw [Store.requested?, SessionStep.requested?, hfind]

/-- A step counts one load and one release when it is a run that finds its module. -/
theorem counts_perform {steps : List SessionStep} {s : Store}
    (hrequested : ∀ arguments, s.requested? arguments = SessionStep.requested? steps arguments)
    (step : SessionStep) :
    (s.perform step).loads = s.loads + (if SessionStep.borrows steps step then 1 else 0) ∧
      (s.perform step).releases =
        s.releases + (if SessionStep.borrows steps step then 1 else 0) := by
  cases step with
  | insert place module => exact ⟨rfl, rfl⟩
  | run arguments out err =>
    rw [perform, run_provider, SessionStep.borrows, hrequested]
    split_ifs <;> exact ⟨rfl, rfl⟩

/-- Every step keeps the accounts. -/
theorem Accounts.perform {steps : List SessionStep} {s : Store} (haccounts : Accounts steps s)
    (step : SessionStep) : Accounts (steps ++ [step]) (s.perform step) := by
  obtain ⟨hloads, hreleases⟩ := counts_perform haccounts.requested? step
  exact
    { loads := by rw [hloads, haccounts.loads, SessionStep.borrowings_append]
      releases := by rw [hreleases, haccounts.releases, SessionStep.borrowings_append]
      find? := fun path => by rw [find?_perform, SessionStep.latest?_append, haccounts.find?] }

/-- The accounts hold after every session. -/
theorem accounts_after (steps : List SessionStep) : Accounts steps (after steps) := by
  induction steps using List.reverseRecOn with
  | nil => exact ⟨rfl, rfl, fun _ => rfl⟩
  | append_singleton steps step ih =>
    rw [after, List.foldl_append]
    exact ih.perform step

end Store

/-- Whether a log entry is about lending: that a module was loaded, handed back or released. -/
def LogEntry.isLoan : LogEntry → Bool
  | loaded _ _ => true
  | handedBack _ => true
  | released _ => true
  | _ => false

/-- Printing logs nothing about lending. -/
theorem isLoan_of_mem_printLog {output : Output} {failure : Option WriteError} {entry : LogEntry}
    (hentry : entry ∈ Execution.printLog output failure) : entry.isLoan = false := by
  obtain ⟨error, -, rfl⟩ := Option.map_eq_some_iff.mp (Option.mem_toList.mp hentry)
  rfl

/-- A command logs nothing about lending. -/
theorem isLoan_of_mem_log_execute {m : Module} {text : String} {o : Options} {out err : Sink}
    {entry : LogEntry} (hentry : entry ∈ (execute m text o out err).log) :
    entry.isLoan = false := by
  rcases List.mem_append.mp hentry with hrunning | hprinted
  · obtain ⟨command, -, rfl⟩ := Option.map_eq_some_iff.mp (Option.mem_toList.mp hrunning)
    rfl
  · cases hanswer : Query.answer (Catalog.of m) text o with
    | error e =>
      rw [hanswer] at hprinted
      exact isLoan_of_mem_printLog hprinted
    | ok lines =>
      rw [hanswer] at hprinted
      exact isLoan_of_mem_printLog hprinted

namespace Application

/-- The log of a run. One that finds its module logs its loan, one load before the entries of the
command and one release after them; any other run logs nothing about lending. -/
def LogsLoan (stored : Option Module) (arguments : List String) (out err : Sink)
    (log : List LogEntry) : Prop :=
  match stored with
  | none => ∀ entry ∈ log, entry.isLoan = false
  | some module =>
    ∃ path command options, arguments = path :: command :: options ∧
      ∃ own, own = (execute (Store.located path module) (commandText command)
          (Options.parse options) out err).log ∧
        (∀ entry ∈ own, entry.isLoan = false) ∧
        log = [.loading path, .loaded module.identity.name module.types.length] ++ own ++
          [.handedBack module.identity.name, .released module.identity.name]

/-- Every outcome has such a log. -/
theorem logsLoan_outcome (steps : List SessionStep) (arguments : List String) (out err : Sink) :
    LogsLoan (SessionStep.requested? steps arguments) arguments out err
      (outcome (SessionStep.requested? steps arguments) arguments out err).log := by
  match arguments with
  | [] => exact fun entry hentry => isLoan_of_mem_printLog hentry
  | [_] => exact fun entry hentry => isLoan_of_mem_printLog hentry
  | path :: command :: options =>
    cases SessionStep.requested? steps (path :: command :: options) with
    | none =>
      intro entry hentry
      rcases List.mem_cons.mp hentry with rfl | hreported
      · rfl
      rcases List.mem_cons.mp hreported with rfl | hprinted
      · rfl
      · exact isLoan_of_mem_printLog hprinted
    | some module =>
      exact ⟨path, command, options, rfl, _, rfl, fun _ => isLoan_of_mem_log_execute, rfl⟩

end Application

/-- After every session with a store, its loads and its releases are the runs that found their
module. A further run changes no stored module; it shows what its arguments, its sinks and the
module last put under its path settle, whatever was run before; and its log has the loan of the
module that it finds, and no loan when it finds none. -/
theorem session_lends_and_takesBack (steps : List SessionStep) :
    (Store.after steps).loads = SessionStep.borrowings steps ∧
    (Store.after steps).releases = SessionStep.borrowings steps ∧
    ∀ (arguments : List String) (out err : Sink),
      (Application.run Store.provider arguments out err (Store.after steps)).2.modules =
        (Store.after steps).modules ∧
      (Application.run Store.provider arguments out err (Store.after steps)).1 =
        Application.outcome (SessionStep.requested? steps arguments) arguments out err ∧
      Application.LogsLoan (SessionStep.requested? steps arguments) arguments out err
        (Application.run Store.provider arguments out err (Store.after steps)).1.log := by
  have haccounts := Store.accounts_after steps
  refine ⟨haccounts.loads, haccounts.releases, fun arguments out err => ?_⟩
  rw [Store.run_provider, haccounts.requested?]
  refine ⟨?_, rfl, Application.logsLoan_outcome steps arguments out err⟩
  split_ifs <;> rfl

end ModuleInspector
