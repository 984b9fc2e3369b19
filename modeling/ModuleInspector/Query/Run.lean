import ModuleInspector.Export
import ModuleInspector.Json.Printer
import ModuleInspector.Query.MemberQueries
import ModuleInspector.Query.Overview
import ModuleInspector.Query.PatternSearch
import ModuleInspector.Query.TypeQueries

/-!
# Running commands

Every command is a function from a catalog and options to all of its output lines, or to the
reason of its failure. Nothing is written before the lines are complete.
-/

namespace ModuleInspector.Query

variable {m : Module}

/-- The exported document: one type with its members when the options name one, and otherwise
every type that the visibility options ask for. -/
def exportModel (c : Catalog m) (o : Options) : Except QueryError Export.ModuleModel :=
  match identifier? o ["type", "name"] with
  | some identifier =>
    match c.findType? identifier with
    | none => .error .typeNotFound
    | some e => .ok (Export.ofModule m [Export.ofType c true (includeNonPublic o) e])
  | none =>
    .ok (Export.ofModule m ((m.listed true (includeNonPublic o)).map
      (Export.ofType c (o.has "with-members") (includeNonPublic o))))

/-- The exported document as one indented text. -/
def dumpJson (c : Catalog m) (o : Options) : Except QueryError (List String) :=
  (exportModel c o).map fun model => [model.toJson.pretty]

/-- The output lines of a command. -/
def run (c : Catalog m) (command : Command) (o : Options) : Except QueryError (List String) :=
  match command with
  | .summary => .ok (summary m)
  | .types => .ok (types c o)
  | .type => type c o
  | .members => members c o
  | .method => method c o
  | .inheritance => inheritance c o
  | .implementers => implementers c o
  | .search => search c o
  | .attributes => attributes c o
  | .resources => .ok (resources m)
  | .entryPoint => .ok (entryPoint c)
  | .dumpJson => dumpJson c o

end ModuleInspector.Query
