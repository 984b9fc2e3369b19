import ModuleInspector.Text.Pieces

/-!
# Paths

A path is compared by its parts: repeated slashes, a slash at the end and dots between slashes
do not count. A leading dot does, and two dots are kept as they are.
-/

namespace ModuleInspector.Path

/-- A part of a path. -/
inductive Part
  | root
  | here
  | parent
  | name (text : String)
  deriving DecidableEq

/-- The part between two slashes after the first one; none when it does not count. -/
def innerPart? (segment : List Char) : Option Part :=
  if segment = [] ∨ segment = ['.'] then none
  else if segment = ['.', '.'] then some .parent
  else some (.name (String.ofList segment))

/-- The text before the first slash; empty before a leading slash. -/
def firstPart? (isAbsolute : Bool) (segment : List Char) : Option Part :=
  if isAbsolute then some .root
  else if segment = ['.'] then some .here
  else innerPart? segment

/-- The parts of a path. -/
def parts (path : String) : List Part :=
  match Text.split '/' path.toList with
  | [] => []
  | first :: rest =>
    (firstPart? (first.isEmpty && !rest.isEmpty) first).toList ++ rest.filterMap innerPart?

/-- The last part of a path when it is a name. -/
def fileName? (path : String) : Option String :=
  match (parts path).getLast? with
  | some (.name text) => some text
  | _ => none

end ModuleInspector.Path
