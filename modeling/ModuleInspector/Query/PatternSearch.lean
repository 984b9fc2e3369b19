import ModuleInspector.Query.Selection

/-!
# Searching

The types whose qualified name, and the members whose name, contain a pattern.
-/

namespace ModuleInspector.Query

variable {m : Module}

/-- Whether a text contains the pattern, with regard to case only on request. -/
def containsPattern (o : Options) (pattern text : String) : Bool :=
  if o.has "case-sensitive" then Text.contains text pattern
  else Text.containsFolded text pattern

/-- The kinds of members that are searched, in order. -/
def searchedKinds : List MemberKind := [.method, .property, .field]

/-- The members of a type whose name contains the pattern. -/
def foundMembers (c : Catalog m) (o : Options) (pattern : String) (e : Entry m) :
    List (MemberEntry m) :=
  searchedKinds.flatMap fun kind =>
    (c.members e kind (selection o)).filter fun entry => containsPattern o pattern entry.name

/-- The hits of one type: the type itself, then its members. -/
def hits (c : Catalog m) (o : Options) (pattern : String) (e : Entry m) : List String :=
  (if containsPattern o pattern e.name then [e.name ++ " [type]"] else []) ++
    (foundMembers c o pattern e).map fun entry =>
      e.name ++ " :: " ++ entry.signature (includeNonPublic o)

/-- The hits of all types, in native order. -/
def search (c : Catalog m) (o : Options) : Except QueryError (List String) :=
  match (identifier? o ["pattern"]).filter fun text => !Text.isBlank text with
  | none => .error (.missingArgument .pattern)
  | some pattern => .ok ((m.listed true (includeNonPublic o)).flatMap (hits c o pattern))

end ModuleInspector.Query
