import ModuleInspector.Query.Selection

/-!
# Queries about members

The member listing of a type, the details of a method, and the attributes of a type or member.
-/

namespace ModuleInspector.Query

variable {m : Module}

/-- The kinds that the options and the remaining tokens ask for; all of them without a token. -/
def selectedKinds (o : Options) (remainder : List String) : List MemberKind :=
  let tokens := o.getAll "kind" ++ remainder
  if tokens.isEmpty then MemberKind.all
  else tokens.filterMap fun token => MemberKind.ofName? (Text.trim token)

/-- The listed members of one kind, in the order of their names; constructors, whose names are
alike, in the order of their signatures. -/
def listedMembers (c : Catalog m) (o : Options) (e : Entry m) (kind : MemberKind) :
    List (MemberEntry m) :=
  let shown := c.members e kind (selection o)
  if kind = .constructor then
    Text.sortOrdinal (MemberEntry.signature (includeNonPublic o)) shown
  else Text.sortOrdinal MemberEntry.name shown

/-- The member listing of the type that the options name, kind by kind. -/
def members (c : Catalog m) (o : Options) : Except QueryError (List String) :=
  match typeWithRemainder c o with
  | (none, _) => .error .typeNotFound
  | (some e, remainder) =>
    let selected := selectedKinds o remainder
    .ok ((MemberKind.all.filter fun kind => selected.contains kind).flatMap fun kind =>
      (listedMembers c o e kind).map (MemberEntry.signature (includeNonPublic o)))

/-- Whether a parameter type is the wanted one, by its canonical text, its simple name or its
keyword. -/
def typeMatches (reference : TypeRef) (wanted : String) : Bool :=
  Text.eqFolded reference.text wanted || Text.eqFolded reference.simpleName wanted ||
    (keyword? reference.text).any fun keyword => Text.eqFolded keyword wanted

/-- Whether the parameters of a method are the wanted ones, one by one. -/
def parametersMatch (parameters : List Parameter) (wanted : List String) : Bool :=
  parameters.length = wanted.length &&
    (parameters.zip wanted).all fun pair => typeMatches pair.1.type pair.2

/-- The wanted parameter types, between commas; blank ones do not count. -/
def wantedParameters? (o : Options) : Option (List String) :=
  (o.filled? "parameters").map fun value =>
    (((Text.split ',' value.toList).map Text.trimChars).filter fun part => !part.isEmpty).map
      String.ofList

/-- The name of the wanted method. -/
def methodName? (o : Options) (remainder : List String) : Option String :=
  ((o.firstOf? ["method", "member", "name"]).or remainder.head?).filter fun name =>
    !Text.isBlank name

/-- The methods of a type with a name, and with the wanted parameters if there are any. -/
def matchingMethods (c : Catalog m) (o : Options) (e : Entry m) (name : String) :
    List (MemberEntry m) :=
  (c.members e .method (selection o)).filter fun entry =>
    Text.eqFolded entry.name name &&
      match wantedParameters? o, entry.member.method? with
      | some wanted, some found => parametersMatch found.parameters wanted
      | _, _ => true

/-- The lines that describe a method entry. -/
def methodDetails (entry : MemberEntry m) : List String :=
  match entry.member.method? with
  | none => []
  | some found => found.details entry.declaring.type

/-- The details of every method that the options name. -/
def method (c : Catalog m) (o : Options) : Except QueryError (List String) :=
  match typeWithRemainder c o with
  | (none, _) => .error .typeNotFound
  | (some e, remainder) =>
    match methodName? o remainder with
    | none => .error (.missingArgument .methodName)
    | some name =>
      match matchingMethods c o e name with
      | [] => .error .methodNotFound
      | found => .ok (found.flatMap methodDetails)

/-- The kinds among which a member is looked up by name, in order. -/
def lookupKinds : List MemberKind := [.method, .property, .field, .event]

/-- The first member of a type with a name, kind by kind. -/
def findMember? (c : Catalog m) (o : Options) (e : Entry m) (name : String) :
    Option (MemberEntry m) :=
  lookupKinds.findSome? fun kind =>
    (c.members e kind (selection o)).find? fun entry => Text.eqFolded entry.name name

/-- The attributes of the member that the options name. -/
def memberAttributes (c : Catalog m) (o : Options) : Except QueryError (List String) :=
  match typeWithRemainder c o with
  | (found, remainder) =>
    match found, (o.filled? "member").or remainder.head? with
    | some e, some name =>
      match findMember? c o e name with
      | none => .error .memberNotFound
      | some entry => .ok (entry.member.attributes.map Attribute.text)
    | _, _ => .error (.missingArgument .typeAndMember)

/-- The attributes of the type that the options name, or of one of its members. -/
def attributes (c : Catalog m) (o : Options) : Except QueryError (List String) :=
  if o.has "member" then memberAttributes c o
  else (resolveType c o ["type"]).map fun e => e.type.attributes.map Attribute.text

end ModuleInspector.Query
