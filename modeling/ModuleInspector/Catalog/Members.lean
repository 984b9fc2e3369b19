import ModuleInspector.Catalog.Hierarchy
import ModuleInspector.Metadata.Selection
import ModuleInspector.Metadata.Signature

/-!
# Members of a type

The members a type declares and the ones it inherits. Constructors, static and private members
are not inherited, and a member hides every member of the same kind and signature that a more
distant base declares.
-/

namespace ModuleInspector

/-- A member by its declaring type and its position there. -/
structure MemberEntry (m : Module) where
  declaring : Entry m
  index : Nat
  member : Member

/-- The name of a member, with the parameter types of a method: a member hides the ones with the
same key. -/
def Member.hidingKey (member : Member) : String :=
  match member.method? with
  | some callable =>
    callable.name ++ "(" ++ Text.join "," (callable.parameters.map (·.type.text)) ++ ")"
  | none => member.name

namespace MemberEntry

variable {m : Module}

/-- The name of the member. -/
def name (e : MemberEntry m) : String := e.member.name

/-- The signature of the member at its declaring type. -/
def signature (includeNonPublic : Bool) (e : MemberEntry m) : String :=
  e.member.signature e.declaring.type includeNonPublic

end MemberEntry

/-- The members of one kind that a type declares, in metadata order. -/
def Entry.declared {m : Module} (e : Entry m) (kind : MemberKind) : List (MemberEntry m) :=
  (e.type.members.zipIdx.map fun item => ⟨e, item.2, item.1⟩).filter fun entry =>
    entry.member.kind = kind

namespace Catalog

variable {m : Module}

/-- The inherited members from a chain of bases, nearest first, where members with the keys in
`hidden` are hidden. Every base hides its own members from the bases behind it, whether or not
they are selected. -/
def inherited (kind : MemberKind) (selection : Selection) (hidden : List String) :
    List (Entry m) → List (MemberEntry m)
  | [] => []
  | base :: bases =>
    let declared := base.declared kind
    (declared.filter fun entry =>
      !entry.member.isStatic && !entry.member.isPrivate &&
        !hidden.contains entry.member.hidingKey &&
        selection.selects entry.member.isPublic false) ++
      inherited kind selection (hidden ++ declared.map (·.member.hidingKey)) bases

/-- The selected members of one kind: the declared ones in metadata order, then the inherited
ones, nearest base first. -/
def members (c : Catalog m) (e : Entry m) (kind : MemberKind) (selection : Selection) :
    List (MemberEntry m) :=
  let declared := e.declared kind
  let own := declared.filter fun entry =>
    selection.selects entry.member.isPublic entry.member.isStatic
  if selection.declaredOnly || kind = .constructor then own
  else own ++ inherited kind selection (declared.map (·.member.hidingKey)) (c.baseChain e)

end Catalog

end ModuleInspector
