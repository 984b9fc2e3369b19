import ModuleInspector.Catalog.Lookup

/-!
# Type hierarchies

The bases of a type, the interfaces it implements, and the types that may stand for another one.
Recorded hierarchies may be cyclic and may leave the module, so every walk remembers the
qualified names it has visited and visits none of them twice.
-/

namespace ModuleInspector

/-- A step to a base: the reference as it is recorded, and the type it resolves to. -/
structure BaseStep (m : Module) where
  reference : TypeRef
  target : Option (Entry m)

namespace Catalog

variable {m : Module}

/-- The steps from a type to its bases. The walk ends after a base that does not resolve, and
before one whose name was visited. -/
def basesFrom (c : Catalog m) (visited : List String) (current : Entry m) : List (BaseStep m) :=
  match current.type.base with
  | none => []
  | some reference =>
    match c.resolve reference with
    | none => [⟨reference, none⟩]
    | some next =>
      if _h : next.name ∈ visited then []
      else ⟨reference, some next⟩ :: c.basesFrom (next.name :: visited) next
termination_by m.unvisited visited
decreasing_by exact Module.unvisited_cons_lt _h

/-- The steps from a type to all its bases, nearest first. -/
def baseSteps (c : Catalog m) (e : Entry m) : List (BaseStep m) := c.basesFrom [e.name] e

/-- The bases of a type that resolve, nearest first. -/
def baseChain (c : Catalog m) (e : Entry m) : List (Entry m) :=
  (c.baseSteps e).filterMap (·.target)

/-- The name of a type and the texts of its bases, nearest first, the last of which may be one
that does not resolve. -/
def inheritanceChain (c : Catalog m) (e : Entry m) : List String :=
  e.name :: (c.baseSteps e).map (·.reference.text)

/-- The references that were found, and after them the further ones with a new text. -/
def addReferences (found : List TypeRef) : List TypeRef → List TypeRef
  | [] => found
  | reference :: references =>
    if (TypeRef.texts found).contains reference.text then addReferences found references
    else addReferences (found ++ [reference]) references

/-- The interfaces of the pending types and of everything they lead to. A type whose name was
visited is passed over; any other one adds its interfaces, and their types come next. -/
def interfacesFrom (c : Catalog m) (visited : List String) (found : List TypeRef) :
    List (Entry m) → List TypeRef
  | [] => found
  | current :: pending =>
    if _h : current.name ∈ visited then c.interfacesFrom visited found pending
    else
      c.interfacesFrom (current.name :: visited) (addReferences found current.type.interfaces)
        (current.type.interfaces.filterMap c.resolve ++ pending)
termination_by pending => (m.unvisited visited, pending.length)
decreasing_by
  · exact Prod.Lex.right _ (Nat.lt_succ_self _)
  · exact Prod.Lex.left _ _ (Module.unvisited_cons_lt _h)

/-- The interfaces a type implements, itself or through its bases or other interfaces, in the
order of their discovery and with no text twice. -/
def interfacesOf (c : Catalog m) (e : Entry m) : List TypeRef :=
  c.interfacesFrom [] [] (e :: c.baseChain e)

/-- Whether a plain reference names the type. -/
def refersTo (target : Entry m) (reference : TypeRef) : Bool :=
  reference.fullName? = some target.name

/-- Whether a value of `candidate` may stand where `target` is expected: the types are the same,
or a base or an interface of the candidate names the target. -/
def isAssignable (c : Catalog m) (target candidate : Entry m) : Bool :=
  target = candidate ||
    ((c.baseSteps candidate).any fun step => refersTo target step.reference) ||
    (c.interfacesOf candidate).any (refersTo target)

end Catalog

end ModuleInspector
