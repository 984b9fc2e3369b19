import ModuleInspector.Metadata.Flags

/-!
# Accessibility

Who may use a type or a member. The access value of a word means one thing for top-level types,
another for nested types and a third for members; a value without a meaning is `unknown`.
-/

namespace ModuleInspector

/-- The users of a type or member: everyone, derived types (the family), the module, or the
declaring type alone. -/
inductive Accessibility
  | everyone
  | family
  | familyOrModule
  | sameModule
  | owner
  | familyAndModule
  | unknown
  deriving DecidableEq

namespace Accessibility

/-- All levels, widest first. -/
def all : List Accessibility :=
  [everyone, family, familyOrModule, sameModule, owner, familyAndModule, unknown]

/-- The label of a level. -/
def label : Accessibility → String
  | everyone => "public"
  | family => "protected"
  | familyOrModule => "protected internal"
  | sameModule => "internal"
  | owner => "private"
  | familyAndModule => "private protected"
  | unknown => "unknown"

/-- The accessibility of a type. -/
def ofType (nested : Bool) (flags : UInt32) : Accessibility :=
  match nested, (Flags.access flags).toNat with
  | false, 0 => sameModule
  | false, 1 => everyone
  | true, 2 => everyone
  | true, 3 => owner
  | true, 4 => family
  | true, 5 => sameModule
  | true, 6 => familyAndModule
  | true, 7 => familyOrModule
  | _, _ => unknown

/-- The accessibility of a method, field or accessor. -/
def ofMember (flags : UInt32) : Accessibility :=
  match (Flags.access flags).toNat with
  | 1 => owner
  | 2 => familyAndModule
  | 3 => sameModule
  | 4 => family
  | 5 => familyOrModule
  | 6 => everyone
  | _ => unknown

/-- Whether a type counts as public in listings: a top-level type for everyone, or a nested one
that derived types outside the module can reach. -/
def isPublicType (nested : Bool) (flags : UInt32) : Bool :=
  match ofType nested flags with
  | everyone => true
  | family => true
  | familyOrModule => true
  | _ => false

end Accessibility

end ModuleInspector
