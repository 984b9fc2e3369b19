import ModuleInspector.Proofs.Json.Nesting
import ModuleInspector.Snapshot.Decoding
import ModuleInspector.Snapshot.Encoding

/-!
# Canonical modules

The modules that a snapshot can hold. Every array type has a rank that array types have, a literal
is recorded under the first alternative that fits it, a default of null is not recorded at all,
and the form of the module nests fewer than 128 containers.
-/

namespace ModuleInspector

open Snapshot

/-- The references whose array types have ranks between 1 and 32, at every depth. -/
inductive TypeRef.Canonical : TypeRef → Prop
  | named {name : String} {fullName : Option String} : Canonical (.named name fullName)
  | generic {definition : String} {arguments : List TypeRef}
    (harguments : ∀ argument ∈ arguments, Canonical argument) :
    Canonical (.generic definition arguments)
  | array {element : TypeRef} {rank : UInt32} (helement : Canonical element)
    (hpositive : 1 ≤ rank.toNat) (hrank : rank.toNat ≤ 32) : Canonical (.array element rank)
  | byRef {element : TypeRef} (helement : Canonical element) : Canonical (.byRef element)

/-- The literals whose unsigned numbers are too large for signed ones, whose doubles are finite
and whose references are canonical, at every depth. -/
inductive Literal.Canonical : Literal → Prop
  | null : Canonical .null
  | bool {value : Bool} : Canonical (.bool value)
  | int {value : Int64} : Canonical (.int value)
  | uint {value : UInt64} (hlarge : Nat.pow 2 63 ≤ value.toNat) : Canonical (.uint value)
  | float {value : Binary64} (hfinite : value.isFinite = true) : Canonical (.float value)
  | string {value : String} : Canonical (.string value)
  | char {value : Char} : Canonical (.char value)
  | enumerant {enumType value : String} : Canonical (.enumerant enumType value)
  | typeOf {type : TypeRef} (htype : type.Canonical) : Canonical (.typeOf type)
  | array {items : List Literal} (hitems : ∀ item ∈ items, Canonical item) :
    Canonical (.array items)

/-- Whether the value of a named argument is canonical. -/
def NamedArgument.Canonical (argument : NamedArgument) : Prop := argument.value.Canonical

/-- Whether the type and the arguments of an attribute are canonical. -/
structure Attribute.Canonical (a : Attribute) : Prop where
  type : a.type.Canonical
  arguments : ∀ argument ∈ a.arguments, argument.Canonical
  namedArguments : ∀ argument ∈ a.namedArguments, argument.Canonical

/-- Whether a literal is recorded as a default value: null is not. -/
def Literal.IsDefault (value : Literal) : Prop := value.Canonical ∧ value ≠ .null

/-- Whether the type and the default value of a parameter are canonical. -/
structure Parameter.Canonical (p : Parameter) : Prop where
  type : p.type.Canonical
  defaultValue : ∀ value ∈ p.defaultValue, value.IsDefault

/-- Whether the signature and the attributes of a method are canonical. -/
structure Method.Canonical (m : Method) : Prop where
  returnType : m.returnType.Canonical
  genericArguments : ∀ argument ∈ m.genericArguments, argument.Canonical
  parameters : ∀ parameter ∈ m.parameters, parameter.Canonical
  attributes : ∀ applied ∈ m.attributes, applied.Canonical

/-- Whether the type and the attributes of a property are canonical. -/
structure Property.Canonical (p : Property) : Prop where
  type : p.type.Canonical
  attributes : ∀ applied ∈ p.attributes, applied.Canonical

/-- Whether the type and the attributes of a field are canonical. -/
structure Field.Canonical (f : Field) : Prop where
  type : f.type.Canonical
  attributes : ∀ applied ∈ f.attributes, applied.Canonical

/-- Whether the handler type and the attributes of an event are canonical. -/
structure Event.Canonical (e : Event) : Prop where
  handlerType : e.handlerType.Canonical
  attributes : ∀ applied ∈ e.attributes, applied.Canonical

/-- Whether a member of any kind is canonical. -/
def Member.Canonical : Member → Prop
  | method m => m.Canonical
  | constructor m => m.Canonical
  | property p => p.Canonical
  | field f => f.Canonical
  | event e => e.Canonical

/-- Whether everything a type refers to and declares is canonical. -/
structure TypeDef.Canonical (t : TypeDef) : Prop where
  base : ∀ base ∈ t.base, base.Canonical
  interfaces : ∀ reference ∈ t.interfaces, reference.Canonical
  genericArguments : ∀ argument ∈ t.genericArguments, argument.Canonical
  attributes : ∀ applied ∈ t.attributes, applied.Canonical
  members : ∀ member ∈ t.members, member.Canonical

/-- Whether the types of a module are canonical, and its form nests fewer than 128 containers. -/
structure Module.Canonical (m : Module) : Prop where
  types : ∀ type ∈ m.types, type.Canonical
  referencedTypes : ∀ type ∈ m.referencedTypes, type.Canonical
  nesting : (encodeModule m).nesting < 128

namespace Snapshot

/-- The forms of a list of references are those of the references. -/
theorem encodeTypeRefs_eq_map (references : List TypeRef) :
    encodeTypeRefs references = references.map encodeTypeRef := by
  induction references with
  | nil => rfl
  | cons reference references ih => rw [encodeTypeRefs, ih, List.map_cons]

/-- The forms of a list of literals are those of the literals. -/
theorem encodeLiterals_eq_map (items : List Literal) :
    encodeLiterals items = items.map encodeLiteral := by
  induction items with
  | nil => rfl
  | cons item items ih => rw [encodeLiterals, ih, List.map_cons]

/-- Decoding a list of references decodes each of them. -/
theorem typeRefs_eq_decodeAll (items : List Json) :
    typeRefs items = decodeAll nestedTypeRef items := by
  induction items with
  | nil => simp only [typeRefs, decodeAll]
  | cons item items ih => simp only [typeRefs, decodeAll, ih]

/-- The element of an array or by-reference type is decoded as any other member. -/
theorem elementMember?_eq_member? (members : List (String × Json)) :
    elementMember? members = member? "element" nestedTypeRef members := by
  induction members with
  | nil => simp only [elementMember?, member?, Json.member?, List.lookup_nil]
  | cons member members ih =>
    obtain ⟨key, value⟩ := member
    unfold elementMember? member? Json.member?
    by_cases hkey : key = "element"
    · simp [hkey]
    · have hother : ("element" == key) = false := beq_eq_false_iff_ne.mpr (Ne.symm hkey)
      rw [if_neg hkey, ih, List.lookup_cons, hother]
      rfl

/-- The arguments of a generic type are decoded as any other member. -/
theorem argumentsMember?_eq_member? (members : List (String × Json)) :
    argumentsMember? members = member? "arguments" (listOf nestedTypeRef) members := by
  induction members with
  | nil => simp only [argumentsMember?, member?, Json.member?, List.lookup_nil]
  | cons member members ih =>
    obtain ⟨key, value⟩ := member
    unfold argumentsMember? member? Json.member?
    by_cases hkey : key = "arguments"
    · cases value <;> simp [hkey, listOf, typeRefs_eq_decodeAll, Except.map]
    · have hother : ("arguments" == key) = false := beq_eq_false_iff_ne.mpr (Ne.symm hkey)
      rw [if_neg hkey, ih, List.lookup_cons, hother]
      rfl

end Snapshot

end ModuleInspector
