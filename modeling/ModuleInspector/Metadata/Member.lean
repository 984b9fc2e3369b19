import ModuleInspector.Metadata.Accessibility
import ModuleInspector.Metadata.Literal

/-!
# Members

Methods, constructors, properties, fields and events. Methods and fields have an attribute word
of their own; a property or an event takes its visibility and storage from its accessors.
-/

namespace ModuleInspector

/-- The kinds of members. -/
inductive MemberKind
  | method
  | constructor
  | property
  | field
  | event
  deriving DecidableEq

namespace MemberKind

/-- All kinds in listing order. -/
def all : List MemberKind := [method, constructor, property, field, event]

/-- The name of a kind. -/
def name : MemberKind → String
  | method => "method"
  | constructor => "constructor"
  | property => "property"
  | field => "field"
  | event => "event"

/-- The name of a kind for several members. -/
def plural : MemberKind → String
  | method => "methods"
  | constructor => "constructors"
  | property => "properties"
  | field => "fields"
  | event => "events"

end MemberKind

/-- The summary of a method body. -/
structure MethodBody where
  ilSize : UInt32
  localCount : UInt32
  deriving DecidableEq

/-- A parameter of a method or constructor. -/
structure Parameter where
  name : String
  type : TypeRef
  flags : UInt32
  defaultValue : Option Literal

namespace Parameter

/-- Whether the parameter is passed out. -/
def isOut (p : Parameter) : Bool := Flags.has p.flags Flags.outParameter

/-- Whether the parameter has a default value, recorded or not. -/
def hasDefault (p : Parameter) : Bool :=
  p.defaultValue.isSome || Flags.has p.flags Flags.defaultParameter

end Parameter

/-- A method or constructor. -/
structure Method where
  name : String
  flags : UInt32
  returnType : TypeRef
  genericArguments : List TypeRef
  parameters : List Parameter
  attributes : List Attribute
  body : Option MethodBody

namespace Method

/-- A method without parameters and result. -/
def ofName (name : String) (flags : UInt32) : Method :=
  ⟨name, flags, .void, [], [], [], none⟩

/-- The accessibility of a method. -/
def accessibility (m : Method) : Accessibility := .ofMember m.flags

/-- Whether a method belongs to the type. -/
def isStatic (m : Method) : Bool := Flags.has m.flags Flags.staticMember

/-- Whether a method is dispatched by the instance. -/
def isVirtual (m : Method) : Bool := Flags.has m.flags Flags.virtualMethod

/-- Whether a method has no body to run. -/
def isAbstract (m : Method) : Bool := Flags.has m.flags Flags.abstractMethod

end Method

/-- The method behind one use of a property or event. -/
structure Accessor where
  name : String
  flags : UInt32
  deriving DecidableEq

namespace Accessor

/-- The accessibility of an accessor. -/
def accessibility (a : Accessor) : Accessibility := .ofMember a.flags

/-- Whether everyone may use the accessor. -/
def isPublic (a : Accessor) : Bool := a.accessibility = .everyone

/-- Whether an accessor belongs to the type. -/
def isStatic (a : Accessor) : Bool := Flags.has a.flags Flags.staticMember

end Accessor

/-- A property. -/
structure Property where
  name : String
  type : TypeRef
  getter : Option Accessor
  setter : Option Accessor
  attributes : List Attribute

/-- The accessors of a property, the getter first. -/
def Property.accessors (p : Property) : List Accessor := p.getter.toList ++ p.setter.toList

/-- A field. -/
structure Field where
  name : String
  type : TypeRef
  flags : UInt32
  attributes : List Attribute

namespace Field

/-- The accessibility of a field. -/
def accessibility (f : Field) : Accessibility := .ofMember f.flags

/-- Whether a field belongs to the type. -/
def isStatic (f : Field) : Bool := Flags.has f.flags Flags.staticMember

end Field

/-- An event. -/
structure Event where
  name : String
  handlerType : TypeRef
  adder : Option Accessor
  remover : Option Accessor
  attributes : List Attribute

/-- The accessors of an event, the adder first. -/
def Event.accessors (e : Event) : List Accessor := e.adder.toList ++ e.remover.toList

/-- A member of a type. -/
inductive Member
  | method (method : Method)
  | constructor (method : Method)
  | property (property : Property)
  | field (field : Field)
  | event (event : Event)

namespace Member

/-- The kind of a member. -/
def kind : Member → MemberKind
  | method _ => .method
  | constructor _ => .constructor
  | property _ => .property
  | field _ => .field
  | event _ => .event

/-- The name of a member. -/
def name : Member → String
  | method m => m.name
  | constructor m => m.name
  | property p => p.name
  | field f => f.name
  | event e => e.name

/-- The attributes of a member. -/
def attributes : Member → List Attribute
  | method m => m.attributes
  | constructor m => m.attributes
  | property p => p.attributes
  | field f => f.attributes
  | event e => e.attributes

/-- Whether everyone may use the member, or one of its accessors. -/
def isPublic : Member → Bool
  | method m => m.accessibility = .everyone
  | constructor m => m.accessibility = .everyone
  | property p => p.accessors.any (·.isPublic)
  | field f => f.accessibility = .everyone
  | event e => e.accessors.any (·.isPublic)

/-- Whether the declaring type alone may use the member, and every one of its accessors. -/
def isPrivate : Member → Bool
  | method m => m.accessibility = .owner
  | constructor m => m.accessibility = .owner
  | property p => p.accessors.all (·.accessibility = .owner)
  | field f => f.accessibility = .owner
  | event e => e.accessors.all (·.accessibility = .owner)

/-- Whether the member, or one of its accessors, belongs to the type. -/
def isStatic : Member → Bool
  | method m => m.isStatic
  | constructor m => m.isStatic
  | property p => p.accessors.any (·.isStatic)
  | field f => f.isStatic
  | event e => e.accessors.any (·.isStatic)

/-- The method behind a method or constructor. -/
def method? : Member → Option Method
  | method m => some m
  | constructor m => some m
  | _ => none

end Member

end ModuleInspector
