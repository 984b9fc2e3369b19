/-!
# Attribute words

Types, members and parameters carry a word of attribute bits. The three lowest bits of a type or
member word are an access value; the bits named here are independent of it and of each other.
-/

namespace ModuleInspector.Flags

/-- Whether one of the bits of the mask is set. -/
def has (flags mask : UInt32) : Bool := flags &&& mask != 0

/-- The access value of a type or member word. -/
def access (flags : UInt32) : UInt32 := flags &&& 0x7

/-- A type word of an interface. -/
def interfaceType : UInt32 := 0x20

/-- A type word of a type without instances of its own. -/
def abstractType : UInt32 := 0x80

/-- A type word of a type that cannot be derived from. -/
def sealedType : UInt32 := 0x100

/-- A member word of a member that belongs to the type. -/
def staticMember : UInt32 := 0x10

/-- A method word of a method that is dispatched by the instance. -/
def virtualMethod : UInt32 := 0x40

/-- A method word of a method without a body. -/
def abstractMethod : UInt32 := 0x400

/-- A parameter word of a parameter that is passed out. -/
def outParameter : UInt32 := 0x2

/-- A parameter word of a parameter with a default value. -/
def defaultParameter : UInt32 := 0x1000

/-- The modifier bits of a method word. -/
def modifiers (flags : UInt32) : UInt32 :=
  flags &&& (staticMember ||| virtualMethod ||| abstractMethod)

/-- The bits of a parameter word that change how the parameter is written. -/
def parameterBits (flags : UInt32) : UInt32 := flags &&& (outParameter ||| defaultParameter)

end ModuleInspector.Flags
