import ModuleInspector.Metadata.Member
import ModuleInspector.Text.Blank
import ModuleInspector.Text.LowerCase

/-!
# Commands

The names of the commands and of what they take, and the ways a command fails.
-/

namespace ModuleInspector

/-- A command. -/
inductive Command
  | summary
  | types
  | type
  | members
  | method
  | inheritance
  | implementers
  | search
  | attributes
  | resources
  | entryPoint
  | dumpJson
  deriving DecidableEq

namespace Command

/-- All commands in the order of the usage text. -/
def all : List Command :=
  [summary, types, type, members, method, inheritance, implementers, search, attributes,
    resources, entryPoint, dumpJson]

/-- The name of a command. -/
def name : Command → String
  | summary => "summary"
  | types => "types"
  | type => "type"
  | members => "members"
  | method => "method"
  | inheritance => "inheritance"
  | implementers => "implements"
  | search => "search"
  | attributes => "attributes"
  | resources => "resources"
  | entryPoint => "entrypoint"
  | dumpJson => "dump-json"

/-- The command with a name, where the case of the letters A to Z does not count. -/
def ofName? (text : String) : Option Command :=
  all.find? fun command => command.name = Text.lowerAscii text

end Command

/-- The kind of member with a name for one or several, where the case of the letters A to Z does
not count. -/
def MemberKind.ofName? (text : String) : Option MemberKind :=
  all.find? fun kind =>
    kind.name = Text.lowerAscii text || kind.plural = Text.lowerAscii text

/-- The argument that a command misses. -/
inductive Argument
  | methodName
  | typeOrInterface
  | pattern
  | typeAndMember
  deriving DecidableEq

/-- The name of an argument. -/
def Argument.label : Argument → String
  | methodName => "Method name"
  | typeOrInterface => "Type or interface"
  | pattern => "Pattern"
  | typeAndMember => "Type and member"

/-- The ways a command fails. -/
inductive QueryError
  | typeNotFound
  | referenceTypeNotFound
  | memberNotFound
  | methodNotFound
  | missingArgument (argument : Argument)
  | unknownCommand (text : String)
  deriving DecidableEq

/-- The message of a failure. -/
def QueryError.message : QueryError → String
  | typeNotFound => "Type not found"
  | referenceTypeNotFound => "Reference type not found"
  | memberNotFound => "Member not found"
  | methodNotFound => "Method not found"
  | missingArgument argument => argument.label ++ " required"
  | unknownCommand text => "Unknown command: " ++ text

end ModuleInspector
