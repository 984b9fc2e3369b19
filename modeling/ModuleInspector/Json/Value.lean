import ModuleInspector.Binary64.Basic

/-!
# JSON values

The value of a JSON text. A whole number keeps its exact value when it fits 64 bits; every other
number is a double. The members of an object that was read are sorted by key, and no key repeats.
-/

namespace ModuleInspector

/-- A JSON number. A number below zero is `negative`; `-0` is a double. -/
inductive Json.Number
  | unsigned (value : UInt64)
  | negative (value : Int64)
  | float (value : Binary64)
  deriving DecidableEq

/-- A JSON value. -/
inductive Json
  | null
  | bool (value : Bool)
  | number (value : Json.Number)
  | string (value : String)
  | array (items : List Json)
  | object (members : List (String × Json))

namespace Json

/-- The member of an object under a key. -/
def member? (key : String) (members : List (String × Json)) : Option Json := members.lookup key

/-- The sorted members with `key` set to `value`, whether or not it was present. -/
def setMember (key : String) (value : Json) : List (String × Json) → List (String × Json)
  | [] => [(key, value)]
  | (name, old) :: members =>
    match compare key name with
    | .lt => (key, value) :: (name, old) :: members
    | .eq => (key, value) :: members
    | .gt => (name, old) :: setMember key value members

end Json

end ModuleInspector
