import ModuleInspector.Json.Value

/-!
# Decoding records

A record is an object with a member per field, or an array with its fields in declaration order.
The members of an object are decoded in the order of their keys, and only then is a missing one
reported. Fields at the end of an array may be left out when they have a default; further items
are an error.
-/

namespace ModuleInspector.Snapshot

/-- The ways a value fails to describe metadata: it has the wrong shape, or it describes an array
type of a rank that no array has. -/
inductive DecodeError
  | shape
  | arrayRank (rank : UInt32)
  deriving DecidableEq

/-- The message of an error that is told apart. -/
def DecodeError.message? : DecodeError → Option String
  | shape => none
  | arrayRank rank => some ("array rank " ++ toString rank.toNat ++ " outside 1..=32")

/-- A way to read a value. -/
abbrev Decoder (α : Type) := Json → Except DecodeError α

/-- A text. -/
def text : Decoder String
  | .string value => .ok value
  | _ => .error .shape

/-- A natural number of 32 bits. -/
def word32 : Decoder UInt32
  | .number (.unsigned value) =>
    if value.toNat < UInt32.size then .ok value.toUInt32 else .error .shape
  | _ => .error .shape

/-- A natural number of 64 bits. -/
def word64 : Decoder UInt64
  | .number (.unsigned value) => .ok value
  | _ => .error .shape

/-- A value that may be null. -/
def nullable {α : Type} (decode : Decoder α) : Decoder (Option α)
  | .null => .ok none
  | value => (decode value).map some

/-- The decoded items of a list, up to the first failure. -/
def decodeAll {α : Type} (decode : Decoder α) : List Json → Except DecodeError (List α)
  | [] => .ok []
  | item :: items => do
    let first ← decode item
    let rest ← decodeAll decode items
    return first :: rest

/-- An array of values. -/
def listOf {α : Type} (decode : Decoder α) : Decoder (List α)
  | .array items => decodeAll decode items
  | _ => .error .shape

/-- A field that has to be there. -/
def required {α : Type} : Option α → Except DecodeError α
  | some value => .ok value
  | none => .error .shape

/-- The decoded member of an object, if it is there. -/
def member? {α : Type} (key : String) (decode : Decoder α) (members : List (String × Json)) :
    Except DecodeError (Option α) :=
  match Json.member? key members with
  | none => .ok none
  | some value => (decode value).map some

/-- A computation that takes the items of an array one after the other. -/
abbrev Items (α : Type) := StateT (List Json) (Except DecodeError) α

namespace Items

/-- The next field, which has to be there. -/
def next {α : Type} (decode : Decoder α) : Items α
  | [] => .error .shape
  | item :: items => (decode item).map fun value => (value, items)

/-- The next field, or a default when no item is left. -/
def nextD {α : Type} (default : α) (decode : Decoder α) : Items α
  | [] => .ok (default, [])
  | item :: items => (decode item).map fun value => (value, items)

/-- The record of exactly these items. -/
def all {α : Type} (fields : Items α) (items : List Json) : Except DecodeError α :=
  match fields items with
  | .error e => .error e
  | .ok (value, []) => .ok value
  | .ok (_, _ :: _) => .error .shape

end Items

/-- A record in either of its forms. -/
def record {α : Type} (members : List (String × Json) → Except DecodeError α)
    (items : Items α) : Decoder α
  | .object values => members values
  | .array values => items.all values
  | _ => .error .shape

end ModuleInspector.Snapshot
