import ModuleInspector.Text.Blank
import ModuleInspector.Text.LowerCase

/-!
# Command options

The tokens after a command. A token that starts with a dash is an option and stands for `true`,
unless the next token is not an option: then that token is its value. Any other token is
positional, and blank tokens do not count. Keys are compared in lower case, and every occurrence
of a key adds a value.
-/

namespace ModuleInspector

/-- The values of every key in the order of their tokens, and the positional tokens. -/
structure Options where
  values : List (String × List String)
  positional : List String

namespace Options

/-- The key of an option token: the text after two dashes, or after one when nothing or only
that one remains. -/
def keyOfToken? (token : String) : Option String :=
  match token.toList with
  | '-' :: '-' :: c :: rest => some (String.ofList (c :: rest))
  | '-' :: c :: rest => some (String.ofList (c :: rest))
  | _ => none

/-- Appends a value to a key. -/
def addValue (key value : String) : List (String × List String) → List (String × List String)
  | [] => [(key, [value])]
  | (name, values) :: entries =>
    if name = key then (name, values ++ [value]) :: entries
    else (name, values) :: addValue key value entries

/-- Replaces the last value of a key. -/
def replaceValue (key value : String) :
    List (String × List String) → List (String × List String)
  | [] => []
  | (name, values) :: entries =>
    if name = key then (name, values.dropLast ++ [value]) :: entries
    else (name, values) :: replaceValue key value entries

/-- Options that are being read, with the key that still waits for a value. -/
structure Reading where
  options : Options
  pending : Option String

/-- Reads one token. -/
def Reading.step (reading : Reading) (token : String) : Reading :=
  if Text.isBlank token then reading
  else
    match keyOfToken? token with
    | some key =>
      let key := Text.lowerCase key
      ⟨⟨addValue key "true" reading.options.values, reading.options.positional⟩, some key⟩
    | none =>
      match reading.pending with
      | some key =>
        ⟨⟨replaceValue key token reading.options.values, reading.options.positional⟩, none⟩
      | none => ⟨⟨reading.options.values, reading.options.positional ++ [token]⟩, none⟩

/-- The options of a list of tokens. -/
def parse (tokens : List String) : Options :=
  (tokens.foldl Reading.step ⟨⟨[], []⟩, none⟩).options

/-- All values of a key, in order. -/
def getAll (o : Options) (key : String) : List String :=
  (o.values.lookup (Text.lowerCase key)).getD []

/-- Whether a key occurs. -/
def has (o : Options) (key : String) : Bool := (o.values.lookup (Text.lowerCase key)).isSome

/-- The last value of a key. -/
def get? (o : Options) (key : String) : Option String := (o.getAll key).getLast?

/-- The last value of a key when it is not blank. -/
def filled? (o : Options) (key : String) : Option String :=
  (o.get? key).filter fun value => !Text.isBlank value

/-- The last value of the first key that has one which is not blank. -/
def firstOf? (o : Options) (keys : List String) : Option String := keys.findSome? o.filled?

end Options

end ModuleInspector
