import ModuleInspector.Binary64.Shortest
import ModuleInspector.Json.Value
import ModuleInspector.Text.Hex
import ModuleInspector.Text.Pieces

/-!
# Writing JSON

A value on one line, or indented by two spaces with every item and member on a line of its own.
Quotes, backslashes and control characters are escaped; every other character is written as it
is.
-/

namespace ModuleInspector.Json

/-- A character inside a string. -/
def escape (c : Char) : List Char :=
  if c = '"' then ['\\', '"']
  else if c = '\\' then ['\\', '\\']
  else if c = '\x08' then ['\\', 'b']
  else if c = '\x0c' then ['\\', 'f']
  else if c = '\n' then ['\\', 'n']
  else if c = '\r' then ['\\', 'r']
  else if c = '\t' then ['\\', 't']
  else if c < ' ' then
    ['\\', 'u', '0', '0', Text.hexDigit (c.toNat / 16), Text.hexDigit (c.toNat % 16)]
  else [c]

/-- A text in quotes. -/
def quote (text : String) : String := String.ofList ('"' :: text.toList.flatMap escape ++ ['"'])

/-- A double: positional with at least one decimal between `10 ^ -5` and `10 ^ 16`, and with a
signed exponent elsewhere. -/
def floatText (x : Binary64) : String :=
  let decimal := x.shortest .even
  let digits := (Nat.repr decimal.digits).toList
  let point := (digits.length : Int) + decimal.exponent
  let magnitude :=
    if -5 < point ∧ point ≤ 16 then
      if 0 ≤ decimal.exponent then decimal.positional ++ ".0" else decimal.positional
    else
      String.ofList (digits.take 1 ++ (if digits.length = 1 then [] else '.' :: digits.drop 1)) ++
        (if 0 < point then "e+" else "e") ++ toString (point - 1)
  x.sign ++ magnitude

/-- The text of a number. -/
def Number.text : Number → String
  | .unsigned value => toString value.toNat
  | .negative value => toString value.toInt
  | .float value => floatText value

mutual

/-- A value on one line, without spaces. -/
def compact : Json → String
  | .null => "null"
  | .bool value => if value then "true" else "false"
  | .number value => value.text
  | .string value => quote value
  | .array items => "[" ++ Text.join "," (compactItems items) ++ "]"
  | .object members => "\x7b" ++ Text.join "," (compactMembers members) ++ "\x7d"

/-- The items of an array, each on one line. -/
def compactItems : List Json → List String
  | [] => []
  | item :: items => compact item :: compactItems items

/-- The members of an object, each on one line. -/
def compactMembers : List (String × Json) → List String
  | [] => []
  | (key, value) :: members => (quote key ++ ":" ++ compact value) :: compactMembers members

end

/-- The margin of a nesting level. -/
def margin (level : Nat) : String := String.ofList (List.replicate (2 * level) ' ')

/-- The lines of a container between its brackets, one level deeper than the brackets. -/
def block (level : Nat) (opening closing : String) (lines : List String) : String :=
  if lines.isEmpty then opening ++ closing
  else
    opening ++ "\n" ++ Text.join ",\n" (lines.map (margin (level + 1) ++ ·)) ++ "\n" ++
      margin level ++ closing

mutual

/-- A value that starts on a line at the given nesting level. -/
def indented (level : Nat) : Json → String
  | .null => "null"
  | .bool value => if value then "true" else "false"
  | .number value => value.text
  | .string value => quote value
  | .array items => block level "[" "]" (indentedItems (level + 1) items)
  | .object members => block level "\x7b" "\x7d" (indentedMembers (level + 1) members)

/-- The items of an array at their nesting level. -/
def indentedItems (level : Nat) : List Json → List String
  | [] => []
  | item :: items => indented level item :: indentedItems level items

/-- The members of an object at their nesting level. -/
def indentedMembers (level : Nat) : List (String × Json) → List String
  | [] => []
  | (key, value) :: members =>
    (quote key ++ ": " ++ indented level value) :: indentedMembers level members

end

/-- A value over several lines. -/
def pretty (value : Json) : String := indented 0 value

end ModuleInspector.Json
