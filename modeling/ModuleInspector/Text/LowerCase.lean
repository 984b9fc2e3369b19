import ModuleInspector.Text.CaseRuns
import ModuleInspector.Text.WordCase

/-!
# Lower case

The full lower-casing of the Unicode standard without language rules. Two characters differ from
the simple mapping: a dotted capital I becomes two characters, and a capital sigma at the end of
a word becomes the final form of the letter.
-/

namespace ModuleInspector.Text

/-- The lower case of a character that does not depend on its neighbours. -/
def lowerChar (c : Char) : List Char :=
  if c = 'İ' then ['i', '\u0307']
  else [((CaseRun.find? lowerRuns c.toNat).map Char.ofNat).getD c]

/-- Whether the first character that is not case-ignorable is cased. -/
def meetsCased (text : List Char) : Bool :=
  match text.dropWhile isCaseIgnorable with
  | [] => false
  | c :: _ => isCased c

/-- The lower case of a text whose earlier characters, nearest first, are `before`. -/
def lowerAfter (before : List Char) : List Char → List Char
  | [] => []
  | c :: rest =>
    let lowered :=
      if c = 'Σ' then
        if meetsCased before && !meetsCased rest then ['ς'] else ['σ']
      else lowerChar c
    lowered ++ lowerAfter (c :: before) rest

/-- The lower case of a text. -/
def lowerCase (text : String) : String := String.ofList (lowerAfter [] text.toList)

/-- The lower case of the letters A to Z; every other character stays. -/
def lowerAscii (text : String) : String :=
  String.ofList (text.toList.map fun c =>
    if 'A' ≤ c ∧ c ≤ 'Z' then Char.ofNat (c.toNat + 32) else c)

end ModuleInspector.Text
