/-!
# Pieces of a text

Searching, cutting and joining of character sequences.
-/

namespace ModuleInspector.Text

/-- Whether `part` occurs in the sequence as a block of neighbouring characters. -/
def isInfix (part : List Char) : List Char → Bool
  | [] => part.isEmpty
  | c :: rest => part.isPrefixOf (c :: rest) || isInfix part rest

/-- Whether `part` occurs in the text, character by character. -/
def contains (text part : String) : Bool := isInfix part.toList text.toList

/-- The texts one after the other, with the separator between neighbours. -/
def join (separator : String) (texts : List String) : String := separator.intercalate texts

/-- The characters after the last one that satisfies `p`; all of them when none does. -/
def afterLast (p : Char → Bool) (text : List Char) : List Char :=
  (text.reverse.takeWhile fun c => !p c).reverse

/-- The blocks between the separators, of which there is one more than separators. -/
def split (separator : Char) : List Char → List (List Char)
  | [] => [[]]
  | c :: rest =>
    if c = separator then [] :: split separator rest
    else
      match split separator rest with
      | [] => [[c]]
      | block :: blocks => (c :: block) :: blocks

end ModuleInspector.Text
