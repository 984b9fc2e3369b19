import ModuleInspector.Text.CaseRuns
import ModuleInspector.Text.Pieces

/-!
# Case folding

Names are compared without regard to case by the code points of their folded characters. Each
character folds to one character: its upper case, or itself when the upper case is several
characters.
-/

namespace ModuleInspector.Text

/-- The single-character upper case of a character, or the character itself. -/
def foldChar (c : Char) : Char := ((CaseRun.find? upperRuns c.toNat).map Char.ofNat).getD c

/-- The folded characters of a text. -/
def fold (text : String) : List Char := text.toList.map foldChar

/-- The order of two texts by the code points of their folded characters. -/
def compareFolded (left right : String) : Ordering := compare (fold left) (fold right)

/-- Whether two texts are equal without regard to case. -/
def eqFolded (left right : String) : Bool := compareFolded left right == .eq

/-- Whether a text begins with `start` without regard to case. -/
def startsWithFolded (text start : String) : Bool := (fold start).isPrefixOf (fold text)

/-- Whether `part` occurs in a text without regard to case. -/
def containsFolded (text part : String) : Bool := isInfix (fold part) (fold text)

/-- The items in the folded order of their keys; items with equal keys keep their order. -/
def sortFolded {α : Type} (key : α → String) (items : List α) : List α :=
  items.mergeSort fun left right => (compareFolded (key left) (key right)).isLE

/-- The items in the code point order of their keys; items with equal keys keep their order. -/
def sortOrdinal {α : Type} (key : α → String) (items : List α) : List α :=
  items.mergeSort fun left right => (compare (key left) (key right)).isLE

end ModuleInspector.Text
