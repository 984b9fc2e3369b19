/-!
# Blank characters

The white space of the Unicode standard. Tokens that hold nothing else count as absent, and
white space around a token is not part of it.
-/

namespace ModuleInspector.Text

/-- Whether a character has the Unicode property White_Space. -/
def isBlankChar (c : Char) : Bool :=
  let code := c.toNat
  (0x9 ≤ code && code ≤ 0xd) || code = 0x20 || code = 0x85 || code = 0xa0 || code = 0x1680 ||
    (0x2000 ≤ code && code ≤ 0x200a) || code = 0x2028 || code = 0x2029 || code = 0x202f ||
    code = 0x205f || code = 0x3000

/-- Whether a text holds nothing but blank characters. -/
def isBlank (text : String) : Bool := text.toList.all isBlankChar

/-- The characters without the blank ones at both ends. -/
def trimChars (text : List Char) : List Char :=
  ((text.dropWhile isBlankChar).reverse.dropWhile isBlankChar).reverse

/-- The text without the blank characters at both ends. -/
def trim (text : String) : String := String.ofList (trimChars text.toList)

end ModuleInspector.Text
