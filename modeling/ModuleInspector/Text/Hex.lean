/-!
# Bytes and hexadecimal digits

The UTF-8 bytes of a text, and the digits that write a byte or a word.
-/

namespace ModuleInspector.Text

/-- The UTF-8 bytes of a text. -/
def bytes (text : String) : List UInt8 := text.toList.flatMap String.utf8EncodeChar

/-- The value of a hexadecimal digit of either case. -/
def hexValue? (byte : UInt8) : Option Nat :=
  if '0'.toUInt8 ≤ byte ∧ byte ≤ '9'.toUInt8 then some (byte.toNat - '0'.toNat)
  else if 'a'.toUInt8 ≤ byte ∧ byte ≤ 'f'.toUInt8 then some (byte.toNat - 'a'.toNat + 10)
  else if 'A'.toUInt8 ≤ byte ∧ byte ≤ 'F'.toUInt8 then some (byte.toNat - 'A'.toNat + 10)
  else none

/-- The lower-case hexadecimal digit of a number below sixteen. -/
def hexDigit (value : Nat) : Char := Nat.digitChar value

/-- The last `count` hexadecimal digits of a number. -/
def hexDigits : Nat → Nat → List Char
  | 0, _ => []
  | count + 1, value => hexDigits count (value / 16) ++ [hexDigit (value % 16)]

/-- The number that hexadecimal digits write; none when a byte is no digit. -/
def ofHexDigits? (digits : List UInt8) : Option Nat :=
  digits.foldl (fun value digit =>
    value.bind fun value => (hexValue? digit).map fun digit => value * 16 + digit) (some 0)

/-- The lower-case hexadecimal text of bytes, two digits each. -/
def hexText (data : List UInt8) : String :=
  String.ofList (data.flatMap fun byte => hexDigits 2 byte.toNat)

end ModuleInspector.Text
