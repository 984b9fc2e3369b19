import ModuleInspector.Json.Value

/-!
# Reading numbers

A number is a whole part, an optional fraction and an optional exponent. Its digits are gathered
into a significand of 64 bits, and what no longer fits only moves the decimal exponent: digits
of the whole part raise it, later digits of the fraction are ignored. The double is the
significand times or divided by a power of ten, each step rounded to the nearest double.
-/

namespace ModuleInspector.Json

/-- The ways a text fails to be JSON: it stops too early, or it breaks the grammar. -/
inductive ReadError
  | unexpectedEnd
  | malformed
  deriving DecidableEq

/-- The bytes of a text. -/
abbrev Bytes := List UInt8

/-- A value that was read, with the unread bytes, of which there are fewer than `bound`. -/
structure Parsed (α : Type) (bound : Nat) where
  value : α
  rest : Bytes
  short : rest.length < bound

/-- Failing before the next byte: the text has ended, or the byte is a wrong one. -/
def stopAt : Bytes → ReadError
  | [] => .unexpectedEnd
  | _ :: _ => .malformed

/-- Whether a byte is a decimal digit. -/
def isDigit (byte : UInt8) : Bool := '0'.toUInt8 ≤ byte && byte ≤ '9'.toUInt8

/-- The value of a digit. -/
def digitValue (byte : UInt8) : Nat := byte.toNat - '0'.toNat

/-- The values of the leading digits. -/
def leadingDigits (input : Bytes) : List Nat := (input.takeWhile isDigit).map digitValue

/-- The bytes after the leading digits. -/
def afterDigits (input : Bytes) : Bytes := input.dropWhile isDigit

theorem length_afterDigits_le (input : Bytes) : (afterDigits input).length ≤ input.length :=
  (List.dropWhile_sublist isDigit).length_le

theorem length_afterDigits_lt {input : Bytes} (h : leadingDigits input ≠ []) :
    (afterDigits input).length < input.length := by
  have total : (input.takeWhile isDigit).length + (afterDigits input).length = input.length := by
    rw [afterDigits, ← List.length_append, List.takeWhile_append_dropWhile]
  have some_digit : (input.takeWhile isDigit).length ≠ 0 := by
    simpa [leadingDigits] using h
  omega

/-- Appends digits to a significand as long as it stays below `2 ^ 64`. The second part holds the
digits that were left out. -/
def absorb (significand : Nat) : List Nat → Nat × List Nat
  | [] => (significand, [])
  | digit :: digits =>
    if significand * 10 + digit < UInt64.size then absorb (significand * 10 + digit) digits
    else (significand, digit :: digits)

/-- A magnitude divided by a power of ten, in steps of `10 ^ 308`. -/
def divPowerOfTen? (x : Binary64) (exponent : Nat) : Option Binary64 :=
  if exponent ≤ 308 then (Binary64.powerOfTen? exponent).bind x.div?
  else if x.units = 0 then some x
  else
    ((Binary64.powerOfTen? 308).bind x.div?).bind fun smaller =>
      divPowerOfTen? smaller (exponent - 308)
termination_by exponent

/-- The double of `significand * 10 ^ exponent`; none when it is beyond the doubles. -/
def scaled? (significand : Nat) (exponent : Int) : Option Binary64 :=
  (Binary64.ofNat? significand).bind fun x =>
    if exponent < 0 then divPowerOfTen? x exponent.natAbs
    else if exponent ≤ 308 then (Binary64.powerOfTen? exponent.toNat).bind x.mul?
    else if x.units = 0 then some x
    else none

/-- A double with the sign of the text. -/
def signed (negative : Bool) (x : Binary64) : Number := .float (if negative then x.neg else x)

/-- A whole number without fraction and exponent. -/
def wholeNumber (negative : Bool) (value : Nat) : Option Number :=
  if !negative then some (.unsigned (UInt64.ofNat value))
  else if 0 < value ∧ value ≤ Nat.pow 2 63 then some (.negative (Int64.ofInt (-(value : Int))))
  else (Binary64.ofNat? value).map (signed true)

/-- The number of a significand and its exponents: `shift` from the digits and `written` from the
exponent part, whose value is capped only by the failure of the scaling. -/
def exponentNumber (negative : Bool) (significand : Nat) (shift : Int) (below : Bool)
    (written : Nat) : Option Number :=
  if Nat.pow 2 31 ≤ written then
    if significand ≠ 0 ∧ !below then none else some (signed negative .zero)
  else
    (scaled? significand (if below then shift - written else shift + written)).map
      (signed negative)

/-- The unread bytes after a number, or the failure when there is no number. -/
def finishNumber {bound : Nat} (number : Option Number) (rest : Bytes)
    (short : rest.length < bound) : Except ReadError (Parsed Number bound) :=
  match number with
  | none => .error .malformed
  | some value => .ok ⟨value, rest, short⟩

/-- Whether a byte starts an exponent part. -/
def isExponentMark (byte : UInt8) : Bool := byte = 'e'.toUInt8 || byte = 'E'.toUInt8

/-- Whether the sign of an exponent is a minus, and the bytes after the sign. -/
def exponentSign : Bytes → Bool × Bytes
  | [] => (false, [])
  | byte :: rest =>
    if byte = '-'.toUInt8 then (true, rest)
    else if byte = '+'.toUInt8 then (false, rest)
    else (false, byte :: rest)

theorem length_exponentSign_le (input : Bytes) : (exponentSign input).2.length ≤ input.length := by
  cases input with
  | nil => simp [exponentSign]
  | cons byte rest =>
    rw [exponentSign]
    split
    · simp
    · split <;> simp

/-- Reads the exponent part after its mark. -/
def readExponent (bound : Nat) (negative : Bool) (significand : Nat) (shift : Int)
    (input : Bytes) (short : input.length < bound) : Except ReadError (Parsed Number bound) :=
  let sign := exponentSign input
  match leadingDigits sign.2 with
  | [] => .error (stopAt sign.2)
  | digits =>
    finishNumber
      (exponentNumber negative significand shift sign.1
        (digits.foldl (fun value digit => value * 10 + digit) 0))
      (afterDigits sign.2)
      (Nat.lt_of_le_of_lt
        (Nat.le_trans (length_afterDigits_le _) (length_exponentSign_le _)) short)

/-- Reads the optional exponent part and finishes the number. -/
def readScale (bound : Nat) (negative : Bool) (significand : Nat) (shift : Int)
    (input : Bytes) (short : input.length < bound) : Except ReadError (Parsed Number bound) :=
  match input, short with
  | [], short => finishNumber ((scaled? significand shift).map (signed negative)) [] short
  | byte :: rest, short =>
    if isExponentMark byte then
      readExponent bound negative significand shift rest
        (Nat.lt_of_succ_lt (by simpa using short))
    else
      finishNumber ((scaled? significand shift).map (signed negative)) (byte :: rest) short

/-- Reads the fraction after its point. -/
def readFraction (bound : Nat) (negative : Bool) (significand shift : Nat) (input : Bytes)
    (short : input.length < bound) : Except ReadError (Parsed Number bound) :=
  match leadingDigits input with
  | [] => .error (stopAt input)
  | digits =>
    let absorbed := absorb significand digits
    readScale bound negative absorbed.1
      ((shift : Int) - ((digits.length - absorbed.2.length : Nat) : Int))
      (afterDigits input) (Nat.lt_of_le_of_lt (length_afterDigits_le _) short)

/-- Reads what follows the whole part. -/
def readAfterWhole (bound : Nat) (negative : Bool) (digits : List Nat) (input : Bytes)
    (short : input.length < bound) : Except ReadError (Parsed Number bound) :=
  let absorbed := absorb 0 digits
  match input, short with
  | byte :: rest, short =>
    if byte = '.'.toUInt8 then
      readFraction bound negative absorbed.1 absorbed.2.length rest
        (Nat.lt_of_succ_lt (by simpa using short))
    else if isExponentMark byte || !absorbed.2.isEmpty then
      readScale bound negative absorbed.1 absorbed.2.length (byte :: rest) short
    else finishNumber (wholeNumber negative absorbed.1) (byte :: rest) short
  | [], short =>
    if absorbed.2.isEmpty then finishNumber (wholeNumber negative absorbed.1) [] short
    else readScale bound negative absorbed.1 absorbed.2.length [] short

/-- Reads the digits of a number, which follow its sign: a whole part without leading zeros, then
what follows it. -/
def readDigits (bound : Nat) (negative : Bool) (input : Bytes) (fits : input.length ≤ bound) :
    Except ReadError (Parsed Number bound) :=
  if h : leadingDigits input = [] then .error (stopAt input)
  else if (leadingDigits input).head? = some 0 ∧ 1 < (leadingDigits input).length then
    .error .malformed
  else
    readAfterWhole bound negative (leadingDigits input) (afterDigits input)
      (Nat.lt_of_lt_of_le (length_afterDigits_lt h) fits)

end ModuleInspector.Json
