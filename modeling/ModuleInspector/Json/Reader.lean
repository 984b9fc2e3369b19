import ModuleInspector.Json.Number
import ModuleInspector.Text.Hex

/-!
# Reading JSON

The strict grammar of RFC 8259 over UTF-8 bytes. Containers may nest to a given depth. An object
keeps the last value of a repeated key, and its members are sorted by key.

Every reader returns its value with the unread bytes and the bound on their number, so the
recursion ends because the input shrinks.
-/

namespace ModuleInspector.Json

/-- Whether a byte is white space between tokens. -/
def isSpace (byte : UInt8) : Bool :=
  byte = ' '.toUInt8 || byte = '\t'.toUInt8 || byte = '\n'.toUInt8 || byte = '\r'.toUInt8

/-- The bytes after leading white space. -/
def skipSpace (input : Bytes) : Bytes := input.dropWhile isSpace

theorem length_skipSpace_le (input : Bytes) : (skipSpace input).length ≤ input.length :=
  (List.dropWhile_sublist isSpace).length_le

/-- The bytes after leading white space are fewer than the input once one more is read. -/
theorem length_lt_of_skipSpace {input rest : Bytes} {byte : UInt8}
    (h : skipSpace input = byte :: rest) : rest.length < input.length := by
  have := length_skipSpace_le input
  rw [h] at this
  exact this

/-- Reads four hexadecimal digits. -/
def readHex (input : Bytes) : Except ReadError (Parsed Nat input.length) :=
  match input with
  | a :: b :: c :: d :: rest =>
    match Text.hexValue? a, Text.hexValue? b, Text.hexValue? c, Text.hexValue? d with
    | some a, some b, some c, some d =>
      .ok ⟨((a * 16 + b) * 16 + c) * 16 + d, rest, by simp only [List.length_cons]; omega⟩
    | _, _, _, _ => .error .malformed
  | _ => .error .unexpectedEnd

/-- Reads the second half of a surrogate pair, whose first half was `high`. -/
def readTrailing (high : Nat) (input : Bytes) : Except ReadError (Parsed Char input.length) :=
  match input with
  | [] => .error .unexpectedEnd
  | first :: input =>
    if first ≠ '\\'.toUInt8 then .error .malformed
    else
      match input with
      | [] => .error .unexpectedEnd
      | second :: input =>
        if second ≠ 'u'.toUInt8 then .error .malformed
        else
          match readHex input with
          | .error e => .error e
          | .ok low =>
            if low.value < 0xdc00 ∨ 0xdfff < low.value then .error .malformed
            else
              .ok ⟨Char.ofNat ((high - 0xd800) * 0x400 + (low.value - 0xdc00) + 0x10000),
                low.rest, by have := low.short; simp only [List.length_cons]; omega⟩

/-- Reads the code point of a `\u` escape, which may be a surrogate pair. -/
def readCodePoint (input : Bytes) : Except ReadError (Parsed Char input.length) :=
  match readHex input with
  | .error e => .error e
  | .ok code =>
    if code.value < 0xd800 ∨ 0xdfff < code.value then
      .ok ⟨Char.ofNat code.value, code.rest, code.short⟩
    else if 0xdc00 ≤ code.value then .error .malformed
    else
      match readTrailing code.value code.rest with
      | .error e => .error e
      | .ok char => .ok ⟨char.value, char.rest, Nat.lt_trans char.short code.short⟩

/-- The character of a one-letter escape. -/
def escaped? (byte : UInt8) : Option Char :=
  [('"', '"'), ('\\', '\\'), ('/', '/'), ('b', '\x08'), ('f', '\x0c'), ('n', '\n'),
    ('r', '\r'), ('t', '\t')].findSome? fun entry =>
      if entry.1.toUInt8 = byte then some entry.2 else none

/-- Reads the rest of an escape after its backslash. -/
def readEscape (input : Bytes) : Except ReadError (Parsed Char input.length) :=
  match input with
  | [] => .error .unexpectedEnd
  | byte :: rest =>
    if byte = 'u'.toUInt8 then
      match readCodePoint rest with
      | .error e => .error e
      | .ok char => .ok ⟨char.value, char.rest, Nat.lt_succ_of_lt char.short⟩
    else
      match escaped? byte with
      | some char => .ok ⟨char, rest, Nat.lt_succ_self _⟩
      | none => .error .malformed

/-- Reads a string after its opening quote. The bytes read so far are `done`, last one first;
their encoding is checked at the closing quote. -/
def readString (bound : Nat) (done : Bytes) (input : Bytes) (short : input.length ≤ bound) :
    Except ReadError (Parsed String bound) :=
  match input, short with
  | [], _ => .error .unexpectedEnd
  | byte :: rest, short =>
    if byte = '"'.toUInt8 then
      match String.fromUTF8? ⟨done.reverse.toArray⟩ with
      | some text => .ok ⟨text, rest, short⟩
      | none => .error .malformed
    else if byte = '\\'.toUInt8 then
      match readEscape rest with
      | .error e => .error e
      | .ok char =>
        readString bound ((String.utf8EncodeChar char.value).reverse ++ done) char.rest
          (by have := char.short; simp only [List.length_cons] at short; omega)
    else if byte < ' '.toUInt8 then .error .malformed
    else readString bound (byte :: done) rest (by simp only [List.length_cons] at short; omega)
termination_by input.length
decreasing_by
  · have := char.short; simp only [List.length_cons]; omega
  · simp

/-- The unread bytes after a fixed word. -/
def afterWord : List Char → Bytes → Except ReadError Bytes
  | [], input => .ok input
  | _ :: _, [] => .error .unexpectedEnd
  | c :: word, byte :: rest =>
    if byte = c.toUInt8 then afterWord word rest else .error .malformed

theorem length_le_of_afterWord {word : List Char} {input rest : Bytes}
    (h : afterWord word input = .ok rest) : rest.length ≤ input.length := by
  induction word generalizing input with
  | nil => simp_all [afterWord]
  | cons c word ih =>
    cases input with
    | nil => simp [afterWord] at h
    | cons byte input =>
      rw [afterWord] at h
      split at h
      · exact Nat.le_succ_of_le (ih h)
      · simp at h

/-- Reads a fixed word that stands for a value. -/
def readWord (bound : Nat) (word : List Char) (value : Json) (input : Bytes)
    (short : input.length < bound) : Except ReadError (Parsed Json bound) :=
  match h : afterWord word input with
  | .error e => .error e
  | .ok rest => .ok ⟨value, rest, Nat.lt_of_le_of_lt (length_le_of_afterWord h) short⟩

/-- A read number as a value. -/
def numberValue {bound : Nat} (read : Except ReadError (Parsed Number bound)) :
    Except ReadError (Parsed Json bound) :=
  read.map fun parsed => ⟨.number parsed.value, parsed.rest, parsed.short⟩

mutual

/-- Reads a value that holds at most `depth` nested containers. -/
def readValue (depth : Nat) (input : Bytes) : Except ReadError (Parsed Json input.length) :=
  match h : skipSpace input with
  | [] => .error .unexpectedEnd
  | byte :: rest =>
    have short := length_lt_of_skipSpace h
    if byte = 'n'.toUInt8 then readWord input.length ['u', 'l', 'l'] .null rest short
    else if byte = 't'.toUInt8 then
      readWord input.length ['r', 'u', 'e'] (.bool true) rest short
    else if byte = 'f'.toUInt8 then
      readWord input.length ['a', 'l', 's', 'e'] (.bool false) rest short
    else if byte = '"'.toUInt8 then
      match readString rest.length [] rest (Nat.le_refl _) with
      | .error e => .error e
      | .ok text => .ok ⟨.string text.value, text.rest, Nat.lt_trans text.short short⟩
    else if byte = '-'.toUInt8 then
      numberValue (readDigits input.length true rest (Nat.le_of_lt short))
    else if isDigit byte then
      numberValue (readDigits input.length false (byte :: rest)
        (by have := length_skipSpace_le input; rw [h] at this; exact this))
    else if byte = '['.toUInt8 then
      match depth with
      | 0 => .error .malformed
      | depth + 1 => readArray depth input.length rest short
    else if byte = '\x7b'.toUInt8 then
      match depth with
      | 0 => .error .malformed
      | depth + 1 => readObject depth input.length rest short
    else .error .malformed
termination_by (input.length, 0)

/-- Reads an array after its opening bracket. -/
def readArray (depth bound : Nat) (input : Bytes) (short : input.length < bound) :
    Except ReadError (Parsed Json bound) :=
  match h : skipSpace input with
  | [] => .error .unexpectedEnd
  | byte :: rest =>
    if byte = ']'.toUInt8 then
      .ok ⟨.array [], rest, Nat.lt_trans (length_lt_of_skipSpace h) short⟩
    else
      match readValue depth input with
      | .error e => .error e
      | .ok item =>
        have less := item.short
        readItems depth bound [item.value] item.rest (Nat.lt_trans less short)
termination_by (input.length, 1)

/-- Reads the remaining items of an array, of which `items` were read, last one first. -/
def readItems (depth bound : Nat) (items : List Json) (input : Bytes)
    (short : input.length < bound) : Except ReadError (Parsed Json bound) :=
  match h : skipSpace input with
  | [] => .error .unexpectedEnd
  | byte :: rest =>
    have fewer := length_lt_of_skipSpace h
    if byte = ']'.toUInt8 then .ok ⟨.array items.reverse, rest, Nat.lt_trans fewer short⟩
    else if byte = ','.toUInt8 then
      match readValue depth rest with
      | .error e => .error e
      | .ok item =>
        have less := Nat.lt_trans item.short fewer
        readItems depth bound (item.value :: items) item.rest (Nat.lt_trans less short)
    else .error .malformed
termination_by (input.length, 0)

/-- Reads an object after its opening brace. -/
def readObject (depth bound : Nat) (input : Bytes) (short : input.length < bound) :
    Except ReadError (Parsed Json bound) :=
  match h : skipSpace input with
  | [] => .error .unexpectedEnd
  | byte :: rest =>
    if byte = '\x7d'.toUInt8 then
      .ok ⟨.object [], rest, Nat.lt_trans (length_lt_of_skipSpace h) short⟩
    else readMember depth bound [] input short
termination_by (input.length, 1)

/-- Reads a member of an object and the members after it. -/
def readMember (depth bound : Nat) (members : List (String × Json)) (input : Bytes)
    (short : input.length < bound) : Except ReadError (Parsed Json bound) :=
  match h : skipSpace input with
  | [] => .error .unexpectedEnd
  | byte :: rest =>
    have fewer := length_lt_of_skipSpace h
    if byte ≠ '"'.toUInt8 then .error .malformed
    else
      match readString rest.length [] rest (Nat.le_refl _) with
      | .error e => .error e
      | .ok key =>
        match hc : skipSpace key.rest with
        | [] => .error .unexpectedEnd
        | colon :: afterColon =>
          have lessColon := length_lt_of_skipSpace hc
          if colon ≠ ':'.toUInt8 then .error .malformed
          else
            match readValue depth afterColon with
            | .error e => .error e
            | .ok item =>
              have less := Nat.lt_trans item.short
                (Nat.lt_trans lessColon (Nat.lt_trans key.short fewer))
              readMembers depth bound (setMember key.value item.value members) item.rest
                (Nat.lt_trans less short)
termination_by (input.length, 0)
decreasing_by
  · have := key.short; apply Prod.Lex.left; omega
  · apply Prod.Lex.left; exact less

/-- Reads what follows a member: the end of the object, or a comma and the next member. -/
def readMembers (depth bound : Nat) (members : List (String × Json)) (input : Bytes)
    (short : input.length < bound) : Except ReadError (Parsed Json bound) :=
  match h : skipSpace input with
  | [] => .error .unexpectedEnd
  | byte :: rest =>
    have fewer := length_lt_of_skipSpace h
    if byte = '\x7d'.toUInt8 then .ok ⟨.object members, rest, Nat.lt_trans fewer short⟩
    else if byte = ','.toUInt8 then
      readMember depth bound members rest (Nat.lt_trans fewer short)
    else .error .malformed
termination_by (input.length, 0)

end

/-- The value of a JSON text whose containers nest at most `depth` deep. -/
def read (depth : Nat) (input : Bytes) : Except ReadError Json :=
  match readValue depth input with
  | .error e => .error e
  | .ok parsed => if (skipSpace parsed.rest).isEmpty then .ok parsed.value else .error .malformed

end ModuleInspector.Json
