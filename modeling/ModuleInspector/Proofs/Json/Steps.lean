import ModuleInspector.Proofs.Json.Strings

/-!
# Steps of the reader

What the reader does with the next token, where no white space stands before it: one equation for
each token that can follow in a value, in an array and in an object.
-/

namespace ModuleInspector.Json

/-- Nothing is skipped before a byte that is no white space. -/
theorem skipSpace_cons {byte : UInt8} {rest : Bytes} (hbyte : isSpace byte = false) :
    skipSpace (byte :: rest) = byte :: rest := by
  simp [skipSpace, hbyte]

/-- The first byte of a value tells what it is. -/
theorem readValue_of_skipSpace {depth : Nat} {input rest : Bytes} {byte : UInt8}
    (hskip : skipSpace input = byte :: rest) :
    readValue depth input =
      if byte = 'n'.toUInt8 then
        readWord input.length ['u', 'l', 'l'] .null rest (length_lt_of_skipSpace hskip)
      else if byte = 't'.toUInt8 then
        readWord input.length ['r', 'u', 'e'] (.bool true) rest (length_lt_of_skipSpace hskip)
      else if byte = 'f'.toUInt8 then
        readWord input.length ['a', 'l', 's', 'e'] (.bool false) rest
          (length_lt_of_skipSpace hskip)
      else if byte = '"'.toUInt8 then
        match readString rest.length [] rest (Nat.le_refl _) with
        | .error e => .error e
        | .ok text =>
          .ok ⟨.string text.value, text.rest,
            Nat.lt_trans text.short (length_lt_of_skipSpace hskip)⟩
      else if byte = '-'.toUInt8 then
        numberValue
          (readDigits input.length true rest (Nat.le_of_lt (length_lt_of_skipSpace hskip)))
      else if isDigit byte then
        numberValue (readDigits input.length false (byte :: rest) (length_lt_of_skipSpace hskip))
      else if byte = '['.toUInt8 then
        match depth with
        | 0 => .error .malformed
        | depth + 1 => readArray depth input.length rest (length_lt_of_skipSpace hskip)
      else if byte = '\x7b'.toUInt8 then
        match depth with
        | 0 => .error .malformed
        | depth + 1 => readObject depth input.length rest (length_lt_of_skipSpace hskip)
      else .error .malformed := by
  rw [readValue]
  split
  · next hnil => cases hnil.symm.trans hskip
  · next first others hcons =>
    obtain ⟨rfl, rfl⟩ := List.cons.inj (hcons.symm.trans hskip)
    rfl

/-- A digit is no other token. -/
theorem ne_of_isDigit {byte other : UInt8} (hbyte : isDigit byte = true)
    (hother : isDigit other = false) : byte ≠ other := by
  rintro rfl
  exact Bool.false_ne_true (hother.symm.trans hbyte)

/-- A digit is no white space. -/
theorem isSpace_of_isDigit {byte : UInt8} (hbyte : isDigit byte = true) : isSpace byte = false := by
  refine Bool.eq_false_iff.mpr fun hspace => ?_
  simp only [isSpace, Bool.or_eq_true, decide_eq_true_eq] at hspace
  rcases hspace with ((hspace | hspace) | hspace) | hspace
  all_goals exact ne_of_isDigit hbyte (by decide) hspace

section Values

variable {depth : Nat} {input rest : Bytes}

/-- A quote starts a string. -/
theorem readValue_quote {text : String} {after : Bytes} {less : after.length < rest.length}
    (htext : readString rest.length [] rest (Nat.le_refl _) = .ok ⟨text, after, less⟩) :
    readValue depth ('"'.toUInt8 :: rest) = .ok ⟨.string text, after, Nat.lt_succ_of_lt less⟩ := by
  rw [readValue_of_skipSpace (skipSpace_cons (by decide)), if_neg (by decide), if_neg (by decide),
    if_neg (by decide), if_pos rfl, htext]

/-- A minus starts a number. -/
theorem readValue_minus (hskip : skipSpace input = '-'.toUInt8 :: rest) :
    readValue depth input = numberValue
      (readDigits input.length true rest (Nat.le_of_lt (length_lt_of_skipSpace hskip))) := by
  rw [readValue_of_skipSpace hskip, if_neg (by decide), if_neg (by decide), if_neg (by decide),
    if_neg (by decide), if_pos rfl]

/-- A digit starts a number, and belongs to it. -/
theorem readValue_digit {byte : UInt8} (hskip : skipSpace input = byte :: rest)
    (hbyte : isDigit byte = true) :
    readValue depth input = numberValue
      (readDigits input.length false (byte :: rest) (length_lt_of_skipSpace hskip)) := by
  rw [readValue_of_skipSpace hskip, if_neg (ne_of_isDigit hbyte (by decide)),
    if_neg (ne_of_isDigit hbyte (by decide)), if_neg (ne_of_isDigit hbyte (by decide)),
    if_neg (ne_of_isDigit hbyte (by decide)), if_neg (ne_of_isDigit hbyte (by decide)),
    if_pos hbyte]

/-- A bracket behind white space starts an array, if a container is allowed. -/
theorem readValue_bracket_of_skipSpace (hskip : skipSpace input = '['.toUInt8 :: rest) :
    readValue (depth + 1) input =
      readArray depth input.length rest (length_lt_of_skipSpace hskip) := by
  rw [readValue_of_skipSpace hskip, if_neg (by decide), if_neg (by decide), if_neg (by decide),
    if_neg (by decide), if_neg (by decide), if_neg (by decide), if_pos rfl]

/-- A bracket starts an array, if a container is allowed. -/
theorem readValue_bracket :
    readValue (depth + 1) ('['.toUInt8 :: rest) =
      readArray depth (rest.length + 1) rest (Nat.lt_succ_self _) :=
  readValue_bracket_of_skipSpace (skipSpace_cons (by decide))

/-- A brace behind white space starts an object, if a container is allowed. -/
theorem readValue_brace_of_skipSpace (hskip : skipSpace input = '\x7b'.toUInt8 :: rest) :
    readValue (depth + 1) input =
      readObject depth input.length rest (length_lt_of_skipSpace hskip) := by
  rw [readValue_of_skipSpace hskip, if_neg (by decide), if_neg (by decide), if_neg (by decide),
    if_neg (by decide), if_neg (by decide), if_neg (by decide), if_neg (by decide), if_pos rfl]

/-- A brace starts an object, if a container is allowed. -/
theorem readValue_brace :
    readValue (depth + 1) ('\x7b'.toUInt8 :: rest) =
      readObject depth (rest.length + 1) rest (Nat.lt_succ_self _) :=
  readValue_brace_of_skipSpace (skipSpace_cons (by decide))

end Values

section Arrays

variable {depth bound : Nat} {input rest : Bytes} {items : List Json}

/-- An array without items is closed by the first byte; any other one starts with an item. -/
theorem readArray_of_skipSpace {byte : UInt8} (hskip : skipSpace input = byte :: rest)
    (short : input.length < bound) :
    readArray depth bound input short =
      if byte = ']'.toUInt8 then
        .ok ⟨.array [], rest, Nat.lt_trans (length_lt_of_skipSpace hskip) short⟩
      else
        match readValue depth input with
        | .error e => .error e
        | .ok item =>
          readItems depth bound [item.value] item.rest (Nat.lt_trans item.short short) := by
  rw [readArray]
  split
  · next hnil => cases hnil.symm.trans hskip
  · next first others hcons =>
    obtain ⟨rfl, rfl⟩ := List.cons.inj (hcons.symm.trans hskip)
    rfl

/-- A bracket closes an array without items. -/
theorem readArray_close (short : (']'.toUInt8 :: rest).length < bound) :
    readArray depth bound (']'.toUInt8 :: rest) short =
      .ok ⟨.array [], rest, Nat.lt_of_succ_lt short⟩ := by
  rw [readArray_of_skipSpace (skipSpace_cons (by decide)), if_pos rfl]

/-- Another byte starts the first item. -/
theorem readArray_item {item : Json} {less : rest.length < input.length}
    (hinput : ∃ byte others, skipSpace input = byte :: others ∧ byte ≠ ']'.toUInt8)
    (hitem : readValue depth input = .ok ⟨item, rest, less⟩) (short : input.length < bound) :
    readArray depth bound input short =
      readItems depth bound [item] rest (Nat.lt_trans less short) := by
  obtain ⟨byte, others, hskip, hbyte⟩ := hinput
  rw [readArray_of_skipSpace hskip, if_neg hbyte, hitem]

/-- An item is followed by the end of the array, or by a comma and the next item. -/
theorem readItems_of_skipSpace {byte : UInt8} (hskip : skipSpace input = byte :: rest)
    (short : input.length < bound) :
    readItems depth bound items input short =
      if byte = ']'.toUInt8 then
        .ok ⟨.array items.reverse, rest, Nat.lt_trans (length_lt_of_skipSpace hskip) short⟩
      else if byte = ','.toUInt8 then
        match readValue depth rest with
        | .error e => .error e
        | .ok item =>
          readItems depth bound (item.value :: items) item.rest
            (Nat.lt_trans (Nat.lt_trans item.short (length_lt_of_skipSpace hskip)) short)
      else .error .malformed := by
  rw [readItems]
  split
  · next hnil => cases hnil.symm.trans hskip
  · next first others hcons =>
    obtain ⟨rfl, rfl⟩ := List.cons.inj (hcons.symm.trans hskip)
    rfl

/-- A bracket closes an array after its items. -/
theorem readItems_close (short : (']'.toUInt8 :: rest).length < bound) :
    readItems depth bound items (']'.toUInt8 :: rest) short =
      .ok ⟨.array items.reverse, rest, Nat.lt_of_succ_lt short⟩ := by
  rw [readItems_of_skipSpace (skipSpace_cons (by decide)), if_pos rfl]

/-- A comma is followed by the next item. -/
theorem readItems_comma {item : Json} {less : rest.length < input.length}
    (hitem : readValue depth input = .ok ⟨item, rest, less⟩)
    (short : (','.toUInt8 :: input).length < bound) :
    readItems depth bound items (','.toUInt8 :: input) short =
      readItems depth bound (item :: items) rest
        (Nat.lt_trans less (Nat.lt_of_succ_lt short)) := by
  rw [readItems_of_skipSpace (skipSpace_cons (by decide)), if_neg (by decide), if_pos rfl, hitem]

end Arrays

section Objects

variable {depth bound : Nat} {input rest : Bytes} {members : List (String × Json)}

/-- An object without members is closed by the first byte; any other one starts with a member. -/
theorem readObject_of_skipSpace {byte : UInt8} (hskip : skipSpace input = byte :: rest)
    (short : input.length < bound) :
    readObject depth bound input short =
      if byte = '\x7d'.toUInt8 then
        .ok ⟨.object [], rest, Nat.lt_trans (length_lt_of_skipSpace hskip) short⟩
      else readMember depth bound [] input short := by
  rw [readObject]
  split
  · next hnil => cases hnil.symm.trans hskip
  · next first others hcons =>
    obtain ⟨rfl, rfl⟩ := List.cons.inj (hcons.symm.trans hskip)
    rfl

/-- A brace closes an object without members. -/
theorem readObject_close (short : ('\x7d'.toUInt8 :: rest).length < bound) :
    readObject depth bound ('\x7d'.toUInt8 :: rest) short =
      .ok ⟨.object [], rest, Nat.lt_of_succ_lt short⟩ := by
  rw [readObject_of_skipSpace (skipSpace_cons (by decide)), if_pos rfl]

/-- A quote starts the first member. -/
theorem readObject_quote (short : ('"'.toUInt8 :: rest).length < bound) :
    readObject depth bound ('"'.toUInt8 :: rest) short =
      readMember depth bound [] ('"'.toUInt8 :: rest) short := by
  rw [readObject_of_skipSpace (skipSpace_cons (by decide)), if_neg (by decide)]

/-- A member is followed by the end of the object, or by a comma and the next member. -/
theorem readMembers_of_skipSpace {byte : UInt8} (hskip : skipSpace input = byte :: rest)
    (short : input.length < bound) :
    readMembers depth bound members input short =
      if byte = '\x7d'.toUInt8 then
        .ok ⟨.object members, rest, Nat.lt_trans (length_lt_of_skipSpace hskip) short⟩
      else if byte = ','.toUInt8 then
        readMember depth bound members rest (Nat.lt_trans (length_lt_of_skipSpace hskip) short)
      else .error .malformed := by
  rw [readMembers]
  split
  · next hnil => cases hnil.symm.trans hskip
  · next first others hcons =>
    obtain ⟨rfl, rfl⟩ := List.cons.inj (hcons.symm.trans hskip)
    rfl

/-- A brace closes an object after its members. -/
theorem readMembers_close (short : ('\x7d'.toUInt8 :: rest).length < bound) :
    readMembers depth bound members ('\x7d'.toUInt8 :: rest) short =
      .ok ⟨.object members, rest, Nat.lt_of_succ_lt short⟩ := by
  rw [readMembers_of_skipSpace (skipSpace_cons (by decide)), if_pos rfl]

/-- A comma is followed by the next member. -/
theorem readMembers_comma (short : (','.toUInt8 :: rest).length < bound) :
    readMembers depth bound members (','.toUInt8 :: rest) short =
      readMember depth bound members rest (Nat.lt_of_succ_lt short) := by
  rw [readMembers_of_skipSpace (skipSpace_cons (by decide)), if_neg (by decide), if_pos rfl]

/-- A quoted key and a colon are followed by the value of the member. -/
theorem readMember_of_skipSpace {key : String} {after : Bytes}
    (hskip : skipSpace input = '"'.toUInt8 :: (quotedTail key ++ ':'.toUInt8 :: after))
    (short : input.length < bound) (fewer : after.length < bound) :
    readMember depth bound members input short =
      match readValue depth after with
      | .error e => .error e
      | .ok item =>
        readMembers depth bound (setMember key item.value members) item.rest
          (Nat.lt_trans item.short fewer) := by
  obtain ⟨_, hkey⟩ := readString_quotedTail key (':'.toUInt8 :: after) (Nat.le_refl _)
  rw [readMember]
  split
  · next hnil => cases hnil.symm.trans hskip
  next first others hcons =>
  obtain ⟨rfl, rfl⟩ := List.cons.inj (hcons.symm.trans hskip)
  dsimp only
  rw [if_neg (by decide), hkey]
  dsimp only
  split
  · next hnil => cases hnil
  next colon afterColon hcolon =>
  obtain ⟨rfl, rfl⟩ := List.cons.inj (hcolon.symm.trans (skipSpace_cons (by decide)))
  rw [if_neg (by decide)]
  rfl

/-- A quoted key starts a member without white space before it. -/
theorem readMember_of_key {key : String}
    (short : ('"'.toUInt8 :: (quotedTail key ++ ':'.toUInt8 :: input)).length < bound)
    (fewer : input.length < bound) :
    readMember depth bound members ('"'.toUInt8 :: (quotedTail key ++ ':'.toUInt8 :: input)) short =
      match readValue depth input with
      | .error e => .error e
      | .ok item =>
        readMembers depth bound (setMember key item.value members) item.rest
          (Nat.lt_trans item.short fewer) :=
  readMember_of_skipSpace (skipSpace_cons (by decide)) short fewer

end Objects

end ModuleInspector.Json
