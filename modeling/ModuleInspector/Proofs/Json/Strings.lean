import ModuleInspector.Json.Printer
import ModuleInspector.Json.Reader
import ModuleInspector.Proofs.Text.Bytes

/-!
# Strings read back

Reading a quoted text yields the text. One character is followed through the reader at a time: it
is written as itself or as an escape, and either way its bytes are gathered.
-/

namespace ModuleInspector.Json

/-- Whether a byte stands for itself inside a string. -/
def IsPlain (byte : UInt8) : Prop :=
  byte ≠ '"'.toUInt8 ∧ byte ≠ '\\'.toUInt8 ∧ ¬byte < ' '.toUInt8

/-- A byte that stands for itself is gathered. -/
theorem readString_cons {bound : Nat} {done rest : Bytes} {byte : UInt8} (hbyte : IsPlain byte)
    (short : (byte :: rest).length ≤ bound) :
    readString bound done (byte :: rest) short =
      readString bound (byte :: done) rest (Nat.le_of_succ_le short) := by
  rw [readString, if_neg hbyte.1, if_neg hbyte.2.1, if_neg hbyte.2.2]

/-- Bytes that stand for themselves are gathered. -/
theorem readString_append {bound : Nat} {bytes done rest : Bytes}
    (hbytes : ∀ byte ∈ bytes, IsPlain byte) (short : (bytes ++ rest).length ≤ bound)
    (less : rest.length ≤ bound) :
    readString bound done (bytes ++ rest) short =
      readString bound (bytes.reverse ++ done) rest less := by
  induction bytes generalizing done with
  | nil => rfl
  | cons byte bytes ih =>
    obtain ⟨hbyte, hothers⟩ := List.forall_mem_cons.mp hbytes
    rw [List.cons_append] at short
    rw [List.reverse_cons, List.append_assoc]
    exact (readString_cons hbyte short).trans (ih hothers (Nat.le_of_succ_le short))

/-- An escape that is read adds the bytes of its character. -/
theorem readString_escape {bound : Nat} {done input rest : Bytes} {c : Char}
    (hescape : ∃ short, readEscape input = .ok ⟨c, rest, short⟩)
    (short : ('\\'.toUInt8 :: input).length ≤ bound) (less : rest.length ≤ bound) :
    readString bound done ('\\'.toUInt8 :: input) short =
      readString bound ((String.utf8EncodeChar c).reverse ++ done) rest less := by
  obtain ⟨_, hread⟩ := hescape
  rw [readString, if_neg (by decide), if_pos rfl]
  split
  · next e he => rw [hread] at he; cases he
  · next parsed hparsed =>
    rw [hread] at hparsed
    obtain rfl := Except.ok.inj hparsed
    rfl

/-- A character with a one-letter escape is read as the character. -/
theorem readString_letter {bound : Nat} {done rest : Bytes} {c letter : Char}
    (hescape : escape c = ['\\', letter])
    (hletter : String.utf8EncodeChar letter = [letter.toUInt8] ∧
      letter.toUInt8 ≠ 'u'.toUInt8 ∧ escaped? letter.toUInt8 = some c)
    (short : ((escape c).flatMap String.utf8EncodeChar ++ rest).length ≤ bound)
    (less : rest.length ≤ bound) :
    readString bound done ((escape c).flatMap String.utf8EncodeChar ++ rest) short =
      readString bound ((String.utf8EncodeChar c).reverse ++ done) rest less := by
  obtain ⟨hencoded, hcode, hescaped⟩ := hletter
  have hbytes : (escape c).flatMap String.utf8EncodeChar ++ rest =
      '\\'.toUInt8 :: letter.toUInt8 :: rest := by
    have hbackslash : String.utf8EncodeChar '\\' = ['\\'.toUInt8] := by decide
    rw [hescape, List.flatMap_cons, List.flatMap_singleton, hencoded, hbackslash]
    rfl
  have hread : ∃ short, readEscape (letter.toUInt8 :: rest) = .ok ⟨c, rest, short⟩ := by
    refine ⟨Nat.lt_succ_self _, ?_⟩
    rw [readEscape, if_neg hcode, hescaped]
  revert short
  rw [hbytes]
  exact fun short => readString_escape hread short less

/-- An escape by a code point below 256 is read. -/
theorem readEscape_hex {code : Nat} {rest : Bytes} (hcode : code < 256) :
    ∃ short, readEscape ('u'.toUInt8 :: '0'.toUInt8 :: '0'.toUInt8 ::
      UInt8.ofNat (Text.hexDigit (code / 16)).toNat ::
      UInt8.ofNat (Text.hexDigit (code % 16)).toNat :: rest) =
        .ok ⟨Char.ofNat code, rest, short⟩ := by
  have hzero : Text.hexValue? '0'.toUInt8 = some 0 := by decide
  have hhigh := Text.hexValue?_hexDigit (show code / 16 < 16 by omega)
  have hlow := Text.hexValue?_hexDigit (show code % 16 < 16 by omega)
  have hvalue : ((0 * 16 + 0) * 16 + code / 16) * 16 + code % 16 = code := by omega
  have hplane : code < 0xd800 ∨ 0xdfff < code := by omega
  refine ⟨by simp only [List.length_cons]; omega, ?_⟩
  rw [readEscape, if_pos rfl, readCodePoint, readHex]
  simp only [hzero, hhigh, hlow, hvalue, if_pos hplane]

/-- A character that is not escaped has bytes that stand for themselves. -/
theorem isPlain_of_mem_utf8EncodeChar {c : Char} (hquote : c ≠ '"') (hbackslash : c ≠ '\\')
    (hcontrol : ¬c < ' ') : ∀ byte ∈ String.utf8EncodeChar c, IsPlain byte := by
  have hplain : ∀ byte : UInt8, byte.toNat ≠ 34 → byte.toNat ≠ 92 → 32 ≤ byte.toNat →
      IsPlain byte := by
    intro byte hquote hbackslash hcontrol
    refine ⟨fun heq => hquote (by rw [heq]; rfl), fun heq => hbackslash (by rw [heq]; rfl), ?_⟩
    rw [UInt8.lt_iff_toNat_lt]
    exact Nat.not_lt.mpr hcontrol
  intro byte hbyte
  by_cases hc : c.toNat < 128
  · rw [Text.utf8EncodeChar_of_lt hc] at hbyte
    obtain rfl := List.mem_singleton.mp hbyte
    have hvalue : (UInt8.ofNat c.toNat).toNat = c.toNat :=
      UInt8.toNat_ofNat_of_lt' (Nat.lt_trans hc (by decide))
    rw [← hvalue] at hc
    have hcode : ∀ {other : Char}, c ≠ other → c.toNat ≠ other.toNat :=
      fun hne heq => hne (Char.toNat_inj.mp heq)
    refine hplain _ ?_ ?_ ?_
    · rw [hvalue]
      exact hcode hquote
    · rw [hvalue]
      exact hcode hbackslash
    · rw [hvalue]
      exact Nat.not_lt.mp fun hlt => hcontrol hlt
  · have hlarge := Text.le_toNat_of_mem_utf8EncodeChar (Nat.le_of_not_lt hc) byte hbyte
    exact hplain byte (by omega) (by omega) (by omega)

/-- A character of a quoted text is read as it is, or as its escape. -/
theorem readString_character {bound : Nat} {done rest : Bytes} {c : Char}
    (short : ((escape c).flatMap String.utf8EncodeChar ++ rest).length ≤ bound)
    (less : rest.length ≤ bound) :
    readString bound done ((escape c).flatMap String.utf8EncodeChar ++ rest) short =
      readString bound ((String.utf8EncodeChar c).reverse ++ done) rest less := by
  by_cases hquote : c = '"'
  · subst hquote
    exact readString_letter (show escape '"' = ['\\', '"'] by decide) (by decide) short less
  by_cases hbackslash : c = '\\'
  · subst hbackslash
    exact readString_letter (show escape '\\' = ['\\', '\\'] by decide) (by decide) short less
  by_cases hbackspace : c = '\x08'
  · subst hbackspace
    exact readString_letter (show escape '\x08' = ['\\', 'b'] by decide) (by decide) short less
  by_cases hfeed : c = '\x0c'
  · subst hfeed
    exact readString_letter (show escape '\x0c' = ['\\', 'f'] by decide) (by decide) short less
  by_cases hline : c = '\n'
  · subst hline
    exact readString_letter (show escape '\n' = ['\\', 'n'] by decide) (by decide) short less
  by_cases hreturn : c = '\r'
  · subst hreturn
    exact readString_letter (show escape '\r' = ['\\', 'r'] by decide) (by decide) short less
  by_cases htab : c = '\t'
  · subst htab
    exact readString_letter (show escape '\t' = ['\\', 't'] by decide) (by decide) short less
  revert short
  rw [escape, if_neg hquote, if_neg hbackslash, if_neg hbackspace, if_neg hfeed, if_neg hline,
    if_neg hreturn, if_neg htab]
  by_cases hcontrol : c < ' '
  · have hcode : c.toNat < 32 := hcontrol
    have hhigh := Text.utf8EncodeChar_hexDigit (show c.toNat / 16 < 16 by omega)
    have hlow := Text.utf8EncodeChar_hexDigit (show c.toNat % 16 < 16 by omega)
    have hescape := @readEscape_hex c.toNat rest (by omega)
    rw [Char.ofNat_toNat] at hescape
    rw [if_pos hcontrol]
    simp only [List.flatMap_cons, List.flatMap_nil, hhigh, hlow, List.append_nil]
    exact fun short => readString_escape hescape short less
  · have hplain := isPlain_of_mem_utf8EncodeChar hquote hbackslash hcontrol
    rw [if_neg hcontrol, List.flatMap_singleton]
    exact fun short => readString_append hplain short less

/-- The characters of a quoted text are read one after the other. -/
theorem readString_characters {bound : Nat} {characters : List Char} {done rest : Bytes}
    (short : ((characters.flatMap escape).flatMap String.utf8EncodeChar ++ rest).length ≤ bound)
    (less : rest.length ≤ bound) :
    readString bound done ((characters.flatMap escape).flatMap String.utf8EncodeChar ++ rest)
        short =
      readString bound ((characters.flatMap String.utf8EncodeChar).reverse ++ done) rest less := by
  induction characters generalizing done with
  | nil => rfl
  | cons c characters ih =>
    revert short
    rw [List.flatMap_cons, List.flatMap_append, List.append_assoc, List.flatMap_cons,
      List.reverse_append, List.append_assoc]
    intro short
    have hshort : ((characters.flatMap escape).flatMap String.utf8EncodeChar ++ rest).length ≤
        bound := by
      rw [List.length_append] at short
      omega
    rw [readString_character short hshort, ih]

/-- The bytes of a quoted text after its opening quote. -/
def quotedTail (text : String) : Bytes :=
  (text.toList.flatMap escape).flatMap String.utf8EncodeChar ++ ['"'.toUInt8]

/-- A quoted text starts with a quote. -/
theorem bytes_quote (text : String) : Text.bytes (quote text) = '"'.toUInt8 :: quotedTail text := by
  rw [quote, Text.bytes_ofList, List.flatMap_append]
  rfl

/-- A quoted text is read as the text. -/
theorem readString_quotedTail {bound : Nat} (text : String) (rest : Bytes)
    (short : (quotedTail text ++ rest).length ≤ bound) :
    ∃ less, readString bound [] (quotedTail text ++ rest) short = .ok ⟨text, rest, less⟩ := by
  have hlength : rest.length < bound := by
    simp only [quotedTail, List.length_append, List.length_singleton] at short
    omega
  refine ⟨hlength, ?_⟩
  revert short
  rw [quotedTail, List.append_assoc]
  intro short
  rw [readString_characters short hlength, List.append_nil]
  change readString bound _ ('"'.toUInt8 :: rest) hlength = _
  rw [readString, if_pos rfl, List.reverse_reverse]
  have hdecoded := Text.fromUTF8?_bytes text
  rw [Text.bytes] at hdecoded
  rw [hdecoded]

end ModuleInspector.Json
