import ModuleInspector.Text.Hex
import Mathlib.Tactic.SplitIfs

/-!
# Bytes of a text

The UTF-8 bytes of a text determine it. A character below 128 is a single byte of the same value,
and every other character consists of bytes from 128 on, so no ASCII character is ever found
inside another one. What ASCII characters alone may meet is therefore asked of the bytes of a text
as of its characters.
-/

namespace ModuleInspector.Text

/-- The bytes of two texts after each other. -/
@[simp] theorem bytes_append (front back : String) :
    bytes (front ++ back) = bytes front ++ bytes back := by
  unfold bytes
  rw [String.toList_append, List.flatMap_append]

/-- The bytes of a sequence of characters are those of the characters. -/
@[simp] theorem bytes_ofList (characters : List Char) :
    bytes (String.ofList characters) = characters.flatMap String.utf8EncodeChar := by
  unfold bytes
  rw [String.toList_ofList]

/-- The bytes of a text decode to it. -/
theorem fromUTF8?_bytes (text : String) :
    String.fromUTF8? ⟨(bytes text).toArray⟩ = some text := by
  have hbytes : (⟨(bytes text).toArray⟩ : ByteArray) = text.toByteArray := by
    rw [← String.utf8Encode_toList]
    exact ByteArray.ext List.data_toByteArray.symm
  rw [hbytes, String.fromUTF8?, dif_pos text.isValidUTF8]
  rfl

/-- A character below 128 is one byte. -/
theorem utf8EncodeChar_of_lt {c : Char} (hc : c.toNat < 128) :
    String.utf8EncodeChar c = [UInt8.ofNat c.toNat] := by
  have hvalue : c.val.toNat ≤ 0x7f := Nat.le_of_lt_succ hc
  unfold String.utf8EncodeChar
  rw [if_pos hvalue]
  rfl

/-- The bytes of a character from 128 on are themselves from 128 on. -/
theorem le_toNat_of_mem_utf8EncodeChar {c : Char} (hc : 128 ≤ c.toNat) :
    ∀ byte ∈ String.utf8EncodeChar c, 128 ≤ byte.toNat := by
  have hvalue : ¬c.val.toNat ≤ 0x7f := Nat.not_le.mpr hc
  unfold String.utf8EncodeChar
  rw [if_neg hvalue]
  -- Every byte is a remainder below the mark that is added to it.
  split_ifs
  all_goals
    simp only [List.forall_mem_cons, List.not_mem_nil, false_imp_iff, implies_true, and_true,
      UInt8.toNat_ofNat']
    omega

/-- ASCII characters are one byte each. -/
theorem flatMap_utf8EncodeChar_eq_map {characters : List Char}
    (hascii : ∀ c ∈ characters, c.toNat < 128) :
    characters.flatMap String.utf8EncodeChar = characters.map Char.toUInt8 := by
  induction characters with
  | nil => rfl
  | cons c characters ih =>
    obtain ⟨hc, hlater⟩ := List.forall_mem_cons.mp hascii
    rw [List.flatMap_cons, utf8EncodeChar_of_lt hc, ih hlater]
    rfl

/-- A text whose bytes are below 128 has ASCII characters only. -/
theorem ascii_of_bytes {text : String} (hbytes : ∀ byte ∈ bytes text, byte.toNat < 128) :
    ∀ c ∈ text.toList, c.toNat < 128 := by
  intro c hc
  rcases Nat.lt_or_ge c.toNat 128 with hlt | hge
  · exact hlt
  · obtain ⟨byte, hbyte⟩ := List.exists_mem_of_length_pos
      (String.length_utf8EncodeChar c ▸ c.utf8Size_pos)
    have hsmall := hbytes byte (List.mem_flatMap.mpr ⟨c, hc, hbyte⟩)
    exact absurd hsmall (Nat.not_lt.mpr (le_toNat_of_mem_utf8EncodeChar hge byte hbyte))

/-- A condition on the number of bytes of a text and on each of them at its position, which ASCII
characters alone meet, is the same condition on its characters. -/
theorem bytes_meet_iff {ofLength : Nat → Prop} {onByte : Nat → UInt8 → Prop}
    {onChar : Nat → Char → Prop} (hbyte : ∀ i byte, onByte i byte → byte.toNat < 128)
    (hchar : ∀ i c, onChar i c → c.toNat < 128)
    (hsame : ∀ i c, c.toNat < 128 → (onByte i c.toUInt8 ↔ onChar i c)) (text : String) :
    (ofLength (bytes text).length ∧ ∀ i byte, (bytes text)[i]? = some byte → onByte i byte) ↔
      ofLength text.length ∧ ∀ i c, text.toList[i]? = some c → onChar i c := by
  have hmapped (hascii : ∀ c ∈ text.toList, c.toNat < 128) :
      bytes text = text.toList.map Char.toUInt8 := flatMap_utf8EncodeChar_eq_map hascii
  constructor
  · rintro ⟨hlength, hall⟩
    have hascii : ∀ c ∈ text.toList, c.toNat < 128 := ascii_of_bytes fun byte hmem => by
      obtain ⟨i, hi⟩ := List.mem_iff_getElem?.mp hmem
      exact hbyte i byte (hall i byte hi)
    rw [hmapped hascii] at hlength hall
    rw [List.length_map, String.length_toList] at hlength
    refine ⟨hlength, fun i c hc => (hsame i c (hascii c (List.mem_of_getElem? hc))).mp ?_⟩
    exact hall i _ (by rw [List.getElem?_map, hc, Option.map_some])
  · rintro ⟨hlength, hall⟩
    have hascii : ∀ c ∈ text.toList, c.toNat < 128 := fun c hmem => by
      obtain ⟨i, hi⟩ := List.mem_iff_getElem?.mp hmem
      exact hchar i c (hall i c hi)
    rw [hmapped hascii, List.length_map, String.length_toList]
    refine ⟨hlength, fun i byte hi => ?_⟩
    rw [List.getElem?_map, Option.map_eq_some_iff] at hi
    obtain ⟨c, hc, rfl⟩ := hi
    exact (hsame i c (hascii c (List.mem_of_getElem? hc))).mpr (hall i c hc)

/-- The hexadecimal digits are ASCII characters. -/
theorem toNat_hexDigit_lt {value : Nat} (hvalue : value < 16) : (hexDigit value).toNat < 128 := by
  have hall : ∀ digit : Fin 16, (hexDigit digit.val).toNat < 128 := by decide
  exact hall ⟨value, hvalue⟩

/-- A hexadecimal digit is one byte. -/
theorem utf8EncodeChar_hexDigit {value : Nat} (hvalue : value < 16) :
    String.utf8EncodeChar (hexDigit value) = [UInt8.ofNat (hexDigit value).toNat] :=
  utf8EncodeChar_of_lt (toNat_hexDigit_lt hvalue)

/-- The byte of a hexadecimal digit has its value. -/
theorem hexValue?_hexDigit {value : Nat} (hvalue : value < 16) :
    hexValue? (UInt8.ofNat (hexDigit value).toNat) = some value := by
  have hall : ∀ digit : Fin 16,
      hexValue? (UInt8.ofNat (hexDigit digit.val).toNat) = some digit.val := by decide
  exact hall ⟨value, hvalue⟩

end ModuleInspector.Text
