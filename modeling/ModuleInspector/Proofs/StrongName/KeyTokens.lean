import ModuleInspector.Catalog.Lookup
import ModuleInspector.Proofs.StrongName.KeyTexts

/-!
# Tokens of keys

Bytes are read back from their hexadecimal text, in lower and in upper case, and a token is read
back from its sixteen digits, whatever zeros it begins with. The digits of the token of a key are
those of the last eight bytes of its hash, the last byte first. A module may therefore record the
token in place of the key: its token, its display name and the qualified names of its types stay
the same.
-/

namespace ModuleInspector

namespace Text

/-- Whether characters are read as the numbers below sixteen. -/
def Spells (digit : Nat → Char) : Prop :=
  ∀ value < 16, (digit value).toNat < 128 ∧ hexValue? (digit value).toUInt8 = some value

/-- The lower-case digits are read as their numbers. -/
theorem spells_hexDigit : Spells hexDigit :=
  fun _ hvalue => ⟨toNat_hexDigit_lt hvalue, hexValue?_hexDigit hvalue⟩

/-- The upper-case digits are read as their numbers. -/
theorem spells_toUpper_hexDigit : Spells fun value => (hexDigit value).toUpper := by
  have hall : ∀ digit : Fin 16, (hexDigit digit.val).toUpper.toNat < 128 ∧
      hexValue? (hexDigit digit.val).toUpper.toUInt8 = some digit.val := by decide
  exact fun value hvalue => hall ⟨value, hvalue⟩

/-- The two digits of every byte. -/
def pairs (digit : Nat → Char) (data : List UInt8) : List Char :=
  data.flatMap fun byte => [digit (byte.toNat / 16), digit (byte.toNat % 16)]

/-- There are two digits for every byte. -/
theorem length_pairs (digit : Nat → Char) (data : List UInt8) :
    (pairs digit data).length = 2 * data.length := by
  induction data with
  | nil => rfl
  | cons byte data ih =>
    rw [pairs] at ih ⊢
    rw [List.flatMap_cons, List.length_append, ih, List.length_cons, List.length_singleton,
      List.length_cons]
    omega

/-- The digits of bytes are ASCII characters. -/
theorem Spells.ascii_pairs {digit : Nat → Char} (hspells : Spells digit) (data : List UInt8) :
    ∀ c ∈ pairs digit data, c.toNat < 128 := by
  intro c hc
  obtain ⟨byte, -, hpair⟩ := List.mem_flatMap.mp hc
  rw [List.mem_cons, List.mem_singleton] at hpair
  rcases hpair with rfl | rfl
  · exact (hspells _ (Nat.div_lt_of_lt_mul byte.toNat_lt)).1
  · exact (hspells _ (Nat.mod_lt _ (by decide))).1

/-- The two digits of a byte. -/
theorem hexDigits_two (byte : UInt8) :
    hexDigits 2 byte.toNat = [hexDigit (byte.toNat / 16), hexDigit (byte.toNat % 16)] := by
  have hhigh : byte.toNat / 16 % 16 = byte.toNat / 16 :=
    Nat.mod_eq_of_lt (Nat.div_lt_of_lt_mul byte.toNat_lt)
  simp [hexDigits, hhigh]

/-- The hexadecimal text of bytes has two lower-case digits for each. -/
theorem toList_hexText (data : List UInt8) : (hexText data).toList = pairs hexDigit data := by
  rw [hexText, String.toList_ofList, pairs, funext hexDigits_two]

/-- The hexadecimal text of bytes in upper case has two upper-case digits for each. -/
theorem toList_toUpper_hexText (data : List UInt8) :
    (hexText data).toUpper.toList = pairs (fun value => (hexDigit value).toUpper) data := by
  rw [String.toUpper, String.toList_map, toList_hexText, pairs, pairs, List.map_flatMap]
  rfl

end Text

/-! ## Reading bytes and tokens back -/

/-- Where every byte is a digit, none of them is passed over as a sign. -/
theorem unsignedDigits_of_isSome {digits : List UInt8}
    (hdigits : ∀ byte ∈ digits, (Text.hexValue? byte).isSome = true) :
    unsignedDigits digits = digits := by
  rcases digits with _ | ⟨first, later⟩
  · rfl
  · have hplus : first ≠ '+'.toUInt8 := by
      rintro rfl
      exact absurd (hdigits _ List.mem_cons_self) (by decide)
    rw [unsignedDigits, if_neg fun h => hplus h.1]

/-- Two digits are read as a byte. -/
theorem decodePairs_cons {first second : UInt8} {high low : Nat}
    (hhigh : Text.hexValue? first = some high) (hlow : Text.hexValue? second = some low)
    (offset : Nat) (rest : List UInt8) :
    decodePairs offset (first :: second :: rest) =
      (decodePairs (offset + 2) rest).map (UInt8.ofNat (high * 16 + low) :: ·) := by
  have hunsigned : unsignedDigits [first, second] = [first, second] :=
    unsignedDigits_of_isSome (by simp [hhigh, hlow])
  have hvalue : Text.ofHexDigits? [first, second] = some (high * 16 + low) := by
    simp [Text.ofHexDigits?, hhigh, hlow]
  rw [decodePairs, hunsigned, hvalue]
  cases decodePairs (offset + 2) rest <;> rfl

/-- The digits of bytes are read back as the bytes. -/
theorem decodePairs_pairs {digit : Nat → Char} (hspells : Text.Spells digit) (offset : Nat)
    (data : List UInt8) :
    decodePairs offset ((Text.pairs digit data).map Char.toUInt8) = .ok data := by
  induction data generalizing offset with
  | nil => rfl
  | cons byte data ih =>
    have hhigh := (hspells (byte.toNat / 16) (Nat.div_lt_of_lt_mul byte.toNat_lt)).2
    have hlow := (hspells (byte.toNat % 16) (Nat.mod_lt _ (by decide))).2
    have hbyte : UInt8.ofNat (byte.toNat / 16 * 16 + byte.toNat % 16) = byte := by
      rw [Nat.div_add_mod', UInt8.ofNat_toNat]
    have hrest := ih (offset + 2)
    rw [Text.pairs] at hrest ⊢
    rw [List.flatMap_cons, List.cons_append, List.cons_append, List.nil_append, List.map_cons,
      List.map_cons, decodePairs_cons hhigh hlow, hrest, hbyte]
    rfl

/-- A text of the digits of bytes is decoded to the bytes. -/
theorem decodeHex_of_pairs {digit : Nat → Char} (hspells : Text.Spells digit) {text : String}
    {data : List UInt8} (htext : text.toList = Text.pairs digit data) :
    decodeHex text = .ok data := by
  have hbytes : Text.bytes text = (Text.pairs digit data).map Char.toUInt8 := by
    rw [Text.bytes, htext, Text.flatMap_utf8EncodeChar_eq_map (hspells.ascii_pairs data)]
  have heven : (Text.bytes text).length % 2 = 0 := by
    rw [hbytes, List.length_map, Text.length_pairs, Nat.mul_mod_right]
  rw [decodeHex, if_neg (not_not_intro heven), hbytes, decodePairs_pairs hspells]

/-- The sixteen digits of a word are decoded to it. -/
theorem decodeToken_hexDigits (token : UInt64) :
    decodeToken (String.ofList (Text.hexDigits 16 token.toNat)) = .ok token := by
  have hascii : ∀ c ∈ Text.hexDigits 16 token.toNat, c.toNat < 128 := by
    intro c hc
    obtain ⟨digit, hdigit, rfl⟩ := Text.exists_of_mem_hexDigits hc
    exact (Text.spells_hexDigit digit hdigit).1
  have hvalue := Text.ofHexDigits?_hexDigits 16 token.toNat
  have hdigits := Text.isSome_ofHexDigits?_iff.mp (by rw [hvalue, Option.isSome_some])
  have htoken : token.toNat % 16 ^ 16 = token.toNat := Nat.mod_eq_of_lt token.toNat_lt
  rw [decodeToken, Text.bytes_ofList, Text.flatMap_utf8EncodeChar_eq_map hascii,
    unsignedDigits_of_isSome hdigits, hvalue, htoken]
  simp

/-! ## The token of a key -/

namespace StrongName

/-- Every word has the number of bytes that is asked for. -/
theorem length_bigEndian (count value : Nat) : (bigEndian count value).length = count := by
  induction count generalizing value with
  | zero => rfl
  | succ count ih => rw [bigEndian, List.length_append, ih, List.length_singleton]

/-- The hash has twenty bytes. -/
theorem length_digest (message : List UInt8) : (digest message).length = 20 := by
  simp [digest, length_bigEndian]

end StrongName

namespace KeyIdentity

/-- Bytes write a number below the power of their count. -/
theorem littleEndian_lt (data : List UInt8) : littleEndian data < 256 ^ data.length := by
  induction data with
  | nil => decide
  | cons byte data ih =>
    have hbyte := byte.toNat_lt
    have hvalue : littleEndian (byte :: data) = byte.toNat + 256 * littleEndian data := rfl
    rw [hvalue, List.length_cons, Nat.pow_succ]
    omega

/-- The digits of the number that bytes write are the digits of the bytes, the last byte first. -/
theorem hexDigits_littleEndian (data : List UInt8) :
    Text.hexDigits (2 * data.length) (littleEndian data) =
      data.reverse.flatMap fun byte => Text.hexDigits 2 byte.toNat := by
  induction data with
  | nil => rfl
  | cons byte data ih =>
    have hbyte := byte.toNat_lt
    have hvalue : littleEndian (byte :: data) = byte.toNat + 256 * littleEndian data := rfl
    have hlater : littleEndian (byte :: data) / 16 / 16 = littleEndian data := by omega
    have hhigh : littleEndian (byte :: data) / 16 % 16 = byte.toNat / 16 := by omega
    have hlow : littleEndian (byte :: data) % 16 = byte.toNat % 16 := by omega
    rw [List.length_cons, Nat.mul_succ, Text.hexDigits, Text.hexDigits, hlater, hhigh, hlow, ih,
      List.reverse_cons, List.flatMap_append, List.flatMap_singleton, Text.hexDigits_two,
      List.append_assoc]
    rfl

/-- The text of a key is the hexadecimal text of the last eight bytes of its hash, the last byte
first. -/
theorem text_publicKey (key : List UInt8) :
    (publicKey key).text = Text.hexText ((StrongName.digest key).drop 12).reverse := by
  have hlength : ((StrongName.digest key).drop 12).length = 8 := by
    rw [List.length_drop, StrongName.length_digest]
  have hlt := littleEndian_lt ((StrongName.digest key).drop 12)
  have hdigits := hexDigits_littleEndian ((StrongName.digest key).drop 12)
  rw [hlength] at hlt hdigits
  rw [text, toToken, UInt64.toNat_ofNat_of_lt' hlt, Text.hexText]
  exact congrArg String.ofList hdigits

/-- The text of an identity is decoded to its token. -/
theorem decodeToken_text (identity : KeyIdentity) :
    decodeToken identity.text = .ok identity.toToken := decodeToken_hexDigits _

/-- The text of an identity is not empty. -/
theorem text_ne_empty (identity : KeyIdentity) : identity.text ≠ "" := by
  intro hempty
  have hlength : identity.text.length = 16 := by
    rw [text, String.length_ofList, Text.length_hexDigits]
  rw [hempty] at hlength
  exact absurd hlength (by decide)

end KeyIdentity

namespace ModuleIdentity

variable {m : ModuleIdentity}

/-- The module with the token of an identity in place of its key. -/
def withToken (m : ModuleIdentity) (identity : KeyIdentity) : ModuleIdentity :=
  { m with publicKey := none, publicKeyToken := some identity.text }

/-- A module without a key whose token is the text of an identity has its token. -/
theorem key_of_text (hkeyless : m.Keyless) {identity : KeyIdentity}
    (htoken : m.publicKeyToken = some identity.text) :
    m.key = .ok (some (.token identity.toToken)) := by
  rw [key_of_publicKeyToken hkeyless htoken identity.text_ne_empty, identity.decodeToken_text]
  rfl

/-- A module with the token of an identity has this token. -/
theorem key_withToken (m : ModuleIdentity) (identity : KeyIdentity) :
    (m.withToken identity).key = .ok (some (.token identity.toToken)) := by
  have hkeyless : (m.withToken identity).Keyless := by simp [Keyless, withToken]
  exact key_of_text hkeyless rfl

/-- A module with the token of its own identity has the same display name. -/
theorem displayName_withToken {identity : KeyIdentity} (hkey : m.key = .ok (some identity)) :
    (m.withToken identity).displayName = m.displayName := by
  have hlabel : (m.withToken identity).tokenLabel = m.tokenLabel := by
    rw [tokenLabel, tokenLabel, key_withToken, hkey]
    rfl
  rw [displayName, displayName, hlabel]
  rfl

end ModuleIdentity

/-- The module with another identity. -/
def Module.withIdentity (m : Module) (identity : ModuleIdentity) : Module := { m with identity }

/-- The type at the same position of the module with another identity. -/
def Entry.withIdentity {m : Module} (identity : ModuleIdentity) :
    Entry m → Entry (m.withIdentity identity)
  | .defined index => .defined index
  | .referenced index => .referenced index

/-- A type has the same qualified name in a module with another identity, if the display names of
the two identities agree. -/
theorem Module.qualifiedName_withIdentity {m : Module} {identity : ModuleIdentity}
    (hname : identity.displayName = m.identity.displayName) (e : Entry m) :
    (m.withIdentity identity).qualifiedName (e.withIdentity identity) = m.qualifiedName e := by
  have hsame : (e.withIdentity identity).name = e.name := by cases e <;> rfl
  rw [qualifiedName, qualifiedName, hsame, withIdentity, hname]

/-- Bytes are read back from their hexadecimal text in lower and in upper case, and a module whose
token is the text of a word has this word as its token. The text of a key is that of the last eight
of the twenty bytes of its hash, the last byte first. A module with a readable key may record this
text as its token instead of the key: this keeps the token, the display name and the qualified name
of every type. -/
theorem keys_and_tokens_readBack :
    (∀ data, decodeHex (Text.hexText data) = .ok data ∧
      decodeHex (Text.hexText data).toUpper = .ok data) ∧
    (∀ (m : ModuleIdentity) (token : UInt64), m.Keyless →
      m.publicKeyToken = some (KeyIdentity.token token).text → m.key = .ok (some (.token token))) ∧
    (∀ key, (StrongName.digest key).length = 20 ∧ (KeyIdentity.publicKey key).text =
      Text.hexText ((StrongName.digest key).drop 12).reverse) ∧
    ∀ (m : Module) (text : String) (key : List UInt8), m.identity.publicKey = some text →
      text ≠ "" → decodeHex text = .ok key →
      let identity := KeyIdentity.publicKey key
      let replaced := m.identity.withToken identity
      m.identity.key = .ok (some identity) ∧
      (∃ other, replaced.key = .ok (some other) ∧ other.toToken = identity.toToken) ∧
      replaced.displayName = m.identity.displayName ∧
      ∀ e : Entry m, (m.withIdentity replaced).qualifiedName (e.withIdentity replaced) =
        m.qualifiedName e := by
  refine ⟨fun data => ⟨?_, ?_⟩, fun m token hkeyless htoken => ?_, fun key => ?_, ?_⟩
  · exact decodeHex_of_pairs Text.spells_hexDigit (Text.toList_hexText data)
  · exact decodeHex_of_pairs Text.spells_toUpper_hexDigit (Text.toList_toUpper_hexText data)
  · exact ModuleIdentity.key_of_text hkeyless htoken
  · exact ⟨StrongName.length_digest key, KeyIdentity.text_publicKey key⟩
  · intro m text key hrecorded hne hdecoded identity replaced
    have hkey : m.identity.key = .ok (some identity) := by
      rw [ModuleIdentity.key_of_publicKey hrecorded hne, hdecoded]
      rfl
    have hname := ModuleIdentity.displayName_withToken hkey
    exact ⟨hkey, ⟨_, ModuleIdentity.key_withToken _ _, rfl⟩, hname,
      Module.qualifiedName_withIdentity hname⟩

/-- A module with a key of two bytes and one type. -/
def gearsWithKey : Module where
  identity := .ofTexts "Gears" (some "00fF") none
  location := ""
  files := []
  types := [.ofName "Gears" "Worm" 1]
  referencedTypes := []
  resources := []
  entryPoint := none

/-- The type of this module. -/
def keyedWorm : Entry gearsWithKey := .defined ⟨0, by decide⟩

/-- A token that begins with zeros is read back, and `gearsWithKey` keeps its display name and the
qualified name of its type with the token in place of the key. -/
theorem keys_and_tokens_gearsWithKey :
    let zeros := ModuleIdentity.ofTexts "Gears" none (some "000000000000001f")
    let key : List UInt8 := [0, 255]
    let replaced := gearsWithKey.identity.withToken (.publicKey key)
    (zeros.Keyless ∧ zeros.publicKeyToken = some (KeyIdentity.token 31).text ∧
      zeros.key = .ok (some (.token 31))) ∧
    gearsWithKey.identity.publicKey = some "00fF" ∧ "00fF" ≠ "" ∧ decodeHex "00fF" = .ok key ∧
    replaced.displayName = gearsWithKey.identity.displayName ∧
    (gearsWithKey.withIdentity replaced).qualifiedName (keyedWorm.withIdentity replaced) =
      gearsWithKey.qualifiedName keyedWorm := by
  intro zeros key replaced
  obtain ⟨-, htokens, -, hkeys⟩ := keys_and_tokens_readBack
  have hkeyless : zeros.Keyless := by simp [zeros, ModuleIdentity.Keyless, ModuleIdentity.ofTexts]
  have htoken : zeros.publicKeyToken = some (KeyIdentity.token 31).text := by decide
  have hne : "00fF" ≠ "" := by decide
  have hdecoded : decodeHex "00fF" = .ok key := by decide
  obtain ⟨-, -, hname, hqualified⟩ := hkeys gearsWithKey "00fF" key rfl hne hdecoded
  exact ⟨⟨hkeyless, htoken, htokens zeros 31 hkeyless htoken⟩, rfl, hne, hdecoded, hname,
    hqualified keyedWorm⟩

end ModuleInspector
