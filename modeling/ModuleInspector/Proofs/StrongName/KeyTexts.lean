import ModuleInspector.Proofs.Text.HexDigits
import ModuleInspector.StrongName.Identity

/-!
# Texts of keys and tokens

The text of a key consists of pairs of hexadecimal digits, and the text of a token of sixteen
digits. A plus sign may stand for the first digit of every pair and for the first digit of a token.
Every other text is malformed, and the display name shows no token for it. Where there is no plus
sign, exactly the hexadecimal texts of the right length are read.
-/

namespace ModuleInspector

/-- Whether a text consists of hexadecimal digits, except that a plus sign may stand at some
positions. -/
def IsHexWithPlus (plusAt : Nat → Prop) (text : String) : Prop :=
  ∀ i c, text.toList[i]? = some c → Text.IsHexDigit c ∨ plusAt i ∧ c = '+'

/-- The texts that are read as a key: pairs of digits, where a plus may stand for the first one. -/
def IsKeyText (text : String) : Prop :=
  text.length % 2 = 0 ∧ IsHexWithPlus (fun i => i % 2 = 0) text

/-- The texts that are read as a token: sixteen digits, where a plus may stand for the first one. -/
def IsTokenText (text : String) : Prop :=
  text.length = 16 ∧ IsHexWithPlus (fun i => i = 0) text

/-- Without a plus sign there are only digits. -/
theorem isHexWithPlus_iff_of_notMem {plusAt : Nat → Prop} {text : String}
    (hplus : '+' ∉ text.toList) :
    IsHexWithPlus plusAt text ↔ ∀ c ∈ text.toList, Text.IsHexDigit c := by
  constructor
  · intro hall c hc
    obtain ⟨i, hi⟩ := List.mem_iff_getElem?.mp hc
    rcases hall i c hi with hdigit | ⟨-, rfl⟩
    · exact hdigit
    · exact absurd hc hplus
  · intro hall i c hi
    exact .inl (hall c (List.mem_of_getElem? hi))

/-- A condition on the bytes of a text that allows digits, and a plus sign at some positions, is the
same condition on its characters. -/
theorem bytes_isHexWithPlus_iff (ofLength : Nat → Prop) (plusAt : Nat → Prop) (text : String) :
    (ofLength (Text.bytes text).length ∧ ∀ i byte, (Text.bytes text)[i]? = some byte →
        (Text.hexValue? byte).isSome = true ∨ plusAt i ∧ byte = '+'.toUInt8) ↔
      ofLength text.length ∧ IsHexWithPlus plusAt text := by
  refine Text.bytes_meet_iff ?_ ?_ ?_ text
  · rintro i byte (hdigit | ⟨-, rfl⟩)
    · exact Text.toNat_lt_of_isSome_hexValue? hdigit
    · decide
  · rintro i c (hdigit | ⟨-, rfl⟩)
    · exact hdigit.toNat_lt
    · decide
  · intro i c hc
    rw [Text.isSome_hexValue?_toUInt8_iff hc, Text.toUInt8_inj hc (by decide)]

/-! ## Reading digits after a plus sign -/

/-- A plus sign may stand in front of digits, of which there has to be one. -/
theorem isSome_ofHexDigits?_unsignedDigits {first : UInt8} {later : List UInt8}
    (hlater : later ≠ []) :
    (Text.ofHexDigits? (unsignedDigits (first :: later))).isSome = true ↔
      ((Text.hexValue? first).isSome = true ∨ first = '+'.toUInt8) ∧
        ∀ byte ∈ later, (Text.hexValue? byte).isSome = true := by
  rw [unsignedDigits, Text.isSome_ofHexDigits?_iff]
  by_cases hplus : first = '+'.toUInt8
  · rw [if_pos ⟨hplus, hlater⟩]
    simp [hplus]
  · rw [if_neg fun h => hplus h.1, List.forall_mem_cons]
    simp [hplus]

/-- What holds of all items of a list, by their positions, holds of the first one and of the others,
whose positions are one less among themselves. -/
private theorem forall_getElem?_cons {α : Type} {p : Nat → α → Prop} {first : α} {later : List α} :
    (∀ i x, (first :: later)[i]? = some x → p i x) ↔
      p 0 first ∧ ∀ i x, later[i]? = some x → p (i + 1) x := by
  constructor
  · intro hall
    exact ⟨hall 0 first rfl, fun i x hx => hall (i + 1) x hx⟩
  · rintro ⟨hfirst, hlater⟩ (_ | i) x hx
    · exact Option.some.inj hx ▸ hfirst
    · exact hlater i x hx

/-- Whole pairs of bytes are read when all of them are digits, except that a plus sign may stand for
the first byte of a pair. -/
theorem exists_decodePairs_iff {digits : List UInt8} (offset : Nat)
    (heven : digits.length % 2 = 0) :
    (∃ key, decodePairs offset digits = .ok key) ↔
      ∀ i byte, digits[i]? = some byte →
        (Text.hexValue? byte).isSome = true ∨ i % 2 = 0 ∧ byte = '+'.toUInt8 := by
  have hpair (first second : UInt8) (rest : List UInt8) :
      (∀ i byte, (first :: second :: rest)[i]? = some byte →
        (Text.hexValue? byte).isSome = true ∨ i % 2 = 0 ∧ byte = '+'.toUInt8) ↔
      (Text.ofHexDigits? (unsignedDigits [first, second])).isSome = true ∧
        ∀ i byte, rest[i]? = some byte →
          (Text.hexValue? byte).isSome = true ∨ i % 2 = 0 ∧ byte = '+'.toUInt8 := by
    rw [forall_getElem?_cons, forall_getElem?_cons,
      isSome_ofHexDigits?_unsignedDigits (List.cons_ne_nil _ _)]
    simp [Nat.add_assoc, and_assoc]
  fun_induction decodePairs offset digits with
  | case1 offset first second rest hnone =>
    rw [hpair, hnone]
    simp
  | case2 offset first second rest value hvalue e hrest ih =>
    have hrestEven : rest.length % 2 = 0 := by simp only [List.length_cons] at heven; omega
    rw [hpair, hvalue]
    simpa [hrest] using ih hrestEven
  | case3 offset first second rest value hvalue values hrest ih =>
    have hrestEven : rest.length % 2 = 0 := by simp only [List.length_cons] at heven; omega
    rw [hpair, hvalue]
    simpa [hrest] using ih hrestEven
  | case4 digits offset hshort =>
    rcases digits with _ | ⟨first, _ | ⟨second, rest⟩⟩
    · simp
    · simp at heven
    · exact absurd rfl (hshort first second rest)

/-- The text of a key is read when it is one. -/
theorem exists_decodeHex_iff (text : String) :
    (∃ key, decodeHex text = .ok key) ↔ IsKeyText text := by
  rw [IsKeyText, ← bytes_isHexWithPlus_iff (fun length => length % 2 = 0), decodeHex]
  by_cases heven : (Text.bytes text).length % 2 = 0
  · rw [if_neg (not_not_intro heven), exists_decodePairs_iff 0 heven, and_iff_right heven]
  · simp [heven]

/-- The text of a token is read when it is one. -/
theorem exists_decodeToken_iff (text : String) :
    (∃ token, decodeToken text = .ok token) ↔ IsTokenText text := by
  have hread : (∃ token, decodeToken text = .ok token) ↔ (Text.bytes text).length = 16 ∧
      (Text.ofHexDigits? (unsignedDigits (Text.bytes text))).isSome = true := by
    rw [decodeToken]
    cases Text.ofHexDigits? (unsignedDigits (Text.bytes text)) with
    | none => simp
    | some value => by_cases hlength : (Text.bytes text).length = 16 <;> simp [hlength]
  rw [hread, IsTokenText, ← bytes_isHexWithPlus_iff (fun length => length = 16)]
  refine and_congr_right fun hlength => ?_
  obtain ⟨first, later, hbytes⟩ := List.exists_cons_of_length_eq_add_one hlength
  rw [hbytes, List.length_cons] at hlength
  have hlater : later ≠ [] := List.ne_nil_of_length_pos (by omega)
  rw [hbytes, isSome_ofHexDigits?_unsignedDigits hlater, forall_getElem?_cons]
  refine and_congr (by simp) ⟨fun hall i byte hi => .inl (hall byte (List.mem_of_getElem? hi)), ?_⟩
  intro hall byte hmem
  obtain ⟨i, hi⟩ := List.mem_iff_getElem?.mp hmem
  simpa using hall i byte hi

/-! ## The identity of a module -/

namespace ModuleIdentity

variable {m : ModuleIdentity} {text : String}

/-- Whether the key or token of a module is malformed: reading it fails, and the display name shows
no token. -/
structure Malformed (m : ModuleIdentity) : Prop where
  fails : ∃ e, m.key = .error e
  displayName_eq : m.displayName = m.name ++ ", Version=" ++ m.versionLabel ++ ", Culture=" ++
    m.cultureLabel ++ ", PublicKeyToken=" ++ "null"

/-- Whether a module has no key to read, so that its token is read. -/
def Keyless (m : ModuleIdentity) : Prop := ∀ key, m.publicKey = some key → key = ""

/-- Where reading fails, the display name shows no token. -/
theorem malformed_of_key_eq {e : KeyError} (herror : m.key = .error e) : m.Malformed where
  fails := ⟨e, herror⟩
  displayName_eq := by
    have hlabel : m.tokenLabel = "null" := by rw [tokenLabel, herror]
    rw [displayName, hlabel]

/-- A key that is not empty is read. -/
theorem key_of_publicKey (hkey : m.publicKey = some text) (hne : text ≠ "") :
    m.key = (decodeHex text).map fun key => some (.publicKey key) := by
  rw [key, hkey, Option.filter_some, if_pos (by simpa using hne)]

/-- A token that is not empty is read where there is no key. -/
theorem key_of_publicKeyToken (hkeyless : m.Keyless) (htoken : m.publicKeyToken = some text)
    (hne : text ≠ "") : m.key = (decodeToken text).map fun token => some (.token token) := by
  have hnone : m.publicKey.filter (· != "") = none := by
    rw [Option.filter_eq_none_iff]
    intro key hkey
    simp [hkeyless key hkey]
  rw [key, hnone, htoken, Option.filter_some, if_pos (by simpa using hne)]

/-- Reading gives an identity exactly for the texts that are accepted, and is malformed for every
other one. -/
theorem accepts_iff {α : Type} {ofValue : α → KeyIdentity} {decoded : Except KeyError α}
    {accepted : Prop} (hkey : m.key = decoded.map fun value => some (ofValue value))
    (haccepted : (∃ value, decoded = .ok value) ↔ accepted) :
    ((∃ value, m.key = .ok (some (ofValue value))) ↔ accepted) ∧ (¬accepted → m.Malformed) := by
  rw [← haccepted]
  cases decoded with
  | error e =>
    refine ⟨?_, fun _ => malformed_of_key_eq hkey⟩
    simp [hkey, Except.map]
  | ok value =>
    refine ⟨?_, fun hnone => absurd ⟨value, rfl⟩ hnone⟩
    simp only [hkey, Except.map, Except.ok.injEq, exists_eq', iff_true]
    exact ⟨value, rfl⟩

/-- A module with a key has an identity exactly when the key is pairs of digits, and a module with a
token alone exactly when the token is sixteen digits, where in both a plus sign may stand for some
digits; every other text is malformed. Texts without a plus sign are accepted exactly when they are
hexadecimal: an even number of digits for a key, and sixteen for a token. -/
theorem key_reads_iff (m : ModuleIdentity) :
    (∀ text, m.publicKey = some text → text ≠ "" →
      ((∃ key, m.key = .ok (some (.publicKey key))) ↔ IsKeyText text) ∧
      (¬IsKeyText text → m.Malformed)) ∧
    (∀ text, m.Keyless → m.publicKeyToken = some text → text ≠ "" →
      ((∃ token, m.key = .ok (some (.token token))) ↔ IsTokenText text) ∧
      (¬IsTokenText text → m.Malformed)) ∧
    ∀ text : String, '+' ∉ text.toList →
      (IsKeyText text ↔ text.length % 2 = 0 ∧ ∀ c ∈ text.toList, Text.IsHexDigit c) ∧
      (IsTokenText text ↔ text.length = 16 ∧ ∀ c ∈ text.toList, Text.IsHexDigit c) := by
  refine ⟨fun text hkey hne => ?_, fun text hkeyless htoken hne => ?_, fun text hplus => ?_⟩
  · exact accepts_iff (key_of_publicKey hkey hne) (exists_decodeHex_iff text)
  · exact accepts_iff (key_of_publicKeyToken hkeyless htoken hne) (exists_decodeToken_iff text)
  · exact ⟨and_congr_right fun _ => isHexWithPlus_iff_of_notMem hplus,
      and_congr_right fun _ => isHexWithPlus_iff_of_notMem hplus⟩

/-- A module with this name and these texts of its key and token. -/
def ofTexts (name : String) (publicKey publicKeyToken : Option String) : ModuleIdentity :=
  { name, version := none, culture := none, publicKey, publicKeyToken }

/-- Pairs of digits are read as a key, and sixteen digits as a token; a text with another character
and one of another length are malformed. -/
theorem key_reads_gears :
    let signed := ofTexts "Gears" (some "0aFf") none
    let accented := ofTexts "Gears" (some "0aé") none
    let referenced := ofTexts "Gears" none (some "b03f5f7f11d50A3A")
    let short := ofTexts "Gears" (some "") (some "b03f")
    ('+' ∉ "0aFf".toList ∧ signed.publicKey = some "0aFf" ∧ "0aFf" ≠ "" ∧
      ∃ key, signed.key = .ok (some (.publicKey key))) ∧
    (accented.publicKey = some "0aé" ∧ "0aé" ≠ "" ∧ ¬IsKeyText "0aé" ∧ accented.Malformed) ∧
    ('+' ∉ "b03f5f7f11d50A3A".toList ∧ referenced.Keyless ∧
      referenced.publicKeyToken = some "b03f5f7f11d50A3A" ∧ "b03f5f7f11d50A3A" ≠ "" ∧
      ∃ token, referenced.key = .ok (some (.token token))) ∧
    short.Keyless ∧ short.publicKeyToken = some "b03f" ∧ "b03f" ≠ "" ∧ ¬IsTokenText "b03f" ∧
      short.Malformed := by
  intro signed accented referenced short
  obtain ⟨hkeys, -, htexts⟩ := key_reads_iff signed
  have hsigned : IsKeyText "0aFf" :=
    (htexts "0aFf" (by decide)).1.mpr ⟨by decide, by simp [Text.IsHexDigit]⟩
  have hreferenced : IsTokenText "b03f5f7f11d50A3A" :=
    (htexts "b03f5f7f11d50A3A" (by decide)).2.mpr ⟨by decide, by simp [Text.IsHexDigit]⟩
  have haccented : ¬IsKeyText "0aé" := fun h => absurd h.1 (by decide)
  have hshort : ¬IsTokenText "b03f" := fun h => absurd h.1 (by decide)
  have hkeylessReferenced : referenced.Keyless := by simp [referenced, Keyless, ofTexts]
  have hkeylessShort : short.Keyless := by simp [short, Keyless, ofTexts]
  refine ⟨⟨by decide, rfl, by decide, ?_⟩, ⟨rfl, by decide, haccented, ?_⟩,
    ⟨by decide, hkeylessReferenced, rfl, by decide, ?_⟩, hkeylessShort, rfl, by decide, hshort, ?_⟩
  · exact (hkeys "0aFf" rfl (by decide)).1.mpr hsigned
  · exact ((key_reads_iff accented).1 "0aé" rfl (by decide)).2 haccented
  · exact ((key_reads_iff referenced).2.1 _ hkeylessReferenced rfl (by decide)).1.mpr hreferenced
  · exact ((key_reads_iff short).2.1 _ hkeylessShort rfl (by decide)).2 hshort

/-- A plus sign and a digit are read as a key of one byte, although a plus sign is no hexadecimal
digit. -/
theorem key_reads_plusSign :
    let m := ofTexts "Gears" (some "+f") none
    m.publicKey = some "+f" ∧ ¬(∀ c ∈ "+f".toList, Text.IsHexDigit c) ∧
      m.key = .ok (some (.publicKey [15])) ∧ ¬m.Malformed := by
  intro m
  have hkey : m.key = .ok (some (.publicKey [15])) := by decide
  refine ⟨rfl, by simp [Text.IsHexDigit], hkey, fun hmalformed => ?_⟩
  obtain ⟨e, herror⟩ := hmalformed.fails
  simp [hkey] at herror

end ModuleIdentity

end ModuleInspector
