import ModuleInspector.Proofs.Text.Bytes
import Mathlib.Algebra.Group.Nat.Defs
import Mathlib.Data.List.Induction

/-!
# Hexadecimal digits

The bytes that have a value as hexadecimal digits are those of the characters `0` to `9`, `a` to
`f` and `A` to `F`, and digits write a number exactly when every one of them has a value. The
digits of a number are read back as the number, as far as they reach.
-/

namespace ModuleInspector.Text

/-- Whether a character is a hexadecimal digit of either case. -/
def IsHexDigit (c : Char) : Prop :=
  '0' ≤ c ∧ c ≤ '9' ∨ 'a' ≤ c ∧ c ≤ 'f' ∨ 'A' ≤ c ∧ c ≤ 'F'

instance : DecidablePred IsHexDigit := fun _ => inferInstanceAs (Decidable (_ ∨ _))

/-- A hexadecimal digit is an ASCII character. -/
theorem IsHexDigit.toNat_lt {c : Char} (hdigit : IsHexDigit c) : c.toNat < 128 := by
  rcases hdigit with ⟨-, hle⟩ | ⟨-, hle⟩ | ⟨-, hle⟩
  · exact Nat.lt_of_le_of_lt hle (by decide)
  · exact Nat.lt_of_le_of_lt hle (by decide)
  · exact Nat.lt_of_le_of_lt hle (by decide)

/-- The bytes with a value are those of the digits. -/
theorem isSome_hexValue?_iff {byte : UInt8} :
    (hexValue? byte).isSome = true ↔
      '0'.toUInt8 ≤ byte ∧ byte ≤ '9'.toUInt8 ∨ 'a'.toUInt8 ≤ byte ∧ byte ≤ 'f'.toUInt8 ∨
        'A'.toUInt8 ≤ byte ∧ byte ≤ 'F'.toUInt8 := by
  unfold hexValue?
  split_ifs <;> simp [*]

/-- A byte with a value is that of an ASCII character. -/
theorem toNat_lt_of_isSome_hexValue? {byte : UInt8} (hdigit : (hexValue? byte).isSome = true) :
    byte.toNat < 128 := by
  rcases isSome_hexValue?_iff.mp hdigit with ⟨-, hle⟩ | ⟨-, hle⟩ | ⟨-, hle⟩
  · exact Nat.lt_of_le_of_lt hle (by decide)
  · exact Nat.lt_of_le_of_lt hle (by decide)
  · exact Nat.lt_of_le_of_lt hle (by decide)

/-- The byte of an ASCII character has its value. -/
theorem toNat_toUInt8 {c : Char} (hc : c.toNat < 128) : c.toUInt8.toNat = c.toNat :=
  Nat.mod_eq_of_lt (Nat.lt_trans hc (by decide))

/-- ASCII characters are ordered as their bytes. -/
theorem toUInt8_le_toUInt8_iff {c d : Char} (hc : c.toNat < 128) (hd : d.toNat < 128) :
    c.toUInt8 ≤ d.toUInt8 ↔ c ≤ d := by
  rw [UInt8.le_iff_toNat_le, toNat_toUInt8 hc, toNat_toUInt8 hd]
  rfl

/-- ASCII characters are told apart by their bytes. -/
theorem toUInt8_inj {c d : Char} (hc : c.toNat < 128) (hd : d.toNat < 128) :
    c.toUInt8 = d.toUInt8 ↔ c = d := by
  rw [← UInt8.toNat_inj, toNat_toUInt8 hc, toNat_toUInt8 hd, Char.toNat_inj]

/-- The ASCII characters whose bytes have a value are the digits. -/
theorem isSome_hexValue?_toUInt8_iff {c : Char} (hc : c.toNat < 128) :
    (hexValue? c.toUInt8).isSome = true ↔ IsHexDigit c := by
  have hbelow : ∀ {d : Char}, d.toNat < 128 → (d.toUInt8 ≤ c.toUInt8 ↔ d ≤ c) :=
    fun hd => toUInt8_le_toUInt8_iff hd hc
  have habove : ∀ {d : Char}, d.toNat < 128 → (c.toUInt8 ≤ d.toUInt8 ↔ c ≤ d) :=
    fun hd => toUInt8_le_toUInt8_iff hc hd
  rw [isSome_hexValue?_iff, IsHexDigit, hbelow (by decide), hbelow (by decide), hbelow (by decide),
    habove (by decide), habove (by decide), habove (by decide)]

/-- A number is read one digit after the other. -/
theorem ofHexDigits?_concat (digits : List UInt8) (digit : UInt8) :
    ofHexDigits? (digits ++ [digit]) =
      (ofHexDigits? digits).bind fun value =>
        (hexValue? digit).map fun last => value * 16 + last := by
  rw [ofHexDigits?, List.foldl_append]
  rfl

/-- Bytes write a number when every one of them has a value. -/
theorem isSome_ofHexDigits?_iff {digits : List UInt8} :
    (ofHexDigits? digits).isSome = true ↔ ∀ byte ∈ digits, (hexValue? byte).isSome = true := by
  induction digits using List.reverseRecOn with
  | nil => simp [ofHexDigits?]
  | append_singleton digits digit ih =>
    rw [ofHexDigits?_concat, List.forall_mem_append, List.forall_mem_singleton, ← ih]
    cases ofHexDigits? digits <;> simp

/-- There are as many digits as are asked for. -/
@[simp] theorem length_hexDigits (count value : Nat) : (hexDigits count value).length = count := by
  induction count generalizing value with
  | zero => rfl
  | succ count ih => rw [hexDigits, List.length_append, ih, List.length_singleton]

/-- The digits of a number are digits of numbers below sixteen. -/
theorem exists_of_mem_hexDigits {count value : Nat} {c : Char} (hc : c ∈ hexDigits count value) :
    ∃ digit < 16, c = hexDigit digit := by
  induction count generalizing value with
  | zero => exact absurd hc List.not_mem_nil
  | succ count ih =>
    rcases List.mem_append.mp hc with hfirst | hlast
    · exact ih hfirst
    · exact ⟨value % 16, Nat.mod_lt _ (by decide), List.mem_singleton.mp hlast⟩

/-- The last digits of a number are read back as its remainder. -/
theorem ofHexDigits?_hexDigits (count value : Nat) :
    ofHexDigits? ((hexDigits count value).map Char.toUInt8) = some (value % 16 ^ count) := by
  induction count generalizing value with
  | zero => rw [Nat.pow_zero, Nat.mod_one]; rfl
  | succ count ih =>
    have hlast : hexValue? (hexDigit (value % 16)).toUInt8 = some (value % 16) :=
      hexValue?_hexDigit (Nat.mod_lt _ (by decide))
    rw [hexDigits, List.map_append, List.map_singleton, ofHexDigits?_concat, ih, hlast,
      Option.bind_some, Option.map_some, Nat.pow_succ', Nat.mod_mul, Nat.mul_comm, Nat.add_comm]

end ModuleInspector.Text
