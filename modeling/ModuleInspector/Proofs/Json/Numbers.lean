import Mathlib.Tactic.SplitIfs
import ModuleInspector.Json.Printer
import ModuleInspector.Json.Reader
import ModuleInspector.Proofs.Text.Bytes

/-!
# Whole numbers read back

The decimal digits of a natural number are read as the number. The bytes after them matter only
in that they must not go on with the number.
-/

namespace ModuleInspector.Json

/-- The value of decimal digits after the ones that were read before. -/
def digitsValue (value : Nat) (digits : List Nat) : Nat :=
  digits.foldl (fun value digit => value * 10 + digit) value

/-- A number below ten is written with one digit. -/
theorem bytes_repr_of_lt {n : Nat} (hn : n < 10) :
    Text.bytes (Nat.repr n) = [UInt8.ofNat (48 + n)] := by
  have hcode := Nat.toNat_digitChar_of_lt_ten hn
  have hsmall : n.digitChar.toNat < 128 := by omega
  rw [Text.bytes, Nat.toList_repr, Nat.toDigits_of_lt_base hn, List.flatMap_singleton,
    Text.utf8EncodeChar_of_lt hsmall, hcode]

/-- The last digit of a greater number is written after the others. -/
theorem bytes_repr_of_ge {n : Nat} (hn : 10 ≤ n) :
    Text.bytes (Nat.repr n) = Text.bytes (Nat.repr (n / 10)) ++ [UInt8.ofNat (48 + n % 10)] := by
  have hlast : n % 10 < 10 := Nat.mod_lt n (by decide)
  rw [Nat.repr_eq_repr_append_repr hn, Text.bytes_append, bytes_repr_of_lt hlast]

/-- The byte of a digit has its value. -/
theorem digit_ofNat {n : Nat} (hn : n < 10) :
    isDigit (UInt8.ofNat (48 + n)) = true ∧ digitValue (UInt8.ofNat (48 + n)) = n := by
  have hall : ∀ digit : Fin 10, isDigit (UInt8.ofNat (48 + digit.val)) = true ∧
      digitValue (UInt8.ofNat (48 + digit.val)) = digit.val := by decide
  exact hall ⟨n, hn⟩

/-- A number is written with digits only. -/
theorem isDigit_of_mem_bytes_repr (n : Nat) : ∀ byte ∈ Text.bytes (Nat.repr n), isDigit byte := by
  induction n using Nat.strongRecOn with
  | ind n ih =>
  by_cases hn : n < 10
  · rw [bytes_repr_of_lt hn]
    simpa using (digit_ofNat hn).1
  · rw [bytes_repr_of_ge (Nat.le_of_not_lt hn)]
    intro byte hbyte
    rcases List.mem_append.mp hbyte with hbyte | hbyte
    · exact ih (n / 10) (by omega) byte hbyte
    · obtain rfl := List.mem_singleton.mp hbyte
      exact (digit_ofNat (Nat.mod_lt n (by decide))).1

/-- The digits of a number have its value. -/
theorem digitsValue_repr (n : Nat) :
    digitsValue 0 ((Text.bytes (Nat.repr n)).map digitValue) = n := by
  induction n using Nat.strongRecOn with
  | ind n ih =>
  by_cases hn : n < 10
  · rw [bytes_repr_of_lt hn, List.map_singleton, (digit_ofNat hn).2]
    simp [digitsValue]
  · have hrest := ih (n / 10) (by omega)
    rw [digitsValue] at hrest
    rw [bytes_repr_of_ge (Nat.le_of_not_lt hn), digitsValue, List.map_append, List.foldl_append,
      hrest, List.map_singleton, (digit_ofNat (Nat.mod_lt n (by decide))).2]
    simp only [List.foldl_cons, List.foldl_nil]
    omega

/-- A number is written with at least one digit, and does not start with a zero that more digits
follow. -/
theorem head_bytes_repr (n : Nat) :
    ∃ first rest, (Text.bytes (Nat.repr n)).map digitValue = first :: rest ∧
      (n ≠ 0 → first ≠ 0) ∧ (n = 0 → rest = []) := by
  induction n using Nat.strongRecOn with
  | ind n ih =>
  by_cases hn : n < 10
  · refine ⟨n, [], ?_, fun h => h, fun _ => rfl⟩
    rw [bytes_repr_of_lt hn, List.map_singleton, (digit_ofNat hn).2]
  · obtain ⟨first, rest, hdigits, hfirst, -⟩ := ih (n / 10) (by omega)
    refine ⟨first, rest ++ [n % 10], ?_, fun _ => hfirst (by omega), fun h => by omega⟩
    rw [bytes_repr_of_ge (Nat.le_of_not_lt hn), List.map_append, hdigits, List.map_singleton,
      (digit_ofNat (Nat.mod_lt n (by decide))).2]
    rfl

/-- Whether bytes do not go on with a number before them. -/
def EndsNumber (rest : Bytes) : Prop :=
  ∀ byte ∈ rest.head?, isDigit byte = false ∧ byte ≠ '.'.toUInt8 ∧ isExponentMark byte = false

/-- The end of the input does not go on with a number. -/
theorem endsNumber_nil : EndsNumber [] := nofun

/-- Bytes do not go on with a number when the first of them does not. -/
theorem endsNumber_cons {byte : UInt8}
    (hbyte : isDigit byte = false ∧ byte ≠ '.'.toUInt8 ∧ isExponentMark byte = false)
    (rest : Bytes) : EndsNumber (byte :: rest) := by
  rintro _ ⟨⟩
  exact hbyte

/-- Bytes that do not go on with a number have no digits at their front. -/
theorem takeWhile_isDigit {rest : Bytes} (hrest : EndsNumber rest) :
    rest.takeWhile isDigit = [] ∧ rest.dropWhile isDigit = rest := by
  cases rest with
  | nil => exact ⟨rfl, rfl⟩
  | cons byte rest =>
    obtain ⟨hbyte, -, -⟩ := hrest byte rfl
    simp [hbyte]

/-- The leading digits of a text stay the same when bytes follow that do not go on with them. -/
theorem leadingDigits_append (input : Bytes) {rest : Bytes} (hrest : EndsNumber rest) :
    leadingDigits (input ++ rest) = leadingDigits input ∧
      afterDigits (input ++ rest) = afterDigits input ++ rest := by
  unfold leadingDigits afterDigits
  induction input with
  | nil => simp [takeWhile_isDigit hrest]
  | cons byte input ih =>
    by_cases hbyte : isDigit byte = true
    · simp only [List.cons_append, List.takeWhile_cons, List.dropWhile_cons, hbyte, if_true,
        List.map_cons]
      exact ⟨congrArg _ ih.1, ih.2⟩
    · simp [hbyte]

/-- The digits of a number end where the bytes after it start. -/
theorem leadingDigits_repr (n : Nat) {rest : Bytes} (hrest : EndsNumber rest) :
    leadingDigits (Text.bytes (Nat.repr n) ++ rest) = (Text.bytes (Nat.repr n)).map digitValue ∧
      afterDigits (Text.bytes (Nat.repr n) ++ rest) = rest := by
  have hdigits := isDigit_of_mem_bytes_repr n
  obtain ⟨htake, hdrop⟩ := takeWhile_isDigit hrest
  unfold leadingDigits afterDigits
  rw [List.takeWhile_append_of_pos hdigits, List.dropWhile_append_of_pos hdigits, htake, hdrop,
    List.append_nil]
  exact ⟨rfl, rfl⟩

/-- Reading more digits never makes a number smaller. -/
theorem le_digitsValue (value : Nat) (digits : List Nat) : value ≤ digitsValue value digits := by
  induction digits generalizing value with
  | nil => exact Nat.le_refl value
  | cons digit digits ih =>
    have hnext := ih (value * 10 + digit)
    rw [digitsValue] at hnext ⊢
    rw [List.foldl_cons]
    omega

/-- The digits of a number of 64 bits all fit. -/
theorem absorb_eq {value : Nat} {digits : List Nat}
    (hsmall : digitsValue value digits < UInt64.size) :
    absorb value digits = (digitsValue value digits, []) := by
  induction digits generalizing value with
  | nil => rfl
  | cons digit digits ih =>
    have hstep :
        digitsValue value (digit :: digits) = digitsValue (value * 10 + digit) digits := rfl
    rw [hstep] at hsmall ⊢
    have hfits := Nat.lt_of_le_of_lt (le_digitsValue (value * 10 + digit) digits) hsmall
    rw [absorb, if_pos hfits, ih hsmall]

/-- Whether a number is read up to the given bytes. -/
def ReadsNumber {bound : Nat} (read : Except ReadError (Parsed Number bound)) (number : Number)
    (rest : Bytes) : Prop :=
  ∃ less, read = .ok ⟨number, rest, less⟩

/-- What is read of a given text can be computed. -/
instance {bound : Nat} (read : Except ReadError (Parsed Number bound)) (number : Number)
    (rest : Bytes) : Decidable (ReadsNumber read number rest) :=
  match read with
  | .error _ => isFalse fun ⟨_, hread⟩ => nomatch hread
  | .ok parsed =>
    if hparsed : parsed.value = number ∧ parsed.rest = rest then
      isTrue ⟨hparsed.2 ▸ parsed.short, by obtain ⟨rfl, rfl⟩ := hparsed; rfl⟩
    else
      isFalse fun ⟨_, hread⟩ => hparsed (by obtain rfl := Except.ok.inj hread; exact ⟨rfl, rfl⟩)

/-- Bytes that do not go on with a number have no exponent part. -/
theorem readScale_of_endsNumber {bound significand : Nat} {negative : Bool} {shift : Int}
    {rest : Bytes} (hrest : EndsNumber rest) (short : rest.length < bound) :
    readScale bound negative significand shift rest short =
      finishNumber ((scaled? significand shift).map (signed negative)) rest short := by
  cases rest with
  | nil => simp only [readScale]
  | cons byte rest =>
    obtain ⟨-, -, hmark⟩ := hrest byte rfl
    simp only [readScale, hmark, Bool.false_eq_true, if_false]

/-- Bytes that do not go on with a number have neither fraction nor exponent part, so the whole
part is the number, with a scale where its digits do not all fit. -/
theorem readAfterWhole_of_endsNumber {bound : Nat} {negative : Bool} {digits : List Nat}
    {rest : Bytes} (hrest : EndsNumber rest) (short : rest.length < bound) :
    readAfterWhole bound negative digits rest short =
      if (absorb 0 digits).2.isEmpty then
        finishNumber (wholeNumber negative (absorb 0 digits).1) rest short
      else
        readScale bound negative (absorb 0 digits).1 (absorb 0 digits).2.length rest short := by
  cases rest with
  | nil => simp only [readAfterWhole]
  | cons byte rest =>
    obtain ⟨-, hpoint, hmark⟩ := hrest byte rfl
    simp only [readAfterWhole, if_neg hpoint, hmark, Bool.false_or]
    cases (absorb 0 digits).2.isEmpty <;> rfl

/-- The digits of a number of 64 bits are read as the number. -/
theorem readDigits_repr {bound n : Nat} {negative : Bool} {number : Number} {rest : Bytes}
    (hn : n < UInt64.size) (hnumber : wholeNumber negative n = some number)
    (hrest : EndsNumber rest) (fits : (Text.bytes (Nat.repr n) ++ rest).length ≤ bound) :
    ReadsNumber (readDigits bound negative (Text.bytes (Nat.repr n) ++ rest) fits) number rest := by
  obtain ⟨hdigits, hafter⟩ := leadingDigits_repr n hrest
  obtain ⟨first, others, hhead, hnonzero, hzero⟩ := head_bytes_repr n
  have hvalue := digitsValue_repr n
  rw [hhead] at hdigits hvalue
  have hcanonical : ¬((first :: others).head? = some 0 ∧ 1 < (first :: others).length) := by
    rintro ⟨hfirst, hlength⟩
    by_cases hn : n = 0
    · simp [hzero hn] at hlength
    · exact hnonzero hn (Option.some.inj hfirst)
  have habsorbed : absorb 0 (first :: others) = (n, []) := by
    rw [absorb_eq (hvalue ▸ hn), hvalue]
  have hshort : rest.length < bound := by
    have hdecreases := length_afterDigits_lt (hdigits ▸ List.cons_ne_nil first others)
    rw [hafter] at hdecreases
    exact Nat.lt_of_lt_of_le hdecreases fits
  refine ⟨hshort, ?_⟩
  rw [readDigits]
  simp only [hdigits, hafter, reduceCtorEq, dite_false, if_neg hcanonical]
  rw [readAfterWhole_of_endsNumber hrest, habsorbed, if_pos List.isEmpty_nil, hnumber]
  rfl

section Continuation

variable {bound wider : Nat} {negative : Bool} {number : Number} {input rest after : Bytes}

/-- A finished number stays the same when bytes follow. -/
theorem finishNumber_append {made : Option Number} {short : input.length < bound}
    (hread : ReadsNumber (finishNumber made input short) number after)
    (wide : (input ++ rest).length < wider) :
    ReadsNumber (finishNumber made (input ++ rest) wide) number (after ++ rest) := by
  obtain ⟨less, hread⟩ := hread
  cases made with
  | none => cases hread
  | some value =>
    obtain ⟨rfl, rfl⟩ := Parsed.mk.inj (Except.ok.inj hread)
    exact ⟨wide, rfl⟩

/-- The sign of an exponent stays the same when bytes follow. -/
theorem exponentSign_append (hinput : input ≠ []) :
    exponentSign (input ++ rest) = ((exponentSign input).1, (exponentSign input).2 ++ rest) := by
  cases input with
  | nil => exact absurd rfl hinput
  | cons byte input =>
    simp only [List.cons_append, exponentSign]
    split_ifs <;> rfl

/-- An exponent part stays the same when bytes follow that do not go on with it. -/
theorem readExponent_append {significand : Nat} {shift : Int} {short : input.length < bound}
    (hread : ReadsNumber (readExponent bound negative significand shift input short) number after)
    (hrest : EndsNumber rest) (wide : (input ++ rest).length < wider) :
    ReadsNumber (readExponent wider negative significand shift (input ++ rest) wide) number
      (after ++ rest) := by
  have hinput : input ≠ [] := by
    rintro rfl
    obtain ⟨less, hread⟩ := hread
    cases hread
  obtain ⟨hleading, hafter⟩ := leadingDigits_append (exponentSign input).2 hrest
  unfold readExponent at hread ⊢
  simp only [exponentSign_append hinput, hleading, hafter]
  cases hdigits : leadingDigits (exponentSign input).2 with
  | nil =>
    simp only [hdigits] at hread
    obtain ⟨less, hread⟩ := hread
    cases hread
  | cons first others =>
    simp only [hdigits] at hread ⊢
    exact finishNumber_append hread _

/-- What follows the digits of a number stays the same when bytes follow that do not go on with
it. -/
theorem readScale_append {significand : Nat} {shift : Int} {short : input.length < bound}
    (hread : ReadsNumber (readScale bound negative significand shift input short) number after)
    (hrest : EndsNumber rest) (wide : (input ++ rest).length < wider) :
    ReadsNumber (readScale wider negative significand shift (input ++ rest) wide) number
      (after ++ rest) := by
  cases input with
  | nil =>
    rw [List.nil_append] at wide
    rw [readScale_of_endsNumber endsNumber_nil] at hread
    simp only [List.nil_append, readScale_of_endsNumber hrest]
    exact finishNumber_append hread wide
  | cons byte input =>
    simp only [List.cons_append, readScale] at hread ⊢
    split_ifs at hread ⊢ with hmark
    · exact readExponent_append hread hrest _
    · exact finishNumber_append hread _

/-- A fraction stays the same when bytes follow that do not go on with it. -/
theorem readFraction_append {significand shift : Nat} {short : input.length < bound}
    (hread : ReadsNumber (readFraction bound negative significand shift input short) number after)
    (hrest : EndsNumber rest) (wide : (input ++ rest).length < wider) :
    ReadsNumber (readFraction wider negative significand shift (input ++ rest) wide) number
      (after ++ rest) := by
  obtain ⟨hleading, hafter⟩ := leadingDigits_append input hrest
  unfold readFraction at hread ⊢
  simp only [hleading, hafter]
  cases hdigits : leadingDigits input with
  | nil =>
    simp only [hdigits] at hread
    obtain ⟨less, hread⟩ := hread
    cases hread
  | cons first others =>
    simp only [hdigits] at hread ⊢
    exact readScale_append hread hrest _

/-- A number stays the same after its whole part when bytes follow that do not go on with it. -/
theorem readAfterWhole_append {digits : List Nat} {short : input.length < bound}
    (hread : ReadsNumber (readAfterWhole bound negative digits input short) number after)
    (hrest : EndsNumber rest) (wide : (input ++ rest).length < wider) :
    ReadsNumber (readAfterWhole wider negative digits (input ++ rest) wide) number
      (after ++ rest) := by
  cases input with
  | nil =>
    rw [List.nil_append] at wide
    rw [readAfterWhole_of_endsNumber endsNumber_nil] at hread
    simp only [List.nil_append, readAfterWhole_of_endsNumber hrest]
    split_ifs at hread ⊢
    · exact finishNumber_append hread wide
    · exact readScale_append hread hrest wide
  | cons byte input =>
    simp only [List.cons_append, readAfterWhole] at hread ⊢
    split_ifs at hread ⊢ with hpoint hscale
    · exact readFraction_append hread hrest _
    · exact readScale_append hread hrest wide
    · exact finishNumber_append hread _

/-- The number that is read of digits stays the same when bytes follow that do not go on with it. -/
theorem readDigits_append {fits : input.length ≤ bound}
    (hread : ReadsNumber (readDigits bound negative input fits) number after)
    (hrest : EndsNumber rest) (wide : (input ++ rest).length ≤ wider) :
    ReadsNumber (readDigits wider negative (input ++ rest) wide) number (after ++ rest) := by
  obtain ⟨hleading, hafter⟩ := leadingDigits_append input hrest
  unfold readDigits at hread ⊢
  simp only [hleading, hafter]
  split_ifs at hread ⊢
  · obtain ⟨less, hread⟩ := hread
    cases hread
  · obtain ⟨less, hread⟩ := hread
    cases hread
  · exact readAfterWhole_append hread hrest _

end Continuation

end ModuleInspector.Json
