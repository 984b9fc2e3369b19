import Mathlib.Tactic.SplitIfs
import ModuleInspector.Json.Number
import ModuleInspector.Proofs.Binary64.Finite

/-!
# Finite numbers

A text whose number is too large for a double is malformed, so every number that is read is
finite.
-/

namespace ModuleInspector.Json

/-- Whether a number is finite, as whole numbers are. -/
def Number.IsFinite : Number → Prop
  | .float value => value.isFinite = true
  | _ => True

/-- A finite magnitude stays finite when it is divided by powers of ten. -/
theorem isFinite_of_divPowerOfTen? {x y : Binary64} {exponent : Nat} (hx : x.isFinite = true)
    (hy : divPowerOfTen? x exponent = some y) : y.isFinite = true := by
  fun_induction divPowerOfTen? x exponent with
  | case1 x exponent hsmall =>
    obtain ⟨power, -, hdiv⟩ := Option.bind_eq_some_iff.mp hy
    exact Binary64.isFinite_of_div? hdiv
  | case2 x exponent hlarge hzero =>
    obtain rfl := Option.some.inj hy
    exact hx
  | case3 x exponent hlarge hnonzero ih =>
    obtain ⟨smaller, hsmaller, hrest⟩ := Option.bind_eq_some_iff.mp hy
    obtain ⟨power, -, hdiv⟩ := Option.bind_eq_some_iff.mp hsmaller
    exact ih smaller (Binary64.isFinite_of_div? hdiv) hrest

/-- The double of a significand and a decimal exponent is finite. -/
theorem isFinite_of_scaled? {significand : Nat} {exponent : Int} {y : Binary64}
    (hy : scaled? significand exponent = some y) : y.isFinite = true := by
  obtain ⟨x, hx, hscaled⟩ := Option.bind_eq_some_iff.mp hy
  have hfinite := Binary64.isFinite_of_ofNat? hx
  split_ifs at hscaled
  · exact isFinite_of_divPowerOfTen? hfinite hscaled
  · obtain ⟨power, -, hmul⟩ := Option.bind_eq_some_iff.mp hscaled
    exact Binary64.isFinite_of_mul? hmul
  · obtain rfl := Option.some.inj hscaled
    exact hfinite

/-- The sign of a text keeps its number finite. -/
theorem isFinite_signed {negative : Bool} {x : Binary64} (hx : x.isFinite = true) :
    (signed negative x).IsFinite := by
  unfold signed Number.IsFinite
  cases negative with
  | false => exact hx
  | true => exact (Binary64.isFinite_neg x).trans hx

/-- The number of scaled digits with their sign is finite. -/
theorem isFinite_of_map_signed {negative : Bool} {significand : Nat} {exponent : Int}
    {number : Number}
    (hnumber : (scaled? significand exponent).map (signed negative) = some number) :
    number.IsFinite := by
  obtain ⟨x, hx, rfl⟩ := Option.map_eq_some_iff.mp hnumber
  exact isFinite_signed (isFinite_of_scaled? hx)

/-- A whole number is finite. -/
theorem isFinite_of_wholeNumber {negative : Bool} {value : Nat} {number : Number}
    (hnumber : wholeNumber negative value = some number) : number.IsFinite := by
  unfold wholeNumber at hnumber
  split_ifs at hnumber
  · obtain rfl := Option.some.inj hnumber
    exact trivial
  · obtain rfl := Option.some.inj hnumber
    exact trivial
  · obtain ⟨x, hx, rfl⟩ := Option.map_eq_some_iff.mp hnumber
    exact isFinite_signed (Binary64.isFinite_of_ofNat? hx)

/-- A number with an exponent part is finite. -/
theorem isFinite_of_exponentNumber {negative below : Bool} {significand written : Nat}
    {shift : Int} {number : Number}
    (hnumber : exponentNumber negative significand shift below written = some number) :
    number.IsFinite := by
  unfold exponentNumber at hnumber
  split_ifs at hnumber
  · obtain rfl := Option.some.inj hnumber
    exact isFinite_signed (by decide)
  · exact isFinite_of_map_signed hnumber
  · exact isFinite_of_map_signed hnumber

section Reading

variable {bound : Nat} {negative : Bool} {parsed : Parsed Number bound}

/-- A number that is finished is the one that was made of its digits. -/
theorem isFinite_of_finishNumber {number : Option Number} {rest : Bytes}
    {short : rest.length < bound} (hmade : ∀ made, number = some made → made.IsFinite)
    (hparsed : finishNumber number rest short = .ok parsed) : parsed.value.IsFinite := by
  unfold finishNumber at hparsed
  split at hparsed
  · cases hparsed
  · next value =>
    obtain rfl := Except.ok.inj hparsed
    exact hmade value rfl

/-- A number that is read up to its exponent part is finite. -/
theorem isFinite_of_readScale {significand : Nat} {shift : Int} {input : Bytes}
    {short : input.length < bound}
    (hparsed : readScale bound negative significand shift input short = .ok parsed) :
    parsed.value.IsFinite := by
  cases input with
  | nil =>
    dsimp only [readScale] at hparsed
    exact isFinite_of_finishNumber (fun _ => isFinite_of_map_signed) hparsed
  | cons byte rest =>
    dsimp only [readScale] at hparsed
    split at hparsed
    · dsimp only [readExponent] at hparsed
      split at hparsed
      · cases hparsed
      · exact isFinite_of_finishNumber (fun _ => isFinite_of_exponentNumber) hparsed
    · exact isFinite_of_finishNumber (fun _ => isFinite_of_map_signed) hparsed

/-- A number that is read up to its fraction is finite. -/
theorem isFinite_of_readFraction {significand shift : Nat} {input : Bytes}
    {short : input.length < bound}
    (hparsed : readFraction bound negative significand shift input short = .ok parsed) :
    parsed.value.IsFinite := by
  dsimp only [readFraction] at hparsed
  split at hparsed
  · cases hparsed
  · exact isFinite_of_readScale hparsed

/-- A number that is read up to its whole part is finite. -/
theorem isFinite_of_readAfterWhole {digits : List Nat} {input : Bytes}
    {short : input.length < bound}
    (hparsed : readAfterWhole bound negative digits input short = .ok parsed) :
    parsed.value.IsFinite := by
  cases input with
  | nil =>
    dsimp only [readAfterWhole] at hparsed
    split at hparsed
    · exact isFinite_of_finishNumber (fun _ => isFinite_of_wholeNumber) hparsed
    · exact isFinite_of_readScale hparsed
  | cons byte rest =>
    dsimp only [readAfterWhole] at hparsed
    split_ifs at hparsed
    · exact isFinite_of_readFraction hparsed
    · exact isFinite_of_readScale hparsed
    · exact isFinite_of_finishNumber (fun _ => isFinite_of_wholeNumber) hparsed

/-- A number that is read is finite. -/
theorem isFinite_of_readDigits {input : Bytes} {fits : input.length ≤ bound}
    (hparsed : readDigits bound negative input fits = .ok parsed) : parsed.value.IsFinite := by
  unfold readDigits at hparsed
  split_ifs at hparsed
  exact isFinite_of_readAfterWhole hparsed

end Reading

end ModuleInspector.Json
