import ModuleInspector.Binary64.Basic

/-!
# Finite doubles

Rounding never yields an infinity, and neither does a change of sign, so the operations on
doubles have finite results.
-/

namespace ModuleInspector.Binary64

/-- A word below that of infinity encodes a finite magnitude. -/
theorem isFinite_ofParts {significand scale : Nat}
    (hbound : scale * Nat.pow 2 52 + significand < 2047 * Nat.pow 2 52) :
    (ofParts significand scale).isFinite = true := by
  have hword : (ofParts significand scale).bits.toNat = scale * Nat.pow 2 52 + significand := by
    rw [ofParts, UInt64.toNat_ofNat_of_lt']
    have hsize : (2047 * Nat.pow 2 52 : Nat) < UInt64.size := by decide
    omega
  rw [isFinite, decide_eq_true_eq, biasedExponent, hword]
  have hexponent : (scale * Nat.pow 2 52 + significand) / Nat.pow 2 52 < 2047 :=
    (Nat.div_lt_iff_lt_mul (by decide)).mpr hbound
  exact Nat.lt_of_le_of_lt (Nat.mod_le _ _) hexponent

/-- The double nearest to a quotient is finite. -/
theorem isFinite_of_nearest? {numerator denominator : Nat} {x : Binary64}
    (hx : nearest? numerator denominator = some x) : x.isFinite = true := by
  dsimp only [nearest?] at hx
  split at hx
  · next hbound =>
    obtain rfl := Option.some.inj hx
    exact isFinite_ofParts hbound
  · cases hx

/-- Changing the sign keeps the exponent. -/
theorem isFinite_neg (x : Binary64) : x.neg.isFinite = x.isFinite := by
  have hexponent : x.neg.biasedExponent = x.biasedExponent := by
    have hmod : ∀ n : Nat, n / Nat.pow 2 52 % Nat.pow 2 11 = (n >>> 52) % 2 ^ 11 := by
      intro n
      have hshift : n >>> 52 = n / Nat.pow 2 52 := Nat.shiftRight_eq_div_pow n 52
      exact congrArg (· % Nat.pow 2 11) hshift.symm
    rw [biasedExponent, biasedExponent, neg, hmod, hmod, UInt64.toNat_xor,
      Nat.shiftRight_xor_distrib, Nat.xor_mod_two_pow]
    have hsign : (0x8000000000000000 : UInt64).toNat >>> 52 % 2 ^ 11 = 0 := by decide
    rw [hsign, Nat.xor_zero]
  rw [isFinite, isFinite, hexponent]

/-- The double nearest to a product is finite. -/
theorem isFinite_of_mul? {x y z : Binary64} (hz : x.mul? y = some z) : z.isFinite = true :=
  isFinite_of_nearest? hz

/-- The double nearest to a quotient of doubles is finite. -/
theorem isFinite_of_div? {x y z : Binary64} (hz : x.div? y = some z) : z.isFinite = true :=
  isFinite_of_nearest? hz

/-- The double nearest to a natural number is finite. -/
theorem isFinite_of_ofNat? {n : Nat} {x : Binary64} (hx : ofNat? n = some x) :
    x.isFinite = true :=
  isFinite_of_nearest? hx

end ModuleInspector.Binary64
