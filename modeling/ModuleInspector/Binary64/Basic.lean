/-!
# Binary64 numbers

A double-precision number is its word of 64 bits: a sign, eleven bits of biased exponent and a
fraction of 52 bits. Magnitudes are counted in units of `2 ^ -1074`, the least positive double,
so a finite double is a natural number of units and rounding is exact integer arithmetic.

The results of the operations are finite by construction: rounding fails where the nearest
double would be an infinity.
-/

namespace ModuleInspector

/-- A double-precision number by its bits. -/
structure Binary64 where
  bits : UInt64
  deriving DecidableEq

namespace Binary64

/-- The eleven exponent bits. -/
def biasedExponent (x : Binary64) : Nat := x.bits.toNat / Nat.pow 2 52 % Nat.pow 2 11

/-- The 52 fraction bits. -/
def fraction (x : Binary64) : Nat := x.bits.toNat % Nat.pow 2 52

/-- Whether the sign bit is set. -/
def isNegative (x : Binary64) : Bool := Nat.pow 2 63 ≤ x.bits.toNat

/-- Whether the word encodes a number, and neither an infinity nor an undefined result. -/
def isFinite (x : Binary64) : Bool := x.biasedExponent < 2047

/-- The fraction with the implicit leading bit of a normal number. -/
def significand (x : Binary64) : Nat :=
  if x.biasedExponent = 0 then x.fraction else Nat.pow 2 52 + x.fraction

/-- The power of two that scales the significand to units. -/
def scale (x : Binary64) : Nat := x.biasedExponent - 1

/-- The magnitude of a finite number in units of `2 ^ -1074`. -/
def units (x : Binary64) : Nat := x.significand * Nat.pow 2 x.scale

/-- The units in one. -/
def unitsPerOne : Nat := Nat.pow 2 1074

/-- The word of the magnitude `significand * 2 ^ scale`, where the significand is at least
`2 ^ 52` or the scale is zero. -/
def ofParts (significand scale : Nat) : Binary64 :=
  ⟨UInt64.ofNat (scale * Nat.pow 2 52 + significand)⟩

/-- Positive zero. -/
def zero : Binary64 := ⟨0⟩

/-- The number with the opposite sign. -/
def neg (x : Binary64) : Binary64 := ⟨x.bits ^^^ 0x8000000000000000⟩

/-- The natural number nearest to a quotient, the even one of two equally near. -/
def divNearest (numerator denominator : Nat) : Nat :=
  let quotient := numerator / denominator
  let doubled := 2 * (numerator % denominator)
  if denominator < doubled ∨ (doubled = denominator ∧ quotient % 2 = 1) then quotient + 1
  else quotient

/-- The double nearest to a quotient of units, with an even significand of two equally near;
none when that is an infinity. -/
def nearest? (numerator denominator : Nat) : Option Binary64 :=
  let scale := (numerator / denominator).log2 - 52
  let significand := divNearest numerator (denominator * Nat.pow 2 scale)
  if scale * Nat.pow 2 52 + significand < 2047 * Nat.pow 2 52 then
    some (ofParts significand scale)
  else none

/-- The double nearest to a natural number. -/
def ofNat? (n : Nat) : Option Binary64 := nearest? (n * unitsPerOne) 1

/-- The double nearest to the product of two magnitudes. -/
def mul? (x y : Binary64) : Option Binary64 := nearest? (x.units * y.units) unitsPerOne

/-- The double nearest to the quotient of two magnitudes. -/
def div? (x y : Binary64) : Option Binary64 := nearest? (x.units * unitsPerOne) y.units

/-- Ten to the power of `exponent` as a double. -/
def powerOfTen? (exponent : Nat) : Option Binary64 := ofNat? (Nat.pow 10 exponent)

end Binary64

end ModuleInspector
