import ModuleInspector.Binary64.Basic

/-!
# Shortest decimals

The decimal of a double has the fewest significant digits that read back as the same double. Of
two decimals with that many digits the nearer one is taken; which of two equally near ones is
left to the format that writes it.

A decimal reads back when it lies between the midpoints to the two neighbouring doubles; the
midpoints themselves count when the significand is even. All bounds are kept in quarters of a
unit, so that each of them is a natural number.
-/

namespace ModuleInspector

/-- The number `digits * 10 ^ exponent`. -/
structure Decimal where
  digits : Nat
  exponent : Int
  deriving DecidableEq

namespace Decimal

/-- The decimal without trailing zeros among its digits. -/
def strip (d : Decimal) : Decimal :=
  if _h : d.digits % 10 = 0 ∧ d.digits ≠ 0 then strip ⟨d.digits / 10, d.exponent + 1⟩ else d
termination_by d.digits
decreasing_by omega

/-- All digits written out around the point, without a point when there is no fraction. -/
def positional (d : Decimal) : String :=
  let digits := (Nat.repr d.digits).toList
  if 0 ≤ d.exponent then String.ofList (digits ++ List.replicate d.exponent.toNat '0')
  else
    let places := (-d.exponent).toNat
    let padded := List.replicate (places + 1 - digits.length) '0' ++ digits
    let whole := padded.length - places
    String.ofList (padded.take whole ++ '.' :: padded.drop whole)

end Decimal

/-- The choice between two equally near decimals. -/
inductive Tie
  | larger
  | even
  deriving DecidableEq

namespace Binary64

/-- The quarters of a unit in one. -/
def quartersPerOne : Nat := 4 * unitsPerOne

/-- The least and greatest magnitude, in quarters of a unit, that read back as the double. -/
def readBack (x : Binary64) : Nat × Nat :=
  let step := Nat.pow 2 x.scale
  let below := if x.fraction = 0 ∧ 0 < x.scale then step else 2 * step
  (4 * x.units - below, 4 * x.units + 2 * step)

/-- The decimal place of the leading digit of a positive magnitude in quarters of a unit. -/
def leadingPlace (quarters : Nat) : Int :=
  if quartersPerOne ≤ quarters then ((Nat.repr (quarters / quartersPerOne)).length : Int) - 1
  else
    let shift := (List.range 400).find? (fun n => quartersPerOne ≤ quarters * Nat.pow 10 n)
    Int.negOfNat (shift.getD 0)

/-- The decimal on the grid of multiples of `10 ^ place` that reads back as the double and is
nearest to it. -/
def onGrid? (tie : Tie) (x : Binary64) (place : Int) : Option Decimal :=
  let up := Nat.pow 10 (-place).toNat
  let unit := Nat.pow 10 place.toNat * quartersPerOne
  let value := 4 * x.units * up
  let low := x.readBack.1 * up
  let high := x.readBack.2 * up
  let reads := fun digits : Nat =>
    if x.fraction % 2 = 0 then low ≤ digits * unit ∧ digits * unit ≤ high
    else low < digits * unit ∧ digits * unit < high
  let digits := value / unit
  let down := value - digits * unit
  let larger := down > unit - down ∨ (down = unit - down ∧ (tie = .larger ∨ digits % 2 = 1))
  if reads digits ∧ ¬(reads (digits + 1) ∧ larger) then some ⟨digits, place⟩
  else if reads (digits + 1) then some ⟨digits + 1, place⟩
  else none

/-- The shortest decimal of the magnitude of a finite double. -/
def shortest (tie : Tie) (x : Binary64) : Decimal :=
  if x.units = 0 then ⟨0, 0⟩
  else
    let leading := leadingPlace (4 * x.units)
    let found := (List.range 17).findSome? fun (n : Nat) => x.onGrid? tie (leading - (n : Int))
    (found.getD ⟨0, 0⟩).strip

/-- The minus of a double whose sign bit is set. -/
def sign (x : Binary64) : String := if x.isNegative then "-" else ""

/-- The text of a double: its sign and the shortest decimal in positional form, without a fraction
when it is a whole number. An infinity is written by its name, and so is an undefined result, which
has no sign. -/
def text (x : Binary64) : String :=
  if x.isFinite then x.sign ++ (x.shortest .larger).positional
  else if x.fraction = 0 then x.sign ++ "inf"
  else "NaN"

end Binary64

end ModuleInspector
