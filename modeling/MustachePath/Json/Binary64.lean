import MustachePath.Text.Basic

/-!
# Finite binary floating-point numbers of 64 bits

A number is a sign, a significand below `2 ^ 53` and a shift: its magnitude is
`significand * 2 ^ shift` in units of `2 ^ -1074`, the smallest positive number of the format.
Rounding a quotient of natural numbers to the nearest of these numbers, ties to the even
significand, gives all arithmetic. No machine float takes part.
-/

namespace MustachePath

/-- A finite number of the format. -/
structure Binary64 where
  negative : Bool
  significand : Nat
  shift : Nat
deriving DecidableEq, Repr

namespace Binary64

/-- How many of the smallest units make one. -/
def unitsPerOne : Nat := Nat.pow 2 1074

/-- The largest shift of a finite number. -/
def maxShift : Nat := 2045

/-- The magnitude in the smallest units. -/
def units (x : Binary64) : Nat := x.significand * Nat.pow 2 x.shift

/-- The value in the smallest units, in which both zeros are equal. -/
def signedUnits (x : Binary64) : Int := if x.negative then -(x.units : Int) else x.units

/-- A quotient rounded to the nearest natural number, ties to the even one. -/
def roundQuotient (num den : Nat) : Nat :=
  let q := num / den
  let r := num % den
  if den < 2 * r ∨ (2 * r = den ∧ q % 2 = 1) then q + 1 else q

/-- The number nearest to a quotient of natural numbers, unless it is too large. -/
def ofQuotient? (negative : Bool) (num den : Nat) : Option Binary64 :=
  let scaled := num * unitsPerOne
  let shift := Nat.log2 (scaled / den) - 52
  let significand := roundQuotient scaled (den * Nat.pow 2 shift)
  let x : Binary64 :=
    if significand = Nat.pow 2 53 then ⟨negative, Nat.pow 2 52, shift + 1⟩
    else ⟨negative, significand, shift⟩
  if x.shift ≤ maxShift then some x else none

/-- Zero with a sign. -/
def zero (negative : Bool) : Binary64 := ⟨negative, 0, 0⟩

/-- Whether a number is zero. -/
def isZero (x : Binary64) : Bool := x.significand = 0

/-- The number nearest to an integer of 64 bits. -/
def ofInt (n : Int) : Binary64 := (ofQuotient? (n < 0) n.natAbs 1).getD (zero false)

/-- The rounded product of magnitudes, with a sign, unless it is too large. -/
def mul? (x y : Binary64) : Option Binary64 :=
  ofQuotient? (x.negative != y.negative) (x.units * y.units) (unitsPerOne * unitsPerOne)

/-- The rounded quotient by a number other than zero. -/
def div? (x y : Binary64) : Option Binary64 :=
  ofQuotient? (x.negative != y.negative) x.units y.units

/-- The number with a given sign. -/
def withSign (negative : Bool) (x : Binary64) : Binary64 := { x with negative := negative }

/-- The number nearest to digits times a power of ten, unless it is too large. Exponents so large
or so small that they decide the result are not computed. -/
def ofDecimal? (negative : Bool) (digits : Nat) (exponent : Int) : Option Binary64 :=
  if digits = 0 then some (zero negative)
  else
    let magnitude : Int := exponent + Nat.log2 digits / 3
    if 400 < exponent then none
    else if magnitude < -800 then some (zero negative)
    else if 0 ≤ exponent then ofQuotient? negative (digits * Nat.pow 10 exponent.toNat) 1
    else ofQuotient? negative digits (Nat.pow 10 (-exponent).toNat)

/-- The order of values, in which both zeros are equal. -/
def compare (x y : Binary64) : Ordering :=
  if x.signedUnits < y.signedUnits then .lt
  else if y.signedUnits < x.signedUnits then .gt
  else .eq

end Binary64

end MustachePath
