import MustachePath.Json.Binary64

/-!
# The shortest decimal that reads back

A floating-point number is written with the fewest digits that still round to it, and of those with
the digits nearest to it. The numbers that round to it form an interval, whose ends belong to it
when the significand is even. Grids of decimals are tried from the coarsest one; on each only the
two neighbours of the number matter.
-/

namespace MustachePath.Binary64

/-- A decimal is a number of digits times a power of ten. -/
structure Decimal where
  digits : Nat
  exponent : Int
deriving DecidableEq, Repr

/-- Four times the magnitude, and four times the ends of the interval that rounds to it, all in the
smallest units. Below a power of two the spacing halves. -/
def interval (x : Binary64) : Nat × Nat × Nat :=
  let quarter := Nat.pow 2 x.shift
  let value := 4 * x.significand * quarter
  let lower :=
    if x.significand = Nat.pow 2 52 ∧ 0 < x.shift then value - quarter else value - 2 * quarter
  (lower, value, value + 2 * quarter)

/-- Looks for a multiple of a power of ten in the interval of a number, and takes the nearest one,
of two equally near the even one. -/
def nearestOnGrid? (x : Binary64) (exponent : Int) : Option Nat :=
  let (lower, value, upper) := x.interval
  let scale := Nat.pow 10 (-exponent).toNat
  let grid := 4 * unitsPerOne * Nat.pow 10 exponent.toNat
  let below := value * scale / grid
  let inside (d : Nat) : Bool :=
    if x.significand % 2 = 0 then lower * scale ≤ d * grid && d * grid ≤ upper * scale
    else lower * scale < d * grid && d * grid < upper * scale
  let hasBelow := 0 < below && inside below
  let hasAbove := inside (below + 1)
  let toBelow := value * scale - below * grid
  let toAbove := (below + 1) * grid - value * scale
  if hasBelow && (!hasAbove || toBelow < toAbove || (toBelow == toAbove && below % 2 == 0)) then
    some below
  else if hasAbove then some (below + 1)
  else none

/-- The first decimal on the grids from a power of ten downwards. -/
def shortestFrom (x : Binary64) : Nat → Int → Decimal
  | 0, exponent => ⟨0, exponent⟩
  | n + 1, exponent =>
    match x.nearestOnGrid? exponent with
    | some d => ⟨d, exponent⟩
    | none => shortestFrom x n (exponent - 1)

/-- The shortest decimal that rounds to the magnitude of a number. Seventeen digits always suffice,
and the search begins at most three places above the first digit. -/
def shortest (x : Binary64) : Decimal :=
  if x.significand = 0 then ⟨0, 0⟩
  else
    let bits : Int := (Nat.log2 x.significand : Int) + x.shift - 1074
    shortestFrom x 24 (bits * 30103 / 100000 + 2)

/-- How floating-point numbers are written. -/
structure Format where
  /-- The smallest decimal exponent of the first digit that is written positionally. -/
  minPositional : Int
  /-- The largest decimal exponent of the first digit that is written positionally. -/
  maxPositional : Int

/-- A decimal in positional or in scientific form. Positional text always has a point. -/
def Format.write (f : Format) (d : Decimal) : Text :=
  let digits := Text.ofNat d.digits
  let first : Int := d.exponent + digits.length - 1
  if d.digits = 0 then ['0', '.', '0']
  else if f.minPositional ≤ first ∧ first ≤ f.maxPositional then
    if 0 ≤ d.exponent then digits ++ List.replicate d.exponent.toNat '0' ++ ['.', '0']
    else if 0 ≤ first then
      digits.take (first + 1).toNat ++ '.' :: digits.drop (first + 1).toNat
    else '0' :: '.' :: List.replicate (-first - 1).toNat '0' ++ digits
  else
    let mantissa :=
      match digits with
      | [] => []
      | [c] => [c]
      | c :: cs => c :: '.' :: cs
    mantissa ++ 'e' :: (if first < 0 then '-' else '+') :: Text.ofNat first.natAbs

end MustachePath.Binary64
