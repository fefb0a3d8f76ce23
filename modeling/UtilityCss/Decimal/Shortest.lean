import UtilityCss.Decimal.Binary

/-!
# Shortest decimals

A magnitude is written with the fewest decimal digits that read back as it. Among decimals of that
length the nearest one is taken, and the larger one of two that are equally near. The search tests
grids of one, two, and up to seventeen digits; on each grid only the two neighbours of the magnitude
can read back first.
-/

namespace UtilityCss

/-- The decimal number `digits * 10 ^ exponent`. -/
structure Decimal where
  digits : Nat
  exponent : Int
  deriving DecidableEq

namespace Decimal

/-- Compares `a * 10 ^ i` with `n * 2 ^ j`, exactly. -/
def compareScaled (a : Nat) (i : Int) (n : Nat) (j : Int) : Ordering :=
  compare (a * power 10 i * power 2 (-j)) (n * power 2 j * power 10 (-i))

/-- Whether a decimal lies among the numbers that round to a magnitude: between the halfway points
to its neighbours, ends included when the mantissa is even. -/
def readsBackAs (decimal : Decimal) (magnitude : Binary) : Bool :=
  let narrow := magnitude.mantissa == bitBound 52 && Binary.leastExponent < magnitude.exponent
  let low := if narrow then 4 * magnitude.mantissa - 1 else 4 * magnitude.mantissa - 2
  let high := 4 * magnitude.mantissa + 2
  let inclusive := magnitude.mantissa % 2 == 0
  let fromLow := compareScaled decimal.digits decimal.exponent low (magnitude.exponent - 2)
  let toHigh := compareScaled decimal.digits decimal.exponent high (magnitude.exponent - 2)
  (fromLow == .gt || (inclusive && fromLow == .eq)) &&
    (toHigh == .lt || (inclusive && toHigh == .eq))

/-- Whether a magnitude is smaller than a power of ten. -/
def isBelowPower (magnitude : Binary) (power : Int) : Bool :=
  compareScaled 1 power magnitude.mantissa magnitude.exponent == .gt

/-- The least power of ten above a magnitude, searched upwards. -/
def powerAboveFrom (magnitude : Binary) : (steps : Nat) → Int → Int
  | 0, power => power
  | steps + 1, power =>
    if isBelowPower magnitude power then power else powerAboveFrom magnitude steps (power + 1)

/-- The least power of ten above a magnitude. The search starts below it: a magnitude of `b` bits is
at least `10 ^ (b * 301 / 1000 - 3)`. -/
def powerAbove (magnitude : Binary) : Int :=
  let bits : Int := Nat.log2 magnitude.mantissa + magnitude.exponent
  powerAboveFrom magnitude 8 (bits * 301 / 1000 - 2)

/-- The nearer one of the neighbours of a magnitude on the grid of `10 ^ exponent`, among those that
read back; the upper one when both are equally near. -/
def onGrid? (magnitude : Binary) (exponent : Int) : Option Decimal :=
  let num := magnitude.mantissa * power 2 magnitude.exponent * power 10 (-exponent)
  let den := power 2 (-magnitude.exponent) * power 10 exponent
  let lower : Decimal := ⟨num / den, exponent⟩
  let upper : Decimal := ⟨num / den + 1, exponent⟩
  match lower.readsBackAs magnitude, upper.readsBackAs magnitude with
  | true, true => some (if 2 * (num % den) < den then lower else upper)
  | true, false => some lower
  | false, true => some upper
  | false, false => none

/-- The first grid on which a neighbour of a magnitude reads back. -/
def firstGrid? (magnitude : Binary) : (grids : Nat) → Int → Option Decimal
  | 0, _ => none
  | grids + 1, exponent =>
    (onGrid? magnitude exponent).or (firstGrid? magnitude grids (exponent - 1))

def exact (magnitude : Binary) : Decimal :=
  ⟨magnitude.mantissa * power 2 magnitude.exponent * power 5 (-magnitude.exponent),
    -((-magnitude.exponent).toNat : Int)⟩

/-- The shortest decimal that reads back as a magnitude. -/
def shortest (magnitude : Binary) : Decimal :=
  if magnitude.mantissa = 0 then
    ⟨0, 0⟩
  else
    (firstGrid? magnitude 17 (powerAbove magnitude - 1)).getD (exact magnitude)

end Decimal

end UtilityCss
