/-!
# Binary floating-point magnitudes

Numbers of a configuration become text through binary floating point with 53 significant bits. A
magnitude is held exactly, as a natural number times a power of two, so reading, multiplying and
dividing are arithmetic on naturals followed by one rounding: to the nearest magnitude, and to the
even one of two that are equally near.
-/

namespace UtilityCss

/-- A power whose exponent is an integer; it is one when the exponent is negative. A quotient takes
negative exponents into its denominator. -/
def power (base : Nat) (exponent : Int) : Nat :=
  Nat.pow base exponent.toNat

/-- The bound of the naturals with a number of bits. -/
def bitBound (bits : Nat) : Nat :=
  Nat.pow 2 bits

/-- The magnitude `mantissa * 2 ^ exponent`. A rounded magnitude has a mantissa below `2 ^ 53`, and
one below `2 ^ 52` only at the least exponent. -/
structure Binary where
  mantissa : Nat
  exponent : Int
  deriving DecidableEq

namespace Binary

/-- The exponent of the smallest magnitudes. -/
def leastExponent : Int := -1074

/-- The exponent of the largest magnitudes. -/
def greatestExponent : Int := 971

def zero : Binary := ⟨0, leastExponent⟩

/-- Numerator and denominator of `(num / den) / 2 ^ exponent`. -/
def scaled (num den : Nat) (exponent : Int) : Nat × Nat :=
  (num * power 2 (-exponent), den * power 2 exponent)

/-- The quotient rounded to the nearest natural, a half to the even one. -/
def roundDiv (num den : Nat) : Nat :=
  let quotient := num / den
  let twice := 2 * (num % den)
  if twice < den || (twice == den && quotient % 2 == 0) then quotient else quotient + 1

/-- The exponent at which `num / den` has 53 significant bits, or the least exponent. -/
def scaleOf (num den : Nat) : Int :=
  let guess := max leastExponent ((Nat.log2 num : Int) - (Nat.log2 den : Int) - 53)
  let (top, bottom) := scaled num den guess
  if bitBound 53 ≤ top / bottom then guess + 1 else guess

/-- The magnitude nearest to `num / den`; there is none when it is too large. -/
def nearest? (num den : Nat) : Option Binary :=
  if num = 0 then
    some zero
  else
    let exponent := scaleOf num den
    let (top, bottom) := scaled num den exponent
    let mantissa := roundDiv top bottom
    let rounded : Binary :=
      if mantissa = bitBound 53 then ⟨bitBound 52, exponent + 1⟩ else ⟨mantissa, exponent⟩
    if greatestExponent < rounded.exponent then none else some rounded

def fraction (magnitude : Binary) : Nat × Nat :=
  (magnitude.mantissa * power 2 magnitude.exponent, power 2 (-magnitude.exponent))

def mul? (left right : Binary) : Option Binary :=
  nearest? (left.fraction.1 * right.fraction.1) (left.fraction.2 * right.fraction.2)

def div? (left right : Binary) : Option Binary :=
  nearest? (left.fraction.1 * right.fraction.2) (left.fraction.2 * right.fraction.1)

/-- The magnitude nearest to `digits * 10 ^ exponent`. Powers that lie far beyond the range are
decided without being computed. -/
def ofDecimal? (digits : Nat) (exponent : Int) : Option Binary :=
  let size : Int := (Nat.toDigits 10 digits).length + exponent
  if digits = 0 || size < -400 then
    some zero
  else if 400 < size then
    none
  else
    nearest? (digits * power 10 exponent) (power 10 (-exponent))

end Binary

end UtilityCss
