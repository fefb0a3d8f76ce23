import UtilityCss.Config.Datum
import UtilityCss.Json.Value

/-!
# JSON numbers

A number without point and exponent is an integer when 64 bits hold it. Any other number is computed
in floating point from a significand of at most 64 bits: digits that no longer fit are dropped, and
the significand is then multiplied by or divided by a power of ten. Each step rounds, so the result
may differ in its last bit from the nearest number; a result beyond the range is refused.
-/

namespace UtilityCss

namespace JsonNumber

/-- The bound of the significand: 64 bits. -/
def significandBound : Nat := bitBound 64

def digitValue (c : Char) : Nat :=
  c.toNat - '0'.toNat

/-- Appends digits to a significand as long as 64 bits hold it, and gives the digits left over. -/
def accumulate (significand : Nat) : Text → Nat × Text
  | [] => (significand, [])
  | c :: rest =>
    let next := significand * 10 + digitValue c
    if next < significandBound then accumulate next rest else (significand, c :: rest)

/-- Scales a magnitude by a power of ten: at most 308 places at a time. -/
def scaleFrom : (rounds : Nat) → Binary → Int → Option Binary
  | 0, magnitude, _ => some magnitude
  | rounds + 1, magnitude, exponent =>
    if 0 ≤ exponent then
      if exponent ≤ 308 then
        (Binary.ofDecimal? 1 exponent).bind magnitude.mul?
      else if magnitude.mantissa = 0 then some magnitude else none
    else if -308 ≤ exponent then
      (Binary.ofDecimal? 1 (-exponent)).bind magnitude.div?
    else if magnitude.mantissa = 0 then
      some magnitude
    else
      ((Binary.ofDecimal? 1 308).bind magnitude.div?).bind fun smaller =>
        scaleFrom rounds smaller (exponent + 308)

/-- A significand times a power of ten. Four rounds exhaust every magnitude. -/
def scale (significand : Nat) (exponent : Int) : Option Binary :=
  (Binary.nearest? significand 1).bind fun magnitude => scaleFrom 4 magnitude exponent

/-- The bound of an exponent that is computed with: 31 bits. -/
def exponentBound : Nat := bitBound 31

/-- An exponent, kept within 32 bits with a sign. -/
def clampExponent (exponent : Int) : Int :=
  max (-(exponentBound : Int)) (min exponent (exponentBound - 1))

/-- The significand of a number, and the power of ten that its digits leave open. -/
def parts (number : JsonNumber) : Nat × Int :=
  let (significand, dropped) := accumulate 0 number.whole
  let (significand, left) := accumulate significand (number.fraction.getD [])
  let used := (number.fraction.getD []).length - left.length
  (significand, (dropped.length : Int) - (used : Int))

/-- The magnitude of a number with a point, an exponent or too many digits. -/
def magnitude? (number : JsonNumber) : Option Binary :=
  let (significand, places) := number.parts
  match number.exponent with
  | none => scale significand places
  | some (negative, digits) =>
    let written := Real.digitsValue digits
    if exponentBound ≤ written then
      if significand ≠ 0 && !negative then none else some Binary.zero
    else
      scale significand (clampExponent (if negative then places - written else places + written))

/-- What a number says; nothing when it lies beyond the range. -/
def datum? (number : JsonNumber) : Option Datum :=
  let value := Real.digitsValue number.whole
  let isInteger := number.fraction.isNone && number.exponent.isNone && value < significandBound
  if isInteger && !number.negative then
    some (.natural value)
  else if isInteger && 0 < value && value ≤ bitBound 63 then
    some (.integer (-(value : Int)))
  else
    number.magnitude?.map fun magnitude => .real (.finite number.negative magnitude)

end JsonNumber

end UtilityCss
