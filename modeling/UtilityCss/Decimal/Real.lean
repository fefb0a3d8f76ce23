import UtilityCss.Decimal.Shortest
import UtilityCss.Text.Basic

/-!
# Real numbers of documents

A real number of a document is a signed magnitude, an infinity or no number at all. It is written
positionally, without an exponent and without a point when nothing follows it.
-/

namespace UtilityCss

/-- A floating-point number. -/
inductive Real where
  | finite (negative : Bool) (magnitude : Binary)
  | infinite (negative : Bool)
  | notANumber
  deriving DecidableEq

namespace Decimal

/-- A decimal in positional digits. Zeros at the end of the digits are not written behind a point.
-/
def positional (decimal : Decimal) : Text :=
  let digits := Text.ofNat decimal.digits
  if 0 ≤ decimal.exponent then
    if decimal.digits = 0 then ['0'] else digits ++ List.replicate decimal.exponent.toNat '0'
  else
    let places := (-decimal.exponent).toNat
    let padded := List.replicate (places + 1 - digits.length) '0' ++ digits
    let whole := padded.take (padded.length - places)
    let part := (padded.drop (padded.length - places)).reverse.dropWhile (· == '0') |>.reverse
    if part.isEmpty then whole else whole ++ '.' :: part

end Decimal

namespace Real

/-- The minus sign of a negative number. -/
def sign (negative : Bool) : Text :=
  if negative then ['-'] else []

def render : Real → Text
  | finite negative magnitude => sign negative ++ (Decimal.shortest magnitude).positional
  | infinite negative => sign negative ++ "inf".toList
  | notANumber => "NaN".toList

def ofNat (n : Nat) : Real :=
  match Binary.nearest? n 1 with
  | some magnitude => finite false magnitude
  | none => infinite false

/-- The value of digits that are already known to be decimal. -/
def digitsValue (digits : Text) : Nat :=
  digits.foldl (fun value c => value * 10 + (c.toNat - '0'.toNat)) 0

/-- An optional sign in front of a text. -/
def splitSign : Text → Bool × Text
  | '-' :: rest => (true, rest)
  | '+' :: rest => (false, rest)
  | text => (false, text)

/-- An exponent part that is a whole text: a letter, an optional sign and digits. -/
def readExponent? : Text → Option Int
  | [] => some 0
  | c :: rest =>
    let (negative, digits) := splitSign rest
    if (c == 'e' || c == 'E') && !digits.isEmpty && digits.all Char.isDigit then
      let value : Int := digitsValue digits
      some (if negative then -value else value)
    else
      none

/-- A signed decimal with optional point and exponent that is a whole text. Digits must stand on at
least one side of the point. A number that is too large is no finite number and is refused. -/
def readFinite? (text : Text) : Option Real :=
  let (negative, body) := splitSign text
  let whole := body.takeWhile Char.isDigit
  let behindWhole := body.dropWhile Char.isDigit
  let behindPoint := match behindWhole with
    | '.' :: rest => rest
    | _ => []
  let part := behindPoint.takeWhile Char.isDigit
  let tail := match behindWhole with
    | '.' :: rest => rest.dropWhile Char.isDigit
    | rest => rest
  if whole.isEmpty && part.isEmpty then
    none
  else
    (readExponent? tail).bind fun exponent =>
      (Binary.ofDecimal? (digitsValue (whole ++ part)) (exponent - part.length)).map
        (finite negative)

end Real

end UtilityCss
