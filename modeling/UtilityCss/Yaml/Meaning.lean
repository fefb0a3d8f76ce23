import UtilityCss.Config.Datum
import UtilityCss.Json.Quoted
import UtilityCss.Yaml.Node

/-!
# The meaning of scalars

A plain scalar without tag may mean null, a truth value, an integer or a real number; every other
scalar means its text, unless a tag says otherwise.
-/

namespace UtilityCss

namespace Yaml

namespace Meaning

/-- The tag of the common schema with the given name. -/
def commonTag (name : String) : Text :=
  "tag:yaml.org,2002:".toList ++ name.toList

/-- Whether a text is one of the given words. -/
def isWordOf (words : List String) (text : Text) : Bool :=
  words.any fun word => word.toList == text

/-- The words for null. -/
def isNull (text : Text) : Bool :=
  isWordOf ["null", "Null", "NULL", "~"] text

/-- The truth value that a word stands for. -/
def bool? (text : Text) : Option Bool :=
  if isWordOf ["true", "True", "TRUE"] text then some true
  else if isWordOf ["false", "False", "FALSE"] text then some false
  else none

/-- The value of digits in a radix; there must be at least one, and each must be below the radix. -/
def digits? (radix : Nat) (digits : Text) : Option Nat := do
  let values ← digits.mapM Json.hexValue?
  if values.isEmpty || values.any (radix ≤ ·) then
    none
  else
    some (values.foldl (fun value digit => value * radix + digit) 0)

/-- Whether a text is a zero and more digits, possibly behind a sign. Such a text is no number. -/
def isZeroPadded (text : Text) : Bool :=
  let unsigned := match text with
    | '+' :: rest => rest
    | '-' :: rest => rest
    | rest => rest
  match unsigned with
  | '0' :: c :: rest => (c :: rest).all Char.isDigit
  | _ => false

/-- The value of a number without sign: hexadecimal, octal or binary behind its mark, else decimal.
-/
def magnitude? : Text → Option Nat
  | '0' :: 'x' :: rest => digits? 16 rest
  | '0' :: 'o' :: rest => digits? 8 rest
  | '0' :: 'b' :: rest => digits? 2 rest
  | text => if isZeroPadded text then none else digits? 10 text

/-- The value of a number with an optional plus sign. -/
def unsigned? : Text → Option Nat
  | '+' :: rest => magnitude? rest
  | text => magnitude? text

/-- What an integer says. Integers that 64 bits do not hold are refused as long as 128 bits hold
them; beyond, a text is no integer. -/
def integer (text : Text) : Outcome (Option Datum) :=
  match text with
  | '-' :: rest =>
    match magnitude? rest with
    | none => .ok none
    | some value =>
      if value ≤ bitBound 63 then .ok (some (.integer (-(value : Int))))
      else if value ≤ bitBound 127 then .error .unexpectedShape
      else .ok none
  | _ =>
    match unsigned? text with
    | none => .ok none
    | some value =>
      if value < bitBound 64 then .ok (some (.natural value))
      else if value < bitBound 128 then .error .unexpectedShape
      else .ok none

/-- The real number that a text stands for; a number that is too large is none. -/
def real? (text : Text) : Option Real :=
  let unsigned := match text with
    | '+' :: rest => rest
    | rest => rest
  if isWordOf [".inf", ".Inf", ".INF"] unsigned then some (.infinite false)
  else if isWordOf ["-.inf", "-.Inf", "-.INF"] text then some (.infinite true)
  else if isWordOf [".nan", ".NaN", ".NAN"] text then some .notANumber
  else match text with
    | '+' :: '+' :: _ => none
    | '+' :: '-' :: _ => none
    | _ => Real.readFinite? text

def ofPlain (text : Text) : Outcome Datum :=
  if text.isEmpty || isNull text then
    .ok .null
  else
    match bool? text with
    | some value => .ok (.bool value)
    | none =>
      (integer text).map fun
        | some datum => datum
        | none =>
          match if isZeroPadded text then none else real? text with
          | some value => .real value
          | none => .text text

/-- What a scalar says whose tag asks for something. -/
def required (value : Option Datum) : Outcome Datum :=
  match value with
  | some datum => .ok datum
  | none => .error .unexpectedShape

/-- Whether a tag belongs to the document alone and has no common meaning. -/
def isLocal (tag : Option Text) : Bool :=
  tag.any fun name => name.head? == some '!'

/-- What a scalar says. A tag of the common schema asks for its kind of value; other common tags ask
for text; local tags are refused. -/
def ofScalar (tag : Option Text) (style : ScalarStyle) (text : Text) : Outcome Datum :=
  match tag with
  | none => if style == .plain then ofPlain text else .ok (.text text)
  | some name =>
    if isLocal (some name) then .error .unexpectedShape
    else if name == commonTag "bool" then required ((bool? text).map .bool)
    else if name == commonTag "int" then (integer text).bind required
    else if name == commonTag "float" then required ((real? text).map .real)
    else if name == commonTag "null" then required (if isNull text then some .null else none)
    else .ok (.text text)

/-- The width that a scalar says where one may be left out. -/
def width (tag : Option Text) (style : ScalarStyle) (text : Text) : Outcome (Option UInt32) :=
  let isLeftOut := style == .plain && tag.isNone && (text.isEmpty || isNull text)
  if isLeftOut then
    .ok none
  else if style == .plain && tag == some (commonTag "null") then
    if isNull text then .ok none else .error .unexpectedShape
  else if style == .plain || (style == .literal && tag == some (commonTag "int")) then
    match unsigned? text with
    | some value =>
      if value < bitBound 32 then .ok (some value.toUInt32) else .error .unexpectedShape
    | none => .error .unexpectedShape
  else
    .error .unexpectedShape

end Meaning

end Yaml

end UtilityCss
