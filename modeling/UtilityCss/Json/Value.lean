import UtilityCss.Text.Basic

/-!
# JSON trees

A JSON tree keeps strings and numbers as they are written. A document may hold values that nobody
asks for, and these only have to be well formed: an escape that names half a character, or a number
beyond every range, is a fault only where the value is used.
-/

namespace UtilityCss

/-- A number as it is written: sign, digits before the point, digits behind it if there is one, and
the exponent with its sign if there is one. -/
structure JsonNumber where
  negative : Bool
  whole : Text
  fraction : Option Text
  exponent : Option (Bool × Text)
  deriving DecidableEq

/-- A JSON value. Strings are kept between their quotes, with escapes. -/
inductive Json where
  | null
  | bool (value : Bool)
  | number (value : JsonNumber)
  | string (raw : Text)
  | array (items : List Json)
  | object (members : List (Text × Json))

end UtilityCss
