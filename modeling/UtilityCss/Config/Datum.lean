import UtilityCss.Decimal.Real

/-!
# Data of unknown shape

Where a configuration admits more than one shape, a document is first read as a datum: a tree that
keeps what the document says, with entries in order and repeated keys. Naturals are counted apart
from integers that were written with a minus sign.
-/

namespace UtilityCss

/-- What a document says, without regard to what is expected of it. -/
inductive Datum where
  | null
  | bool (value : Bool)
  | natural (value : Nat)
  | integer (value : Int)
  | real (value : Real)
  | text (value : Text)
  | list (items : List Datum)
  | map (entries : List (Datum × Datum))

end UtilityCss
