import UtilityCss.Text.Basic

/-!
# Declarations

A declaration gives a CSS property a value.
-/

namespace UtilityCss

/-- A CSS property and its value. -/
structure Declaration where
  property : Text
  value : Text
  deriving DecidableEq

namespace Declaration

/-- A declaration as it is written in a rule. -/
def render (declaration : Declaration) : Text :=
  declaration.property ++ ": ".toList ++ declaration.value

end Declaration

end UtilityCss
