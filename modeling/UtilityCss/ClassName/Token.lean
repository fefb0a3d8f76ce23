import UtilityCss.Text.Basic

/-!
# Tokens of class names

A class name such as `hover:border-2px/red` is taken apart into a scope (`hover`), a type
(`border`), a primary quantity (`2px`) and possibly a secondary quantity (`red`).
-/

namespace UtilityCss

/-- A value and the unit written after it. -/
structure Quantity where
  value : Text
  unit : Text
  deriving DecidableEq

namespace Quantity

/-- A quantity as it is written in a class name. -/
def render (quantity : Quantity) : Text :=
  quantity.value ++ quantity.unit

end Quantity

/-- The parts of a class name. -/
structure ClassToken where
  scope : Option Text
  kind : Text
  primary : Quantity
  secondary : Option Quantity
  deriving DecidableEq

namespace ClassToken

/-- A token is of a bracketed kind when its type lists properties instead of naming a type token. -/
def isBracketKind (token : ClassToken) : Bool :=
  Text.isBetween '[' ']' token.kind

/-- A class name without the scope that the token found in it. -/
def bareName (token : ClassToken) (className : Text) : Text :=
  match token.scope with
  | some scope => className.drop (scope.length + 1)
  | none => className

/-- The class name that a token was read from. -/
def render (token : ClassToken) : Text :=
  (match token.scope with
    | some scope => scope ++ [':']
    | none => []) ++
  token.kind ++ '-' :: token.primary.render ++
  (match token.secondary with
    | some secondary => '/' :: secondary.render
    | none => [])

end ClassToken

end UtilityCss
