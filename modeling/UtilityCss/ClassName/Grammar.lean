import UtilityCss.ClassName.Form
import UtilityCss.ClassName.Token

/-!
# The grammar of class names

A class name is an optional scope and a colon, a type and a hyphen, a quantity, and optionally a
slash and a second quantity. The types are the registered type tokens and bracketed lists. Type
tokens are tried longest first, so that `bg-image` has its say before `bg`; a type token wins only
when a complete value follows it, and no character may be left over.
-/

namespace UtilityCss

/-- A reader of class names: the type tokens in the order in which they are tried. -/
structure Grammar where
  types : List Text
  deriving DecidableEq

namespace Grammar

/-- Puts a type token in front of the first one that is not longer. -/
def insertType (token : Text) : List Text → List Text
  | [] => [token]
  | other :: rest =>
    if other.byteLength ≤ token.byteLength then
      token :: other :: rest
    else
      other :: insertType token rest

/-- Longer type tokens come first; tokens of equal length keep their order. -/
def ofTypes (types : List Text) : Grammar :=
  ⟨types.foldr insertType []⟩

/-- A character of a scope: an ASCII letter, an ASCII digit or a hyphen. -/
def isScopeChar (c : Char) : Bool :=
  c.isAlphanum || c == '-'

/-- A character of a unit: an ASCII letter or the percent sign. -/
def isUnitChar (c : Char) : Bool :=
  c.isAlpha || c == '%'

/-- Cuts a class name at its first colon when what stands before the colon is a scope. -/
def splitScope? (className : Text) : Option (Text × Text) :=
  match ValueForm.cutWhile (· != ':') className with
  | (scope, ':' :: bare) =>
    if !scope.isEmpty && scope.all isScopeChar then some (scope, bare) else none
  | _ => none

/-- Cuts a quantity whose value has the given form. -/
def cutQuantity? (form : ValueForm) (text : Text) : Option (Quantity × Text) :=
  (form.cut? text).map fun (value, rest) =>
    let (unit, tail) := ValueForm.cutWhile isUnitChar rest
    (⟨value, unit⟩, tail)

/-- Reads a whole text as one quantity, by the first form that leaves nothing over. -/
def readQuantity? (text : Text) : Option Quantity :=
  ValueForm.all.findSome? fun form =>
    match cutQuantity? form text with
    | some (quantity, []) => some quantity
    | _ => none

/-- Reads a whole text as a quantity of the given form and an optional second quantity. -/
def readValuesAs? (form : ValueForm) (text : Text) : Option (Quantity × Option Quantity) :=
  match cutQuantity? form text with
  | some (primary, []) => some (primary, none)
  | some (primary, '/' :: rest) =>
    (readQuantity? rest).map fun secondary => (primary, some secondary)
  | _ => none

/-- Reads a whole text as one or two quantities, by the first form that succeeds. -/
def readValues? (text : Text) : Option (Quantity × Option Quantity) :=
  ValueForm.all.findSome? fun form => readValuesAs? form text

/-- Reads a bare class name whose type is already known to be followed by `rest`. -/
def readAfterKind? (kind rest : Text) : Option ClassToken :=
  match rest with
  | '-' :: values =>
    (readValues? values).map fun (primary, secondary) => ⟨none, kind, primary, secondary⟩
  | _ => none

/-- Reads a bare class name that starts with the given type token. -/
def readWithType? (bare type : Text) : Option ClassToken :=
  (Text.after? type bare).bind (readAfterKind? type)

/-- Reads a bare class name whose type is a bracketed list. -/
def readBracketKind? (bare : Text) : Option ClassToken :=
  (ValueForm.cutBracket? bare).bind fun (kind, rest) => readAfterKind? kind rest

/-- Reads a class name without scope: by its type tokens first, else as a bracketed list. -/
def readBare? (grammar : Grammar) (bare : Text) : Option ClassToken :=
  (grammar.types.findSome? (readWithType? bare)).or (readBracketKind? bare)

/-- Reads a class name that has a scope, by what stands behind the scope. -/
def readBehindScope? (grammar : Grammar) (className : Text) : Option ClassToken :=
  (splitScope? className).bind fun (scope, bare) =>
    (grammar.readBare? bare).map fun token => { token with scope := some scope }

/-- Reads a class name: behind its scope if that succeeds, else as a whole. -/
def read? (grammar : Grammar) (className : Text) : Option ClassToken :=
  (grammar.readBehindScope? className).or (grammar.readBare? className)

end Grammar

end UtilityCss
