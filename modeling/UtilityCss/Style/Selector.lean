import UtilityCss.Text.Basic

/-!
# Selectors

A class name may hold characters that end a name in CSS. In a selector each of them follows a
backslash, so that the selector names exactly the class.
-/

namespace UtilityCss

namespace Selector

/-- The characters that follow a backslash in a selector. -/
def special : List Char :=
  [' ', '#', '.', ';', '?', '%', '&', ',', '@', '+', '*', '~', '\'', '"', '!', '^', '$', '[', ']',
    '(', ')', '=', '>', '|', ':', '/', '{', '}', '\x60', '<', '\\']

/-- Whether a character follows a backslash in a selector. -/
def isSpecial (c : Char) : Bool :=
  special.contains c

/-- A class name as it is written behind the point of a class selector. -/
def escape : Text → Text
  | [] => []
  | c :: rest => if isSpecial c then '\\' :: c :: escape rest else c :: escape rest

/-- The selector of a class, with its pseudo-class if there is one. -/
def ofClass (className : Text) (pseudo : Option Text) : Text :=
  match pseudo with
  | none => escape className
  | some name => escape className ++ ':' :: escape name

end Selector

end UtilityCss
