import UtilityCss.Text.Word
import UtilityCss.Text.Basic

/-!
# Value forms

A value in a class name has one of five forms: a number, an identifier, a hexadecimal colour, a
bracketed literal or a reference to a custom property. Each form cuts the longest start of a text
that has its shape, and refuses a text of which no start has it.
-/

namespace UtilityCss

/-- The shapes that a value can have. -/
inductive ValueForm where
  | number
  | ident
  | hex
  | bracket
  | reference
  deriving DecidableEq

namespace ValueForm

/-- The forms in the order in which they are tried. -/
def all : List ValueForm :=
  [number, ident, hex, bracket, reference]

/-- Whether a text begins with a word character. -/
def startsWord : Text → Bool
  | [] => false
  | c :: _ => isAsciiWord c

/-- The longest start in which every hyphen is followed by a word character, and the rest. -/
def cutWords : Text → Text × Text
  | [] => ([], [])
  | c :: rest =>
    if isAsciiWord c || (c == '-' && startsWord rest) then
      (c :: (cutWords rest).1, (cutWords rest).2)
    else
      ([], c :: rest)

/-- The longest start of characters of a class, and the rest. -/
def cutWhile (isMember : Char → Bool) (text : Text) : Text × Text :=
  (text.takeWhile isMember, text.dropWhile isMember)

/-- Cuts digits with an optional point and more digits. -/
def cutDecimal? (text : Text) : Option (Text × Text) :=
  match cutWhile Char.isDigit text with
  | ([], _) => none
  | (whole, '.' :: rest) =>
    match cutWhile Char.isDigit rest with
    | ([], _) => some (whole, '.' :: rest)
    | (fraction, tail) => some (whole ++ '.' :: fraction, tail)
  | (whole, rest) => some (whole, rest)

/-- Cuts a decimal with an optional minus sign. -/
def cutNumber? : Text → Option (Text × Text)
  | '-' :: rest => (cutDecimal? rest).map fun cut => ('-' :: cut.1, cut.2)
  | text => cutDecimal? text

def cutIdent? (text : Text) : Option (Text × Text) :=
  if startsWord text then some (cutWords text) else none

def isHexDigit (c : Char) : Bool :=
  c.isDigit || ('a' ≤ c && c ≤ 'f') || ('A' ≤ c && c ≤ 'F')

/-- Cuts `#` and hexadecimal digits. -/
def cutHex? : Text → Option (Text × Text)
  | '#' :: rest =>
    match cutWhile isHexDigit rest with
    | ([], _) => none
    | (digits, tail) => some ('#' :: digits, tail)
  | _ => none

def cutBracket? : Text → Option (Text × Text)
  | '[' :: rest =>
    match cutWhile (· != ']') rest with
    | ([], _) => none
    | (literal, ']' :: tail) => some ('[' :: literal ++ [']'], tail)
    | (_, _) => none
  | _ => none

/-- Cuts `$` and a name that ends at a blank character of ASCII. -/
def cutReference? : Text → Option (Text × Text)
  | '$' :: rest =>
    match cutWhile (fun c => !isAsciiBlank c) rest with
    | ([], _) => none
    | (name, tail) => some ('$' :: name, tail)
  | _ => none

/-- Cuts the longest start that has the form, and gives it with the rest. -/
def cut? : ValueForm → Text → Option (Text × Text)
  | number => cutNumber?
  | ident => cutIdent?
  | hex => cutHex?
  | bracket => cutBracket?
  | reference => cutReference?

end ValueForm

end UtilityCss
