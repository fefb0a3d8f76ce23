import UtilityCss.Text.Basic
import UtilityCss.Text.Word

/-!
# Class attributes

Class lists are found in markup and in scripts that hold markup: behind `class` or `className` and
an equals sign, as a quoted value, or as one quoted string or template between braces. The name
must not go on from a word or a hyphen in front of it. Attributes do not overlap, so what follows a
value is looked at only behind its closing quote or brace.
-/

namespace UtilityCss

namespace ClassAttribute

/-- A text without the blank characters in front. -/
def skipBlanks (text : Text) : Text :=
  text.dropWhile isBlank

/-- Reads up to the closing quote, which is dropped. -/
def cutQuoted? (quote : Char) (text : Text) : Option (Text × Text) :=
  match text.dropWhile (· != quote) with
  | _ :: rest => some (text.takeWhile (· != quote), rest)
  | [] => none

/-- Reads a value between double or single quotes. -/
def cutAttributeValue? : Text → Option (Text × Text)
  | '"' :: rest => cutQuoted? '"' rest
  | '\'' :: rest => cutQuoted? '\'' rest
  | _ => none

/-- Reads a value between quotes of any kind. -/
def cutStringValue? : Text → Option (Text × Text)
  | '\x60' :: rest => cutQuoted? '\x60' rest
  | text => cutAttributeValue? text

/-- Reads a quoted value, or a quoted value between braces. -/
def cutValue? : Text → Option (Text × Text)
  | '{' :: rest =>
    (cutStringValue? (skipBlanks rest)).bind fun (value, behind) =>
      match skipBlanks behind with
      | '}' :: tail => some (value, tail)
      | _ => none
  | text => cutAttributeValue? text

/-- The rest behind the name of a class attribute. -/
def afterName? (text : Text) : Option Text :=
  (Text.after? "class".toList text).map fun rest =>
    (Text.after? "Name".toList rest).getD rest

/-- Reads a class attribute at the start of a text, and gives its value with the rest. -/
def cut? (text : Text) : Option (Text × Text) :=
  (afterName? text).bind fun behindName =>
    match skipBlanks behindName with
    | '=' :: behindEquals => cutValue? (skipBlanks behindEquals)
    | _ => none

/-- Whether an attribute name may start behind a character. -/
def isBoundary (c : Char) : Bool :=
  !(isWord c || c == '-')

/-- The values of the class attributes that start behind a boundary. The first `skipped` characters
belong to an attribute that has been read already. -/
def valuesFrom : (skipped : Nat) → Text → List Text
  | _, [] => []
  | skipped + 1, _ :: rest => valuesFrom skipped rest
  | 0, c :: rest =>
    match if isBoundary c then cut? rest else none with
    | some (value, tail) => value :: valuesFrom (rest.length - tail.length) rest
    | none => valuesFrom 0 rest

/-- The values of all class attributes of a source. At its very start no boundary is needed. -/
def values (source : Text) : List Text :=
  match cut? source with
  | some (value, tail) => value :: valuesFrom 0 tail
  | none => valuesFrom 0 source

/-- The class lists of a source: the trimmed values of its class attributes that are not blank. -/
def classLists (source : Text) : List Text :=
  ((values source).map Text.trim).filter fun value => !value.isEmpty

end ClassAttribute

end UtilityCss
