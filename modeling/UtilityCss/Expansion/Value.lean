import UtilityCss.Config.Basic

/-!
# Values

A value in a class name stands for CSS text. A registered name stands for its literal; `$name`
refers to a custom property; a bracketed literal is written with underscores for spaces and may
hold placeholders for registered values; anything else stands for itself, with its unit.
-/

namespace UtilityCss

/-- A placeholder names a value that is not registered. -/
structure UnknownValue where
  name : Text
  deriving DecidableEq

namespace Value

/-- Reads text of which a part may stand behind an opening brace that is still unclosed: `pending`
holds that part. A closed nonempty name is replaced by its literal, which is not read again; a brace
that is not closed, or closed at once, is text. -/
def fillFrom (values : ValueRegistry) : Option Text → Text → Except UnknownValue Text
  | none, [] => .ok []
  | some pending, [] => .ok ('{' :: pending)
  | none, c :: rest =>
    if c = '{' then
      fillFrom values (some []) rest
    else
      (fillFrom values none rest).map (c :: ·)
  | some pending, c :: rest =>
    if c = '}' then
      if pending.isEmpty then
        (fillFrom values none rest).map ("\x7b\x7d".toList ++ ·)
      else
        match values.get? pending with
        | none => .error ⟨pending⟩
        | some literal => (fillFrom values none rest).map (literal ++ ·)
    else
      fillFrom values (some (pending ++ [c])) rest

/-- Replaces each placeholder by the registered value that it names. -/
def fillPlaceholders (values : ValueRegistry) (text : Text) : Except UnknownValue Text :=
  fillFrom values none text

def customProperty (name : Text) : Text :=
  "var(".toList ++ name ++ ")".toList

/-- Underscores stand for spaces in a bracketed literal. -/
def withSpaces (text : Text) : Text :=
  text.map fun c => if c = '_' then ' ' else c

/-- The CSS text of what stands between brackets. -/
def resolveLiteral (values : ValueRegistry) (literal : Text) : Except UnknownValue Text :=
  (fillPlaceholders values (withSpaces literal)).map fun filled =>
    if ['-', '-'].isPrefixOf filled then customProperty filled else filled

/-- The CSS text of a value with its unit. -/
def resolve (values : ValueRegistry) (raw unit : Text) : Except UnknownValue Text :=
  match values.get? raw with
  | some literal => .ok literal
  | none =>
    match raw with
    | '$' :: name => .ok (customProperty ('-' :: '-' :: name))
    | _ =>
      if Text.isBetween '[' ']' raw then
        resolveLiteral values (Text.inner raw)
      else
        .ok (raw ++ unit)

end Value

end UtilityCss
