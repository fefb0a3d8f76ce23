import UtilityCss.Json.Quoted
import UtilityCss.Json.Value

/-!
# Reading JSON

`Json.read?` reads a whole text as one JSON value between white space. Every value of the tree is
well formed; what strings and numbers mean is left open.
-/

namespace UtilityCss

namespace Json

def isSpace (c : Char) : Bool :=
  c == ' ' || c == '\n' || c == '\t' || c == '\r'

/-- A text without the white space in front. -/
def skipSpace (text : Text) : Text :=
  text.dropWhile isSpace

/-- Cuts what stands in front of the closing quote. Control characters are refused, a backslash
needs a letter that JSON knows, and `u` needs four hexadecimal digits. -/
def cutString? : Text → Option (Text × Text)
  | [] => none
  | '"' :: rest => some ([], rest)
  | '\\' :: 'u' :: a :: b :: c :: d :: rest =>
    if (hexUnit? a b c d).isSome then
      (cutString? rest).map fun (raw, tail) => ('\\' :: 'u' :: a :: b :: c :: d :: raw, tail)
    else
      none
  | '\\' :: c :: rest =>
    if (escapedChar? c).isSome then
      (cutString? rest).map fun (raw, tail) => ('\\' :: c :: raw, tail)
    else
      none
  | c :: rest =>
    if c.toNat < 0x20 || c == '\\' then none
    else (cutString? rest).map fun (raw, tail) => (c :: raw, tail)

/-- Cuts the exponent of a number, if there is one; its digits must not be missing. -/
def cutExponent? (text : Text) : Option (Option (Bool × Text) × Text) :=
  match text with
  | c :: rest =>
    if c == 'e' || c == 'E' then
      let (negative, body) := match rest with
        | '-' :: tail => (true, tail)
        | '+' :: tail => (false, tail)
        | tail => (false, tail)
      match body.takeWhile Char.isDigit with
      | [] => none
      | digits => some (some (negative, digits), body.dropWhile Char.isDigit)
    else
      some (none, text)
  | [] => some (none, [])

/-- Cuts the digits behind a point, if there is one; they must not be missing. -/
def cutFraction? (text : Text) : Option (Option Text × Text) :=
  match text with
  | '.' :: rest =>
    match rest.takeWhile Char.isDigit with
    | [] => none
    | digits => some (some digits, rest.dropWhile Char.isDigit)
  | _ => some (none, text)

/-- Cuts a number. Its first digit is a zero only when it is the only digit before the point. -/
def cutNumber? (text : Text) : Option (JsonNumber × Text) :=
  let (negative, body) := match text with
    | '-' :: rest => (true, rest)
    | _ => (false, text)
  let whole := body.takeWhile Char.isDigit
  let canonical := match whole with
    | [] => false
    | '0' :: more => more.isEmpty
    | _ => true
  if canonical then do
    let (fraction, rest) ← cutFraction? (body.dropWhile Char.isDigit)
    let (exponent, rest) ← cutExponent? rest
    return (⟨negative, whole, fraction, exponent⟩, rest)
  else
    none

mutual

/-- Cuts a value at the start of a text; `fuel` bounds the number of nested calls. -/
def cutValue? : (fuel : Nat) → Text → Option (Json × Text)
  | 0, _ => none
  | fuel + 1, text =>
    match text with
    | '"' :: rest => (cutString? rest).map fun (raw, tail) => (.string raw, tail)
    | '[' :: rest =>
      match skipSpace rest with
      | ']' :: tail => some (.array [], tail)
      | inside => (cutItems? fuel inside).map fun (items, tail) => (.array items, tail)
    | '{' :: rest =>
      match skipSpace rest with
      | '}' :: tail => some (.object [], tail)
      | inside => (cutMembers? fuel inside).map fun (members, tail) => (.object members, tail)
    | 'n' :: 'u' :: 'l' :: 'l' :: rest => some (.null, rest)
    | 't' :: 'r' :: 'u' :: 'e' :: rest => some (.bool true, rest)
    | 'f' :: 'a' :: 'l' :: 's' :: 'e' :: rest => some (.bool false, rest)
    | _ => (cutNumber? text).map fun (value, tail) => (.number value, tail)

/-- Cuts the items of an array behind its bracket, at least one, and the closing bracket. -/
def cutItems? : (fuel : Nat) → Text → Option (List Json × Text)
  | 0, _ => none
  | fuel + 1, text =>
    match cutValue? fuel (skipSpace text) with
    | none => none
    | some (item, rest) =>
      match skipSpace rest with
      | ']' :: tail => some ([item], tail)
      | ',' :: more => (cutItems? fuel more).map fun (items, tail) => (item :: items, tail)
      | _ => none

/-- Cuts the members of an object behind its brace, at least one, and the closing brace. -/
def cutMembers? : (fuel : Nat) → Text → Option (List (Text × Json) × Text)
  | 0, _ => none
  | fuel + 1, text =>
    match skipSpace text with
    | '"' :: behindQuote =>
      match cutString? behindQuote with
      | none => none
      | some (key, behindKey) =>
        match skipSpace behindKey with
        | ':' :: behindColon =>
          match cutValue? fuel (skipSpace behindColon) with
          | none => none
          | some (value, rest) =>
            match skipSpace rest with
            | '}' :: tail => some ([(key, value)], tail)
            | ',' :: more =>
              (cutMembers? fuel more).map fun (members, tail) => ((key, value) :: members, tail)
            | _ => none
        | _ => none
    | _ => none

end

/-- Reads a whole text as one value. Every call uses up a character or follows one that does, so two
calls for each character are enough. -/
def read? (text : Text) : Option Json :=
  match cutValue? (2 * text.length + 2) (skipSpace text) with
  | some (value, rest) => if (skipSpace rest).isEmpty then some value else none
  | none => none

end Json

end UtilityCss
