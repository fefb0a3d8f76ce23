import UtilityCss.Json.Quoted
import UtilityCss.Yaml.Gap

/-!
# Quoted scalars

Between single quotes a doubled quote stands for one; between double quotes a backslash starts an
escape. White space and line breaks inside are gaps between words, and are folded as such. No line
may start with a document marker.
-/

namespace UtilityCss

namespace Yaml

namespace QuotedScalar

/-- The quoted text from some place on, and the cursor behind the closing quote. -/
abbrev Reading := Outcome (Text × Cursor)

def prepend (text : Text) (reading : Reading) : Reading :=
  reading.map fun (tail, cursor) => (text ++ tail, cursor)

/-- Reads on between single quotes, behind a word and a gap. -/
def readSingle (gap : Gap) (place : Position) : Text → Reading
  | [] => .error .unclosedScalar
  | '\'' :: '\'' :: rest =>
    prepend (gap.text ++ ['\'']) (readSingle .empty (place.right 2) rest)
  | c :: rest =>
    if isBreak c || isSpace c then
      readSingle (gap.push c) (place.after c) rest
    else if place.column == 0 && startsMarker (c :: rest) then
      .error .misplacedDocumentMarker
    else if c == '\'' then
      .ok (gap.text, ⟨place.right 1, rest⟩)
    else
      prepend (gap.text ++ [c]) (readSingle .empty (place.right 1) rest)

/-- The character that a letter behind a backslash stands for. -/
def escapedChar? (c : Char) : Option Char :=
  if c == '0' then some '\x00'
  else if c == 'a' then some '\x07'
  else if c == 'b' then some '\x08'
  else if c == 't' || c == '\t' then some '\t'
  else if c == 'n' then some '\n'
  else if c == 'v' then some '\x0b'
  else if c == 'f' then some '\x0c'
  else if c == 'r' then some '\r'
  else if c == 'e' then some '\x1b'
  else if c == ' ' || c == '"' || c == '/' || c == '\\' then some c
  else if c == 'N' then some '\x85'
  else if c == '_' then some '\xa0'
  else if c == 'L' then some '\u2028'
  else if c == 'P' then some '\u2029'
  else none

/-- The number of hexadecimal digits that follow a letter behind a backslash. -/
def escapeWidth? (c : Char) : Option Nat :=
  if c == 'x' then some 2
  else if c == 'u' then some 4
  else if c == 'U' then some 8
  else none

/-- The character with a code point in hexadecimal digits. -/
def charOfHex? (digits : Text) : Option Char := do
  let values ← digits.mapM Json.hexValue?
  let code := values.foldl (fun code value => code * 16 + value) 0
  if code.isValidChar then some (Char.ofNat code) else none

/-- Reads on between double quotes, behind a word and a gap; `skipped` characters belong to an
escape that has already been read. -/
def readDouble (skipped : Nat) (gap : Gap) (place : Position) : Text → Reading
  | [] => .error .unclosedScalar
  | c :: rest =>
    match skipped with
    | skipped + 1 => readDouble skipped gap (place.right 1) rest
    | 0 =>
      if isBreak c || isSpace c then
        readDouble 0 (gap.push c) (place.after c) rest
      else if place.column == 0 && startsMarker (c :: rest) then
        .error .misplacedDocumentMarker
      else if c == '"' then
        .ok (gap.text, ⟨place.right 1, rest⟩)
      else if c == '\\' then
        readEscape gap place rest
      else
        prepend (gap.text ++ [c]) (readDouble 0 .empty (place.right 1) rest)
where
  /-- Reads on behind a backslash. -/
  readEscape (gap : Gap) (place : Position) : Text → Reading
    | [] => .error .invalidEscape
    | d :: rest =>
      if isBreak d then
        prepend gap.text (readDouble 0 .escapedBreak place.nextLine rest)
      else
        match escapeWidth? d with
        | some width =>
          if rest.length < width then
            .error .invalidEscape
          else
            match charOfHex? (rest.take width) with
            | none => .error .invalidEscape
            | some value =>
              prepend (gap.text ++ [value]) (readDouble width .empty (place.right 2) rest)
        | none =>
          match escapedChar? d with
          | none => .error .invalidEscape
          | some value => prepend (gap.text ++ [value]) (readDouble 0 .empty (place.right 2) rest)

def read (double : Bool) (cursor : Cursor) : Reading :=
  if double then
    readDouble 0 .empty cursor.place cursor.rest
  else
    readSingle .empty cursor.place cursor.rest

end QuotedScalar

end Yaml

end UtilityCss
