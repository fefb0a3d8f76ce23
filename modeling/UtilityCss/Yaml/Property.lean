import UtilityCss.Json.Quoted
import UtilityCss.Yaml.Token

/-!
# Node properties and directives

An anchor names a node and an alias repeats it; a tag says what kind of value a node is. Directives
stand in front of a document: the version of the format, and shorthands for tags.
-/

namespace UtilityCss

namespace Yaml

/-- The characters that may follow a name without white space. -/
def nameEnds : List Char :=
  ['?', ':', ',', ']', '}', '%', '@', '\x60']

/-- Whether a name may end in front of a text. -/
def endsName (rest : Text) : Bool :=
  endsWord rest || rest.head?.any nameEnds.contains

/-- Reads the name behind the indicator of an anchor or an alias. -/
def readName (cursor : Cursor) : Outcome (Text × Cursor) :=
  let (name, behind) := cursor.takeWhile isNameChar
  if name.isEmpty || !endsName behind.rest then .error .invalidAnchor else .ok (name, behind)

/-- Reads a tag handle: an exclamation mark, and possibly a name and a second one. -/
def cutHandle? (cursor : Cursor) : Option (Text × Cursor) :=
  match cursor.rest with
  | '!' :: _ =>
    let (name, behind) := (cursor.skip 1).takeWhile isNameChar
    match behind.rest with
    | '!' :: _ => some ('!' :: name ++ ['!'], behind.skip 1)
    | _ => some ('!' :: name, behind)
  | _ => none

def tagMarks : List Char :=
  [';', '/', '?', ':', '@', '&', '=', '+', '$', '.', '%', '!', '~', '*', '\'', '(', ')']

/-- A character of a tag; brackets and commas only where the tag stands between angle brackets. -/
def isTagChar (verbatim : Bool) (c : Char) : Bool :=
  isNameChar c || tagMarks.contains c || (verbatim && [',', '[', ']'].contains c)

/-- The byte that two hexadecimal digits stand for, behind a percent sign. -/
def percentByte? : Text → Option UInt8
  | '%' :: high :: low :: _ => do
    let high ← Json.hexValue? high
    let low ← Json.hexValue? low
    return (high * 16 + low).toUInt8
  | _ => none

/-- The number of bytes of the UTF-8 sequence that starts with a byte. -/
def sequenceLength? (lead : UInt8) : Option Nat :=
  if lead &&& 0x80 == 0x00 then some 1
  else if lead &&& 0xE0 == 0xC0 then some 2
  else if lead &&& 0xF0 == 0xE0 then some 3
  else if lead &&& 0xF8 == 0xF0 then some 4
  else none

/-- The character that escaped bytes at the start of a text encode, and the number of characters
that the escapes take. -/
def percentChar? (text : Text) : Option (Char × Nat) := do
  let lead ← percentByte? text
  let length ← sequenceLength? lead
  let bytes ← (List.range length).mapM fun i => percentByte? (text.drop (3 * i))
  let decoded ← String.fromUTF8? ⟨bytes.toArray⟩
  match decoded.toList with
  | [c] => some (c, 3 * length)
  | _ => none

/-- The characters of a tag with escapes replaced, where the first `skipped` characters belong to an
escape that has been replaced already. -/
def unescapeTag? : (skipped : Nat) → Text → Option Text
  | _, [] => some []
  | skipped + 1, _ :: rest => unescapeTag? skipped rest
  | 0, c :: rest =>
    if c == '%' then
      (percentChar? (c :: rest)).bind fun (decoded, length) =>
        (unescapeTag? (length - 1) rest).map (decoded :: ·)
    else
      (unescapeTag? 0 rest).map (c :: ·)

/-- Reads the characters of a tag, behind the first ones in `head`. Without any the tag is missing.
-/
def cutTagText? (verbatim : Bool) (head : Text) (cursor : Cursor) : Option (Text × Cursor) :=
  let (raw, behind) := cursor.takeWhile (isTagChar verbatim)
  if head.isEmpty && raw.isEmpty then
    none
  else
    (unescapeTag? 0 raw).map fun suffix => (head.tail ++ suffix, behind)

/-- Reads a tag between angle brackets, behind the first one. -/
def cutVerbatimTag? (cursor : Cursor) : Option (WrittenTag × Cursor) :=
  (cutTagText? true [] cursor).bind fun (suffix, behind) =>
    match behind.rest with
    | '>' :: _ => some (⟨[], suffix⟩, behind.skip 1)
    | _ => none

/-- Reads a tag that starts with a handle, or with an exclamation mark only. -/
def cutShorthandTag? (cursor : Cursor) : Option (WrittenTag × Cursor) :=
  (cutHandle? cursor).bind fun (handle, behind) =>
    if 2 ≤ handle.length && handle.getLast? == some '!' then
      (cutTagText? false [] behind).map fun (suffix, tail) => (⟨handle, suffix⟩, tail)
    else
      (cutTagText? false handle behind).map fun (suffix, tail) =>
        (if suffix.isEmpty then ⟨[], ['!']⟩ else ⟨['!'], suffix⟩, tail)

/-- Reads a tag. White space must follow it, or a comma inside a flow collection. -/
def readTag (inFlow : Bool) (cursor : Cursor) : Outcome (WrittenTag × Cursor) :=
  let cut := match cursor.rest with
    | '!' :: '<' :: _ => cutVerbatimTag? (cursor.skip 2)
    | _ => cutShorthandTag? cursor
  match cut with
  | none => .error .invalidTag
  | some (tag, behind) =>
    if endsWord behind.rest || (inFlow && behind.rest.head? == some ',') then
      .ok (tag, behind)
    else
      .error .invalidTag

/-- Reads a number of a version: one to nine digits. -/
def cutVersionNumber? (cursor : Cursor) : Option (Nat × Cursor) :=
  let (digits, behind) := cursor.takeWhile Char.isDigit
  if digits.isEmpty || 9 < digits.length then
    none
  else
    some (digits.foldl (fun value c => value * 10 + (c.toNat - '0'.toNat)) 0, behind)

/-- Reads the version behind the name of its directive. -/
def cutVersion? (cursor : Cursor) : Option (Token × Cursor) :=
  (cutVersionNumber? cursor.skipSpaces).bind fun (major, behind) =>
    match behind.rest with
    | '.' :: _ =>
      (cutVersionNumber? (behind.skip 1)).map fun (minor, tail) => (.version major minor, tail)
    | _ => none

/-- A handle that a directive may define: an exclamation mark alone, or a name between two. -/
def isDefinable (handle : Text) : Bool :=
  handle == ['!'] || (2 ≤ handle.length && handle.getLast? == some '!')

/-- Reads a handle and its meaning behind the name of their directive. -/
def cutTagHandle? (cursor : Cursor) : Option (Token × Cursor) :=
  (cutHandle? cursor.skipSpaces).bind fun (handle, behind) =>
    if isDefinable handle && behind.rest.head?.any isSpace then
      (cutTagText? true [] behind.skipSpaces).bind fun (meaning, tail) =>
        if endsWord tail.rest then some (.tagHandle handle meaning, tail) else none
    else
      none

/-- Reads a directive behind its percent sign, with the rest of its line. -/
def readDirective (cursor : Cursor) : Outcome (Token × Cursor) :=
  let (name, behind) := cursor.takeWhile isNameChar
  let cut :=
    if !endsWord behind.rest then none
    else if name == "YAML".toList then cutVersion? behind
    else if name == "TAG".toList then cutTagHandle? behind
    else none
  match cut.bind fun (token, tail) => tail.skipLineEnd?.map fun lines => (token, lines) with
  | some reading => .ok reading
  | none => .error .invalidDirective

end Yaml

end UtilityCss
