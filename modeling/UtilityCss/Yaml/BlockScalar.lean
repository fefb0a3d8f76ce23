import UtilityCss.Yaml.Gap

/-!
# Block scalars

A block scalar is written on lines of its own, behind a header that says whether line breaks are
folded, how many line breaks at the end are kept, and possibly how far the lines are indented. An
indentation that is not given is that of the first line that is not empty.
-/

namespace UtilityCss

namespace Yaml

namespace BlockScalar

/-- Which line breaks at the end of a block scalar are kept. -/
inductive Chomping where
  | none
  | one
  | all
  deriving DecidableEq

/-- The header of a block scalar: its chomping and the given indentation, or zero. -/
structure Header where
  chomping : Chomping
  indent : Nat
  deriving DecidableEq

def chompingOf? (c : Char) : Option Chomping :=
  if c == '+' then some .all else if c == '-' then some .none else none

/-- An indentation digit, which must not be zero, if there is one. -/
def cutIndent? (cursor : Cursor) : Option (Nat × Cursor) :=
  match cursor.rest with
  | c :: _ =>
    if c == '0' then none
    else if c.isDigit then some (c.toNat - '0'.toNat, cursor.skip 1)
    else some (0, cursor)
  | [] => some (0, cursor)

/-- A chomping character, if there is one. -/
def cutChomping (cursor : Cursor) : Option Chomping × Cursor :=
  match cursor.rest.head?.bind chompingOf? with
  | some chomping => (some chomping, cursor.skip 1)
  | none => (none, cursor)

/-- The header behind the indicator: chomping and indentation in either order. -/
def cutHeader? (cursor : Cursor) : Option (Header × Cursor) :=
  match cutChomping cursor with
  | (some chomping, behind) =>
    (cutIndent? behind).map fun (indent, tail) => (⟨chomping, indent⟩, tail)
  | (none, _) =>
    (cutIndent? cursor).map fun (indent, behind) =>
      if indent = 0 then
        (⟨.one, 0⟩, behind)
      else
        let (chomping, tail) := cutChomping behind
        (⟨chomping.getD .one, indent⟩, tail)

/-- Line breaks in front of a line, the indentation of the deepest of these lines, and the cursor
behind the indentation of the line that follows. -/
structure Lead where
  breaks : Text
  deepest : Nat
  cursor : Cursor

/-- Reads empty lines and the indentation of the line behind them. An indentation of zero is not
known yet: then all spaces are read. -/
def readLead (indent deepest : Nat) (breaks : Text) (place : Position) : Text → Outcome Lead
  | [] => .ok ⟨breaks, deepest, ⟨place, []⟩⟩
  | c :: rest =>
    let inIndent := indent == 0 || place.column < indent
    if inIndent && c == ' ' then
      readLead indent (max deepest (place.column + 1)) breaks (place.right 1) rest
    else if inIndent && c == '\t' then
      .error .misplacedTab
    else if isBreak c then
      readLead indent deepest (breaks ++ [c]) place.nextLine rest
    else
      .ok ⟨breaks, deepest, ⟨place, c :: rest⟩⟩

/-- What stands between two lines: a single line feed is folded between lines that both start with a
word. -/
def between (folded : Bool) (lastBreak : Text) (lastBlank blank : Bool) (breaks : Text) : Text :=
  if folded && lastBreak == ['\n'] && !lastBlank && !blank then
    if breaks.isEmpty then [' '] else breaks
  else
    lastBreak ++ breaks

/-- The lines read so far: the break that ended the last one, and whether it started blank. -/
structure Progress where
  text : Text
  lastBreak : Text
  lastBlank : Bool

/-- The text of the lines and of the line breaks behind them that are kept. -/
def finish (chomping : Chomping) (progress : Progress) (breaks : Text) : Text :=
  match chomping with
  | .none => progress.text
  | .one => progress.text ++ progress.lastBreak
  | .all => progress.text ++ progress.lastBreak ++ breaks

/-- Reads the lines that are indented far enough; `fuel` bounds their number. -/
def readLines (folded : Bool) (chomping : Chomping) (indent : Nat) :
    (fuel : Nat) → Progress → Lead → Outcome (Text × Cursor)
  | 0, progress, lead => .ok (finish chomping progress lead.breaks, lead.cursor)
  | fuel + 1, progress, lead =>
    match lead.cursor.rest with
    | [] => .ok (finish chomping progress lead.breaks, lead.cursor)
    | c :: _ =>
      if lead.cursor.place.column ≠ indent then
        .ok (finish chomping progress lead.breaks, lead.cursor)
      else
        let (line, behind) := lead.cursor.takeWhile fun d => !isBreak d
        let text := progress.text ++
          between folded progress.lastBreak progress.lastBlank (isSpace c) lead.breaks ++ line
        match behind.rest with
        | [] => .ok (finish chomping ⟨text, [], isSpace c⟩ [], behind)
        | lineBreak :: rest =>
          (readLead indent 0 [] behind.place.nextLine rest).bind fun next =>
            readLines folded chomping indent fuel ⟨text, [lineBreak], isSpace c⟩ next

/-- Reads the scalar behind its indicator. `parent` is the column of the collection around it, and
one; it is zero outside all collections. -/
def read (folded : Bool) (parent : Nat) (cursor : Cursor) : Outcome (Text × Cursor) :=
  match (cutHeader? cursor).bind fun (header, behind) =>
    behind.skipLineEnd?.map fun lines => (header, lines) with
  | none => .error .invalidHeader
  | some (header, lines) =>
    let given := if header.indent = 0 then 0 else parent - 1 + header.indent
    (readLead given 0 [] lines.place lines.rest).bind fun lead =>
      let indent := if given = 0 then max 1 (max parent lead.deepest) else given
      readLines folded header.chomping indent (lines.rest.length + 1) ⟨[], [], false⟩ lead

end BlockScalar

end Yaml

end UtilityCss
