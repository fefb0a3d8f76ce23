import UtilityCss.Yaml.BlockScalar
import UtilityCss.Yaml.PlainScalar
import UtilityCss.Yaml.Property
import UtilityCss.Yaml.QuotedScalar

/-!
# From characters to tokens

Tokens are read from left to right. Two things are decided late: where a block collection starts and
ends follows from the columns of its entries, and that a scalar is a key shows only at the colon
behind it. So the scan keeps the columns of the open block collections, and for each open flow
collection the place of the last token that could still turn out to be a key; when the colon comes,
the missing tokens are put in front of that place.
-/

namespace UtilityCss

namespace Yaml

/-- A token that may turn out to be a key: its number, where it starts, and whether it has to be a
key because it starts at the column of the innermost block collection. -/
structure KeyCandidate where
  number : Nat
  place : Position
  required : Bool

/-- The state between two tokens. -/
structure Scan where
  cursor : Cursor
  /-- The tokens read so far, the last one first. -/
  tokens : List Token
  /-- The columns of the open block collections, the innermost one first. -/
  columns : List Nat
  /-- Whether a key may start at the next token. -/
  keyAllowed : Bool
  /-- The candidate at the innermost level. -/
  candidate : Option KeyCandidate
  /-- The candidates around the open flow collections, the innermost one first. -/
  outer : List (Option KeyCandidate)

namespace Scan

/-- The state in front of the first token. -/
def initial (text : Text) : Scan :=
  ⟨⟨⟨0, 0⟩, text⟩, [], [], true, none, []⟩

def inFlow (scan : Scan) : Bool :=
  !scan.outer.isEmpty

/-- The column of the innermost block collection and one; zero when none is open. -/
def indent (scan : Scan) : Nat :=
  match scan.columns with
  | [] => 0
  | column :: _ => column + 1

def push (scan : Scan) (token : Token) : Scan :=
  { scan with tokens := token :: scan.tokens }

/-- Puts a token in front of the one with the given number. -/
def insertAt (scan : Scan) (number : Nat) (token : Token) : Scan :=
  { scan with tokens := scan.tokens.insertIdx (scan.tokens.length - number) token }

def moveTo (scan : Scan) (cursor : Cursor) : Scan :=
  { scan with cursor }

/-- Opens a block collection when the column lies behind the innermost one; its start is put in
front of the token with the given number, or appended. -/
def openBlock (scan : Scan) (column : Nat) (number : Option Nat) (token : Token) : Scan :=
  if scan.inFlow || column < scan.indent then
    scan
  else
    let deeper := { scan with columns := column :: scan.columns }
    match number with
    | some number => deeper.insertAt number token
    | none => deeper.push token

/-- Closes the block collections of the given columns that lie behind `column`; without a column all
of them. -/
def closeBlocks (column : Option Nat) : List Nat → Scan → Scan
  | [], scan => { scan with columns := [] }
  | innermost :: around, scan =>
    if column.all (· < innermost) then
      closeBlocks column around (scan.push .blockEnd)
    else
      { scan with columns := innermost :: around }

/-- Closes the block collections behind a column. Inside a flow collection columns do not count. -/
def unwind (scan : Scan) (column : Option Nat) : Scan :=
  if scan.inFlow then scan else closeBlocks column scan.columns scan

/-- Gives up the candidate at the innermost level; one that had to be a key is a fault. -/
def dropCandidate (scan : Scan) : Outcome Scan :=
  match scan.candidate with
  | some candidate =>
    if candidate.required then .error .missingKeyMark else .ok { scan with candidate := none }
  | none => .ok scan

/-- Whether a candidate has become too old: a key ends on its line, within 1024 characters. -/
def isStale (place : Position) (candidate : KeyCandidate) : Bool :=
  candidate.place.line < place.line || candidate.place.column + 1024 < place.column

/-- Gives up a candidate that has become too old. -/
def refresh (place : Position) : Option KeyCandidate → Outcome (Option KeyCandidate)
  | none => .ok none
  | some candidate =>
    if isStale place candidate then
      if candidate.required then .error .missingKeyMark else .ok none
    else
      .ok (some candidate)

/-- Gives up all candidates that have become too old. -/
def dropStale (scan : Scan) : Outcome Scan := do
  let candidate ← refresh scan.cursor.place scan.candidate
  let outer ← scan.outer.mapM (refresh scan.cursor.place)
  return { scan with candidate, outer }

/-- Makes the next token a candidate where a key is allowed. -/
def offerCandidate (scan : Scan) : Outcome Scan :=
  if scan.keyAllowed then do
    let place := scan.cursor.place
    let required := !scan.inFlow && scan.indent == place.column + 1
    let cleared ← scan.dropCandidate
    return { cleared with candidate := some ⟨scan.tokens.length, place, required⟩ }
  else
    return scan

/-- Skips white space, comments and line breaks in front of a token. A tab counts as white space
only where no key may start; behind a line break a key may start again. -/
def skipFrom (inFlow : Bool) (keyAllowed inComment : Bool) (place : Position) :
    Text → Bool × Cursor
  | [] => (keyAllowed, ⟨place, []⟩)
  | c :: rest =>
    if isBreak c then
      skipFrom inFlow (keyAllowed || !inFlow) false place.nextLine rest
    else if inComment || c == ' ' || (c == '\t' && (inFlow || !keyAllowed)) then
      skipFrom inFlow keyAllowed inComment (place.right 1) rest
    else if c == '#' then
      skipFrom inFlow keyAllowed true (place.right 1) rest
    else
      (keyAllowed, ⟨place, c :: rest⟩)

/-- The cursor behind a byte order mark at the very start. -/
def skipMark (cursor : Cursor) : Cursor :=
  match cursor.rest with
  | c :: _ => if cursor.place = ⟨0, 0⟩ && c == '\ufeff' then cursor.skip 1 else cursor
  | [] => cursor

/-- Moves to the next token. -/
def skipToToken (scan : Scan) : Scan :=
  let start := skipMark scan.cursor
  let (keyAllowed, cursor) := skipFrom scan.inFlow scan.keyAllowed false start.place start.rest
  { scan with keyAllowed, cursor }

/-- Reads an indicator of some characters that is a token. -/
def indicator (scan : Scan) (length : Nat) (token : Token) : Scan :=
  (scan.push token).moveTo (scan.cursor.skip length)

def directive (scan : Scan) : Outcome Scan := do
  let cleared ← (scan.unwind none).dropCandidate
  let (token, behind) ← readDirective (scan.cursor.skip 1)
  return ({ cleared with keyAllowed := false }.push token).moveTo behind

/-- Reads a marker that starts or ends a document. -/
def documentMarker (scan : Scan) (token : Token) : Outcome Scan := do
  let cleared ← (scan.unwind none).dropCandidate
  return { cleared with keyAllowed := false }.indicator 3 token

def openFlow (scan : Scan) (token : Token) : Outcome Scan := do
  let offered ← scan.offerCandidate
  let inside :=
    { offered with
      outer := offered.candidate :: offered.outer, candidate := none, keyAllowed := true }
  return inside.indicator 1 token

def closeFlow (scan : Scan) (token : Token) : Outcome Scan := do
  let cleared ← scan.dropCandidate
  let outside := match cleared.outer with
    | [] => cleared
    | candidate :: outer => { cleared with candidate, outer }
  return { outside with keyAllowed := false }.indicator 1 token

def flowEntry (scan : Scan) : Outcome Scan := do
  let cleared ← scan.dropCandidate
  return { cleared with keyAllowed := true }.indicator 1 .flowEntry

def blockEntry (scan : Scan) : Outcome Scan := do
  if !scan.inFlow && !scan.keyAllowed then
    .error .misplacedIndicator
  else
    let opened := scan.openBlock scan.cursor.place.column none .blockSequenceStart
    let cleared ← opened.dropCandidate
    return { cleared with keyAllowed := true }.indicator 1 .blockEntry

/-- Starts a key that is marked as one. -/
def markedKey (scan : Scan) : Outcome Scan := do
  if !scan.inFlow && !scan.keyAllowed then
    .error .misplacedIndicator
  else
    let opened := scan.openBlock scan.cursor.place.column none .blockMappingStart
    let cleared ← opened.dropCandidate
    return { cleared with keyAllowed := !scan.inFlow }.indicator 1 .key

/-- Reads the colon between a key and its value. The candidate is the key; without one the key was
marked or is missing. -/
def valueMark (scan : Scan) : Outcome Scan :=
  match scan.candidate with
  | some candidate =>
    let keyed := scan.insertAt candidate.number .key
    let opened :=
      keyed.openBlock candidate.place.column (some candidate.number) .blockMappingStart
    .ok ({ opened with candidate := none, keyAllowed := false }.indicator 1 .value)
  | none =>
    if !scan.inFlow && !scan.keyAllowed then
      .error .misplacedIndicator
    else
      let opened := scan.openBlock scan.cursor.place.column none .blockMappingStart
      .ok ({ opened with keyAllowed := !scan.inFlow }.indicator 1 .value)

/-- Reads an anchor or an alias behind its indicator. -/
def namedNode (scan : Scan) (token : Text → Token) : Outcome Scan := do
  let offered ← scan.offerCandidate
  let (name, behind) ← readName (scan.cursor.skip 1)
  return ({ offered with keyAllowed := false }.push (token name)).moveTo behind

def tag (scan : Scan) : Outcome Scan := do
  let offered ← scan.offerCandidate
  let (written, behind) ← readTag scan.inFlow scan.cursor
  return ({ offered with keyAllowed := false }.push (.tag written)).moveTo behind

/-- Reads a block scalar. A key may start behind it. -/
def blockScalar (scan : Scan) (style : ScalarStyle) : Outcome Scan := do
  let cleared ← scan.dropCandidate
  let (text, behind) ← BlockScalar.read (style == .folded) scan.indent (scan.cursor.skip 1)
  return ({ cleared with keyAllowed := true }.push (.scalar style text)).moveTo behind

def quotedScalar (scan : Scan) (double : Bool) : Outcome Scan := do
  let offered ← scan.offerCandidate
  let (text, behind) ← QuotedScalar.read double (scan.cursor.skip 1)
  return ({ offered with keyAllowed := false }.push (.scalar .quoted text)).moveTo behind

/-- Reads a plain scalar. A key may start behind it when it ends with a line. -/
def plainScalar (scan : Scan) : Outcome Scan := do
  let offered ← scan.offerCandidate
  let tail ← PlainScalar.read scan.inFlow scan.indent scan.cursor
  return ({ offered with keyAllowed := tail.broken }.push (.scalar .plain tail.text)).moveTo
    tail.cursor

def blockIndicators : List Char :=
  ['-', '?', ':', '#', '&', '*', '!', '|', '>', '\'', '"', '%', '@', '\x60']

/-- The characters that start no plain scalar, white space aside. -/
def isIndicator (c : Char) : Bool :=
  isFlowIndicator c || blockIndicators.contains c

/-- Whether a plain scalar may start with a character. -/
def startsPlain (inFlow : Bool) (c : Char) (rest : Text) : Bool :=
  !(isSpace c || isBreak c || isIndicator c) ||
    (c == '-' && !rest.head?.any isSpace) ||
    (!inFlow && (c == '?' || c == ':') && !endsWord rest)

/-- Reads the token that starts with `c`. -/
def readToken (scan : Scan) (c : Char) (rest : Text) : Outcome Scan :=
  let atMargin := scan.cursor.place.column == 0
  if atMargin && c == '%' then scan.directive
  else if atMargin && c == '-' && startsMarker (c :: rest) then scan.documentMarker .documentStart
  else if atMargin && c == '.' && startsMarker (c :: rest) then scan.documentMarker .documentEnd
  else if c == '[' then scan.openFlow .flowSequenceStart
  else if c == '{' then scan.openFlow .flowMappingStart
  else if c == ']' then scan.closeFlow .flowSequenceEnd
  else if c == '}' then scan.closeFlow .flowMappingEnd
  else if c == ',' then scan.flowEntry
  else if c == '-' && endsWord rest then scan.blockEntry
  else if c == '?' && (scan.inFlow || endsWord rest) then scan.markedKey
  else if c == ':' && (scan.inFlow || endsWord rest) then scan.valueMark
  else if c == '*' then scan.namedNode .aliasTo
  else if c == '&' then scan.namedNode .anchor
  else if c == '!' then scan.tag
  else if c == '|' && !scan.inFlow then scan.blockScalar .literal
  else if c == '>' && !scan.inFlow then scan.blockScalar .folded
  else if c == '\'' then scan.quotedScalar false
  else if c == '"' then scan.quotedScalar true
  else if startsPlain scan.inFlow c rest then scan.plainScalar
  else .error .unexpectedCharacter

/-- Closes what is open at the end of the document. -/
def finish (scan : Scan) : Outcome (List Token) :=
  (scan.unwind none).dropCandidate.map fun closed => closed.tokens.reverse

/-- Reads tokens to the end; each takes at least one character, and `fuel` bounds their number. -/
def readAll : (fuel : Nat) → Scan → Outcome (List Token)
  | 0, _ => .error .unexpectedCharacter
  | fuel + 1, scan => do
    let next ← scan.skipToToken.dropStale
    let unwound := next.unwind (some next.cursor.place.column)
    match unwound.cursor.rest with
    | [] => unwound.finish
    | c :: rest => readAll fuel (← unwound.readToken c rest)

end Scan

def tokens (text : Text) : Outcome (List Token) :=
  if text.all isAllowed then
    Scan.readAll (text.length + 1) (Scan.initial (normalizeBreaks text))
  else
    .error .forbiddenCharacter

end Yaml

end UtilityCss
