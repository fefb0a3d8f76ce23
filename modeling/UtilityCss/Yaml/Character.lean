import UtilityCss.Text.Basic

/-!
# Characters of YAML

A YAML document is read as characters with a position. Line breaks of every kind become a line feed
before anything else is looked at, except the two Unicode separators, which are kept; so a line
break is always one character.
-/

namespace UtilityCss

namespace Yaml

/-- What can be wrong with a YAML document. -/
inductive Fault where
  | forbiddenCharacter
  | misplacedTab
  | misplacedIndicator
  | misplacedDocumentMarker
  | unexpectedCharacter
  | unexpectedToken
  | missingKeyMark
  | unclosedScalar
  | invalidEscape
  | invalidHeader
  | invalidAnchor
  | invalidTag
  | invalidDirective
  | undefinedAlias
  | undefinedTagHandle
  | moreThanOneDocument
  | tooManyAliases
  | tooDeep
  | unexpectedShape
  deriving DecidableEq

/-- The outcome of reading a part of a document. -/
abbrev Outcome := Except Fault

/-- The characters that may occur in a document. -/
def isAllowed (c : Char) : Bool :=
  let n := c.toNat
  n == 0x09 || n == 0x0A || n == 0x0D || (0x20 ≤ n && n ≤ 0x7E) || n == 0x85 ||
    (0xA0 ≤ n && n ≤ 0xD7FF) || (0xE000 ≤ n && n ≤ 0xFFFD) || 0x10000 ≤ n

/-- The text with a line feed for each line break that is not a Unicode separator. -/
def normalizeBreaks : Text → Text
  | [] => []
  | '\r' :: '\n' :: rest => '\n' :: normalizeBreaks rest
  | c :: rest =>
    (if c == '\r' || c == '\x85' then '\n' else c) :: normalizeBreaks rest

def isBreak (c : Char) : Bool :=
  c == '\n' || c == '\u2028' || c == '\u2029'

/-- The characters that separate words within a line. -/
def isSpace (c : Char) : Bool :=
  c == ' ' || c == '\t'

/-- Whether no word goes on: at white space, at a line break, or at the end. -/
def endsWord : Text → Bool
  | [] => true
  | c :: _ => isSpace c || isBreak c

/-- A character of an anchor, a tag handle or a directive name. -/
def isNameChar (c : Char) : Bool :=
  c.isAlphanum || c == '_' || c == '-'

/-- The characters that structure flow collections. -/
def isFlowIndicator (c : Char) : Bool :=
  c == ',' || c == '[' || c == ']' || c == '{' || c == '}'

/-- Whether a text begins with a marker that starts or ends a document. The marker counts only at
the start of a line. -/
def startsMarker : Text → Bool
  | '-' :: '-' :: '-' :: rest => endsWord rest
  | '.' :: '.' :: '.' :: rest => endsWord rest
  | _ => false

/-- A place in a document. -/
structure Position where
  line : Nat
  column : Nat
  deriving DecidableEq

namespace Position

/-- The place behind some characters of the same line. -/
def right (place : Position) (count : Nat) : Position :=
  { place with column := place.column + count }

def nextLine (place : Position) : Position :=
  ⟨place.line + 1, 0⟩

def after (place : Position) (c : Char) : Position :=
  if isBreak c then place.nextLine else place.right 1

end Position

/-- What is still unread, and where it starts. -/
structure Cursor where
  place : Position
  rest : Text
  deriving DecidableEq

namespace Cursor

/-- The cursor behind some characters of the same line. -/
def skip (cursor : Cursor) (count : Nat) : Cursor :=
  ⟨cursor.place.right count, cursor.rest.drop count⟩

/-- The characters of a class at the cursor, none of them a line break, and the cursor behind. -/
def takeWhile (cursor : Cursor) (isMember : Char → Bool) : Text × Cursor :=
  let taken := cursor.rest.takeWhile isMember
  (taken, cursor.skip taken.length)

/-- The cursor behind the characters of a class, none of them a line break. -/
def skipWhile (cursor : Cursor) (isMember : Char → Bool) : Cursor :=
  (cursor.takeWhile isMember).2

/-- The cursor behind white space within the line. -/
def skipSpaces (cursor : Cursor) : Cursor :=
  cursor.skipWhile isSpace

/-- The cursor behind white space, a comment and the line break; nothing else may be left on the
line. -/
def skipLineEnd? (cursor : Cursor) : Option Cursor :=
  let behindSpaces := cursor.skipSpaces
  let behindComment := match behindSpaces.rest with
    | '#' :: _ => behindSpaces.skipWhile fun c => !isBreak c
    | _ => behindSpaces
  match behindComment.rest with
  | [] => some behindComment
  | c :: rest => if isBreak c then some ⟨behindComment.place.nextLine, rest⟩ else none

end Cursor

end Yaml

end UtilityCss
