import UtilityCss.Yaml.Gap

/-!
# Plain scalars

A plain scalar is text without quotes. It ends at a colon in front of white space, at a comment, at
an indicator of the flow collection around it, or where a line is indented too little.
-/

namespace UtilityCss

namespace Yaml

/-- A scalar's text, whether a line break was read behind it, and the cursor behind it. -/
structure PlainEnd where
  text : Text
  broken : Bool
  cursor : Cursor

namespace PlainEnd

def done (gap : Gap) (place : Position) (rest : Text) : PlainEnd :=
  ⟨[], gap.broken, ⟨place, rest⟩⟩

def prepend (text : Text) (tail : PlainEnd) : PlainEnd :=
  { tail with text := text ++ tail.text }

end PlainEnd

namespace PlainScalar

/-- A colon in a flow collection must not be followed by an indicator. -/
def isAmbiguousColon (inFlow : Bool) (c : Char) (rest : Text) : Bool :=
  inFlow && c == ':' && rest.head?.any fun d => isFlowIndicator d || d == '?'

/-- Whether a scalar ends in front of a character. -/
def endsAt (inFlow : Bool) (c : Char) (rest : Text) : Bool :=
  (c == ':' && endsWord rest) || (inFlow && isFlowIndicator c)

/-- Whether a scalar ends behind a gap, whatever character follows. -/
def endsBehind (inFlow : Bool) (indent : Nat) (gap : Gap) (place : Position) (c : Char)
    (rest : Text) : Bool :=
  (gap.broken && !inFlow && place.column < indent) ||
    (place.column == 0 && startsMarker (c :: rest)) || (c == '#' && !gap.isEmpty)

/-- Reads on behind a word and a gap. -/
def readFrom (inFlow : Bool) (indent : Nat) (gap : Gap) (place : Position) :
    Text → Outcome PlainEnd
  | [] => .ok (.done gap place [])
  | c :: rest =>
    if isBreak c || isSpace c then
      if gap.broken && place.column < indent && c == '\t' then
        .error .misplacedTab
      else
        readFrom inFlow indent (gap.push c) (place.after c) rest
    else if endsBehind inFlow indent gap place c rest then
      .ok (.done gap place (c :: rest))
    else if isAmbiguousColon inFlow c rest then
      .error .unexpectedCharacter
    else if endsAt inFlow c rest then
      .ok (.done gap place (c :: rest))
    else
      (readFrom inFlow indent .empty (place.after c) rest).map fun tail =>
        tail.prepend (gap.text ++ [c])

/-- Reads a plain scalar at the cursor; its lines are indented by at least `indent`. -/
def read (inFlow : Bool) (indent : Nat) (cursor : Cursor) : Outcome PlainEnd :=
  readFrom inFlow indent .empty cursor.place cursor.rest

end PlainScalar

end Yaml

end UtilityCss
