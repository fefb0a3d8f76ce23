import UtilityCss.Yaml.Character

/-!
# Gaps inside scalars

White space between two words of a scalar is kept as long as it stays on one line. Across lines it
is folded: one line break becomes a space, further line breaks are kept, and white space around
them is dropped.
-/

namespace UtilityCss

namespace Yaml

/-- The white space read since the last word of a scalar. -/
structure Gap where
  spaces : Text
  broken : Bool
  firstBreak : Text
  moreBreaks : Text
  deriving DecidableEq

namespace Gap

def empty : Gap :=
  ⟨[], false, [], []⟩

/-- A gap that starts with a line break that is not to be kept. -/
def escapedBreak : Gap :=
  ⟨[], true, [], []⟩

/-- A gap with one more character: white space or a line break. -/
def push (gap : Gap) (c : Char) : Gap :=
  if isBreak c then
    if gap.broken then
      { gap with moreBreaks := gap.moreBreaks ++ [c] }
    else
      ⟨[], true, [c], []⟩
  else if gap.broken then
    gap
  else
    { gap with spaces := gap.spaces ++ [c] }

/-- Line breaks folded: a single line feed is a space, and in front of more breaks it is nothing. -/
def fold (firstBreak moreBreaks : Text) : Text :=
  if firstBreak = ['\n'] then
    if moreBreaks.isEmpty then [' '] else moreBreaks
  else
    firstBreak ++ moreBreaks

/-- What a gap contributes to the scalar when a word follows. -/
def text (gap : Gap) : Text :=
  if gap.broken then fold gap.firstBreak gap.moreBreaks else gap.spaces

def isEmpty (gap : Gap) : Bool :=
  !gap.broken && gap.spaces.isEmpty

end Gap

end Yaml

end UtilityCss
