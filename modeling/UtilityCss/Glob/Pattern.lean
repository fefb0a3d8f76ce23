import UtilityCss.Text.Basic

/-!
# Glob patterns

A glob pattern is read into a sequence of parts: characters, wildcards, character classes, groups of
alternatives, and the double star, which stands for any number of directories. The double star has
this meaning only between slashes and the ends of a pattern or an alternative; elsewhere it is two
single stars.
-/

namespace UtilityCss

/-- A part of a glob pattern. -/
inductive GlobPart where
  | literal (c : Char)
  | anyByte
  | anyBytes
  | leadingDirectories
  | innerDirectories
  | trailingDirectories
  | oneOf (negated : Bool) (ranges : List (Char × Char))
  | alternatives (branches : List (List GlobPart))

namespace Glob

/-- The state between two parts. Parts are held in reverse. -/
structure Builder where
  /-- The parts of the branch that is being read. -/
  branch : List GlobPart
  /-- The finished branches of the innermost open group. -/
  finished : List (List GlobPart)
  /-- For each open group, the branch around it and the finished branches beside that branch. -/
  around : List (List GlobPart × List (List GlobPart))
  /-- The last character read. -/
  previous : Option Char

namespace Builder

def initial : Builder :=
  ⟨[], [], [], none⟩

def inGroup (builder : Builder) : Bool :=
  !builder.around.isEmpty

/-- Appends a part; `last` is the last character that it was read from. -/
def push (builder : Builder) (part : GlobPart) (last : Char) : Builder :=
  { builder with branch := part :: builder.branch, previous := some last }

def openGroup (builder : Builder) : Builder :=
  ⟨[], [], (builder.branch, builder.finished) :: builder.around, some '{'⟩

/-- Starts the next alternative of the innermost open group. -/
def nextBranch (builder : Builder) : Builder :=
  { builder with
    branch := [], finished := builder.branch.reverse :: builder.finished, previous := some ',' }

def closeGroup? (builder : Builder) : Option Builder :=
  match builder.around with
  | [] => none
  | (branch, finished) :: around =>
    let branches := (builder.branch.reverse :: builder.finished).reverse
    some ⟨.alternatives branches :: branch, finished, around, some '}'⟩

/-- Appends a double star that stands for directories. A double star in front of it that does the
same takes it in; otherwise it replaces the slash in front of it. -/
def pushDirectories (builder : Builder) (isLast : Bool) (last : Char) : Builder :=
  match builder.branch with
  | .leadingDirectories :: _ => { builder with previous := some last }
  | .trailingDirectories :: _ => { builder with previous := some last }
  | _ :: before =>
    let part := if isLast then GlobPart.trailingDirectories else .innerDirectories
    { builder with branch := part :: before, previous := some last }
  | [] => { builder with previous := some last }

/-- Appends a double star that stands for two single stars. -/
def pushTwoStars (builder : Builder) : Builder :=
  (builder.push .anyBytes '*').push .anyBytes '*'

/-- Whether a double star stands where directories may: behind a slash, or in a group behind a
character that otherwise starts an alternative. -/
def isBehindSeparator (builder : Builder) : Bool :=
  builder.previous == some '/' ||
    (builder.inGroup && (builder.previous == some ',' || builder.previous == some '{'))

/-- Reads a double star, and gives the rest behind it and behind the slash that belongs to it. -/
def doubleStar (builder : Builder) (rest : Text) : Builder × Text :=
  if builder.branch.isEmpty then
    match rest with
    | [] => (builder.push .leadingDirectories '*', [])
    | '/' :: behind => (builder.push .leadingDirectories '/', behind)
    | _ => (builder.pushTwoStars, rest)
  else if !builder.isBehindSeparator then
    (builder.pushTwoStars, rest)
  else
    match rest with
    | [] => (builder.pushDirectories true '*', [])
    | '/' :: behind => (builder.pushDirectories false '/', behind)
    | c :: _ =>
      if builder.inGroup && (c == ',' || c == '}') then
        (builder.pushDirectories true '*', rest)
      else
        (builder.pushTwoStars, rest)

end Builder

/-- Ends the last range of a class at a character, which must not come before its start. -/
def closeRange? (c : Char) : List (Char × Char) → Option (List (Char × Char))
  | (low, _) :: before => if c < low then none else some ((low, c) :: before)
  | [] => none

/-- Reads the ranges of a class behind its first character, in reverse, up to the closing bracket.
-/
def cutRanges? (inRange : Bool) (ranges : List (Char × Char)) :
    Text → Option (List (Char × Char) × Text)
  | [] => none
  | ']' :: rest =>
    let ranges := if inRange then ('-', '-') :: ranges else ranges
    some (ranges.reverse, rest)
  | c :: rest =>
    if inRange then
      (closeRange? c ranges).bind fun ranges => cutRanges? false ranges rest
    else if c == '-' then
      cutRanges? true ranges rest
    else
      cutRanges? false ((c, c) :: ranges) rest

/-- Reads a class behind its opening bracket. The first character is never the closing bracket. -/
def cutClass? (text : Text) : Option (GlobPart × Text) :=
  let (negated, body) := match text with
    | '!' :: rest => (true, rest)
    | '^' :: rest => (true, rest)
    | rest => (false, rest)
  match body with
  | [] => none
  | c :: rest =>
    (cutRanges? false [(c, c)] rest).map fun (ranges, tail) => (.oneOf negated ranges, tail)

/-- Reads the part that starts with `c`, and gives the rest behind it. -/
def readPart? (builder : Builder) (c : Char) (rest : Text) : Option (Builder × Text) :=
  if c == '?' then some (builder.push .anyByte c, rest)
  else if c == '*' then
    match rest with
    | '*' :: behind => some (builder.doubleStar behind)
    | _ => some (builder.push .anyBytes c, rest)
  else if c == '[' then
    (cutClass? rest).map fun (part, tail) => (builder.push part ']', tail)
  else if c == '{' then some (builder.openGroup, rest)
  else if c == '}' then builder.closeGroup?.map fun closed => (closed, rest)
  else if c == ',' && builder.inGroup then some (builder.nextBranch, rest)
  else if c == '\\' then
    match rest with
    | escaped :: behind => some (builder.push (.literal escaped) escaped, behind)
    | [] => none
  else some (builder.push (.literal c) c, rest)

/-- Reads a pattern to its end; each part takes at least one character, and `fuel` bounds their
number. Every group must be closed. -/
def readAll? : (fuel : Nat) → Builder → Text → Option (List GlobPart)
  | _, builder, [] => if builder.inGroup then none else some builder.branch.reverse
  | 0, _, _ :: _ => none
  | fuel + 1, builder, c :: rest =>
    (readPart? builder c rest).bind fun (next, behind) => readAll? fuel next behind

def read? (pattern : Text) : Option (List GlobPart) :=
  readAll? pattern.length .initial pattern

end Glob

end UtilityCss
