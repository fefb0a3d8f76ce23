import UtilityCss.Glob.Pattern
import UtilityCss.Report.Error

/-!
# Matching glob patterns

A pattern matches the bytes of a path. Matching goes through the parts and keeps all ends that are
possible behind the parts so far; an end is the rest of the path, and the longest rest comes first.
Wildcards may run across slashes. A wildcard and a character class stand for bytes, so a character
of several bytes needs several wildcards.
-/

namespace UtilityCss

namespace Glob

def bytes (text : Text) : List UInt8 :=
  text.flatMap String.utf8EncodeChar

def slash : UInt8 := '/'.toUInt8

/-- The rests of a path that are still to be matched, the longest one first, no two of one length.
-/
abbrev Rests := List (List UInt8)

def addRest (rest : List UInt8) : Rests → Rests
  | [] => [rest]
  | other :: shorter =>
    if rest.length < other.length then other :: addRest rest shorter
    else if rest.length = other.length then other :: shorter
    else rest :: other :: shorter

def union (first second : Rests) : Rests :=
  first.foldr addRest second

/-- All rests of a path, the path itself first. -/
def allRests : List UInt8 → Rests
  | [] => [[]]
  | byte :: path => (byte :: path) :: allRests path

/-- The rests of a path behind its slashes. -/
def behindSlashes : List UInt8 → Rests
  | [] => []
  | byte :: path => if byte = slash then path :: behindSlashes path else behindSlashes path

def afterBytes? : List UInt8 → List UInt8 → Option (List UInt8)
  | [], path => some path
  | _ :: _, [] => none
  | byte :: start, other :: path => if byte = other then afterBytes? start path else none

def afterSlash (rests : Rests) : Rests :=
  rests.filterMap (afterBytes? [slash])

/-- The byte ranges that a range of characters stands for in a class. A range runs from the last
byte of its first character to the first byte of its last one; the other bytes stand alone. -/
def byteRanges (range : Char × Char) : List (UInt8 × UInt8) :=
  let low := bytes [range.1]
  let high := bytes [range.2]
  let alone := fun byte => (byte, byte)
  if range.1 = range.2 then
    low.map alone
  else
    low.dropLast.map alone ++ (low.getLastD 0, high.headD 0) :: high.tail.map alone

def isInClass (negated : Bool) (ranges : List (Char × Char)) (byte : UInt8) : Bool :=
  ((ranges.flatMap byteRanges).any fun range => range.1 ≤ byte && byte ≤ range.2) != negated

/-- The rests behind one byte of a class. -/
def afterByteWhere (isMember : UInt8 → Bool) (rests : Rests) : Rests :=
  rests.filterMap fun
    | [] => none
    | byte :: path => if isMember byte then some path else none

mutual

/-- Whether a part can only stand for nothing, because it is a group of empty alternatives. -/
def isVacant : GlobPart → Bool
  | .alternatives branches => areVacantBranches branches
  | _ => false

/-- Whether all parts can only stand for nothing. -/
def areVacant : List GlobPart → Bool
  | [] => true
  | part :: parts => isVacant part && areVacant parts

/-- Whether all alternatives can only stand for nothing. -/
def areVacantBranches : List (List GlobPart) → Bool
  | [] => true
  | branch :: branches => areVacant branch && areVacantBranches branches

end

mutual

def restsAfter (rests : Rests) : GlobPart → Rests
  | .literal c => rests.filterMap (afterBytes? (bytes [c]))
  | .anyByte => afterByteWhere (fun _ => true) rests
  | .anyBytes => (rests.head?.map allRests).getD []
  | .leadingDirectories => union rests ((rests.head?.map behindSlashes).getD [])
  | .innerDirectories =>
    let behind := afterSlash rests
    union behind ((behind.head?.map behindSlashes).getD [])
  | .trailingDirectories => ((afterSlash rests).head?.map allRests).getD []
  | .oneOf negated ranges => afterByteWhere (isInClass negated ranges) rests
  | .alternatives branches =>
    if areVacantBranches branches then rests else restsAfterBranches rests branches

def restsAfterParts (rests : Rests) : List GlobPart → Rests
  | [] => rests
  | part :: parts => restsAfterParts (restsAfter rests part) parts

/-- The rests behind one of several alternatives; empty alternatives do not count. -/
def restsAfterBranches (rests : Rests) : List (List GlobPart) → Rests
  | [] => []
  | branch :: branches =>
    let others := restsAfterBranches rests branches
    if areVacant branch then others else union (restsAfterParts rests branch) others

end

/-- A pattern that is a double star matches every path. -/
def isEverything : List GlobPart → Bool
  | [.leadingDirectories] => true
  | _ => false

def isMatch (parts : List GlobPart) (path : Text) : Bool :=
  isEverything parts || (restsAfterParts [bytes path] parts).contains []

end Glob

/-- Patterns of which one must match. -/
structure PatternSet where
  patterns : List (List GlobPart)

namespace PatternSet

/-- Reads patterns; the first one that is malformed is reported. -/
def ofPatterns : List Text → Except Error PatternSet
  | [] => .ok ⟨[]⟩
  | pattern :: more =>
    match Glob.read? pattern with
    | none => .error (.invalidGlob pattern)
    | some parts => (ofPatterns more).map fun set => ⟨parts :: set.patterns⟩

/-- Whether one of the patterns matches a path. -/
def isMatch (set : PatternSet) (path : Text) : Bool :=
  set.patterns.any fun parts => Glob.isMatch parts path

end PatternSet

end UtilityCss
