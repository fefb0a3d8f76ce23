import UtilityCss.Text.Basic

/-!
# Paths

A path is text, and is shown as it was put together; nothing is normalized. Two paths are the same
when their components are: repeated slashes, slashes at the end and inner single points do not
count, a single point at the start does.

A path leads to a place, from the root directory if it is absolute and from the working directory if
not. Paths with different components may lead to one place.
-/

namespace UtilityCss

namespace Path

/-- A component of a path. -/
inductive Component where
  | root
  | here
  | up
  | name (name : Text)
  deriving DecidableEq

/-- The texts between the slashes of a path. -/
def segments (path : Text) : List Text :=
  Text.pieces (· == '/') path

/-- A path from the root of the file system. -/
def isAbsolute (path : Text) : Bool :=
  path.head? == some '/'

/-- A segment that stands for no component, unless it is the first one. -/
def isVoid (segment : Text) : Bool :=
  segment.isEmpty || segment == ['.']

/-- The segments of a path that are not void. They are names unless the path leads up. -/
def names (path : Text) : List Text :=
  (segments path).filter (!isVoid ·)

/-- The component of a segment that is not void. -/
def componentOf (segment : Text) : Component :=
  if segment == ['.', '.'] then .up else .name segment

/-- The components of segments behind the first one. -/
def laterComponents (segments : List Text) : List Component :=
  (segments.filter fun segment => !isVoid segment).map componentOf

def components (path : Text) : List Component :=
  match segments path with
  | [] => []
  | first :: rest =>
    if path.isEmpty then []
    else if first.isEmpty then .root :: laterComponents rest
    else if first == ['.'] then .here :: laterComponents rest
    else componentOf first :: laterComponents rest

/-- A path continued by another one: an absolute one replaces it. -/
def join (base tail : Text) : Text :=
  if isAbsolute tail then tail
  else if base.isEmpty || base.getLast? == some '/' then base ++ tail
  else base ++ '/' :: tail

/-- Reversed segments without the void ones at their start; the very first segment of the path stays
unless it is empty. -/
def dropVoid : List Text → List Text
  | [] => []
  | [first] => if first.isEmpty then [] else [first]
  | segment :: rest => if isVoid segment then dropVoid rest else segment :: rest

/-- A path without its last component; there is none without components. -/
def parent? (path : Text) : Option Text :=
  match dropVoid (segments path).reverse with
  | [] => none
  | _ :: rest =>
    match dropVoid rest with
    | [] => some (if isAbsolute path then ['/'] else [])
    | kept => some (Text.join ['/'] kept.reverse)

/-- The last component of a path, if it is a name. -/
def fileName? (path : Text) : Option Text :=
  match (components path).getLast? with
  | some (.name name) => some name
  | _ => none

/-- What follows the last point of the file name, unless the point is its first character. -/
def extension? (path : Text) : Option Text :=
  (fileName? path).bind fun name =>
    match (Text.pieces (· == '.') name).reverse with
    | last :: before :: more => if more.isEmpty && before.isEmpty then none else some last
    | _ => none

end Path

/-- A place in a file system: the names on the way to it from the root directory. Places are ordered
name by name, and names character by character, which is also the order of their bytes. -/
abbrev Place := List Text

namespace Path

/-- Where a path sets out: at the root directory if it is absolute, else at the working directory.
-/
def startOf (home : Place) (path : Text) : Place :=
  if isAbsolute path then [] else home

/-- The place that components lead to from another place. What lies above the root directory is the
root directory. -/
def lead : Place → List Component → Place
  | start, [] => start
  | _, .root :: rest => lead [] rest
  | start, .here :: rest => lead start rest
  | start, .up :: rest => lead start.dropLast rest
  | start, .name name :: rest => lead (start ++ [name]) rest

/-- The place that a path leads to, seen from a working directory, if its way can be followed. -/
def target? (home : Place) (path : Text) : Option Place :=
  if path.isEmpty then none else some (lead home (components path))

end Path

end UtilityCss
