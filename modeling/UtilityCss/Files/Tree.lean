import UtilityCss.Files.Path

/-!
# File trees

A tree is the list of the files and directories of a file system in the order of their places, where
places are compared name by name; so what lies below a directory follows it at once. It also knows
the working directory, which is where relative paths set out. Links do not occur. Paths are resolved
step by step, as a file system does: every step but the last must be a directory, and the directory
above the root directory is the root directory.
-/

namespace UtilityCss

/-- What a file holds: text, or bytes that are not text. -/
inductive Content where
  | text (value : Text)
  | binary (bytes : List UInt8)
  deriving DecidableEq

namespace Content

def ofBytes (bytes : ByteArray) : Content :=
  match String.fromUTF8? bytes with
  | some string => text string.toList
  | none => binary bytes.toList

end Content

/-- What stands at a place. -/
inductive FileEntry where
  | file (content : Content)
  | directory
  deriving DecidableEq

/-- The files and directories of a file system, in the order of their places, and the place of the
working directory. -/
structure FileTree where
  home : Place
  entries : List (Place × FileEntry)
  ordered : (entries.map Prod.fst).Pairwise (· < ·)

namespace FileTree

/-- The root directory alone, which then is the working directory. -/
def empty : FileTree :=
  ⟨[], [], List.Pairwise.nil⟩

instance : Inhabited FileTree := ⟨empty⟩

/-- What a list of entries holds at a place. -/
def find? (place : Place) : List (Place × FileEntry) → Option FileEntry
  | [] => none
  | (other, entry) :: rest => if other = place then some entry else find? place rest

/-- What stands at a place; the root directory is always there. -/
def entryAt? (tree : FileTree) (place : Place) : Option FileEntry :=
  if place.isEmpty then some .directory else find? place tree.entries

/-- Writes an entry at its place in the order. -/
def putEntry (place : Place) (entry : FileEntry) :
    List (Place × FileEntry) → List (Place × FileEntry)
  | [] => [(place, entry)]
  | (other, present) :: rest =>
    if place < other then (place, entry) :: (other, present) :: rest
    else if other < place then (other, present) :: putEntry place entry rest
    else (place, entry) :: rest

/-- Two places of which neither comes first are the same. -/
theorem place_eq_of_not_lt {place other : Place} (notBefore : ¬place < other)
    (notBehind : ¬other < place) : place = other :=
  List.le_antisymm (List.not_lt.1 notBehind) (List.not_lt.1 notBefore)

/-- Writing an entry adds no place but its own. -/
theorem mem_putEntry {place other : Place} {entry : FileEntry}
    {entries : List (Place × FileEntry)}
    (present : other ∈ (putEntry place entry entries).map Prod.fst) :
    other = place ∨ other ∈ entries.map Prod.fst := by
  induction entries with
  | nil => simpa [putEntry] using present
  | cons head rest ih =>
    rw [putEntry] at present
    split at present
    · simpa using present
    · split at present
      · rcases List.mem_cons.1 present with isHead | inRest
        · exact Or.inr (List.mem_cons.2 (Or.inl isHead))
        · exact (ih inRest).imp_right (List.mem_cons_of_mem _)
      · rcases List.mem_cons.1 present with isPlace | inRest
        · exact Or.inl isPlace
        · exact Or.inr (List.mem_cons_of_mem _ inRest)

/-- Writing an entry keeps the places in order. -/
theorem ordered_putEntry (place : Place) (entry : FileEntry)
    {entries : List (Place × FileEntry)} (ordered : (entries.map Prod.fst).Pairwise (· < ·)) :
    ((putEntry place entry entries).map Prod.fst).Pairwise (· < ·) := by
  induction entries with
  | nil => simp [putEntry]
  | cons head rest ih =>
    obtain ⟨first, later⟩ := List.pairwise_cons.1 ordered
    rw [putEntry]
    split
    · rename_i before
      refine List.pairwise_cons.2 ⟨?_, ordered⟩
      intro other present
      rcases List.mem_cons.1 present with isHead | inRest
      · exact isHead ▸ before
      · exact List.lt_trans before (first other inRest)
    · rename_i notBefore
      split
      · rename_i behind
        refine List.pairwise_cons.2 ⟨?_, ih later⟩
        intro other present
        rcases mem_putEntry present with isPlace | inRest
        · exact isPlace ▸ behind
        · exact first other inRest
      · rename_i notBehind
        have same : place = head.1 := place_eq_of_not_lt notBefore notBehind
        exact List.pairwise_cons.2 ⟨same ▸ first, later⟩

/-- A tree with an entry written at a place. -/
def put (tree : FileTree) (place : Place) (entry : FileEntry) : FileTree :=
  ⟨tree.home, putEntry place entry tree.entries, ordered_putEntry place entry tree.ordered⟩

/-- A tree without a place and all that lies below it. -/
def removeBelow (tree : FileTree) (place : Place) : FileTree :=
  ⟨tree.home, tree.entries.filter fun (other, _) => !place.isPrefixOf other,
    tree.ordered.sublist (List.filter_sublist.map Prod.fst)⟩

def isDirectoryAt (tree : FileTree) (place : Place) : Bool :=
  tree.entryAt? place == some .directory

/-- The place that segments lead to from another place. The last one need not exist. -/
def follow? (tree : FileTree) (start : Place) : List Text → Option Place
  | [] => some start
  | segment :: rest =>
    if !tree.isDirectoryAt start then none
    else if Path.isVoid segment then tree.follow? start rest
    else if segment == ['.', '.'] then tree.follow? start.dropLast rest
    else tree.follow? (start ++ [segment]) rest

/-- The place that a path leads to. What stands there need not exist, the way to it must. -/
def placeOf? (tree : FileTree) (path : Text) : Option Place :=
  if path.isEmpty then none
  else tree.follow? (Path.startOf tree.home path) (Path.segments path)

def lookup? (tree : FileTree) (path : Text) : Option FileEntry :=
  (tree.placeOf? path).bind tree.entryAt?

/-- Whether a path leads to a file or a directory. -/
def contains (tree : FileTree) (path : Text) : Bool :=
  (tree.lookup? path).isSome

/-- The text of the file that a path leads to. -/
def readText? (tree : FileTree) (path : Text) : Option Text :=
  match tree.lookup? path with
  | some (.file (.text value)) => some value
  | _ => none

/-- A tree with text written to the file at a path. The directory of the file must exist, and no
directory may stand in its place. -/
def writeText? (tree : FileTree) (path : Text) (text : Text) : Option FileTree :=
  (tree.placeOf? path).bind fun place =>
    if tree.isDirectoryAt place then none else some (tree.put place (.file (.text text)))

/-- Makes the directories on the way that segments lead, as far as no file stands in the way. Gives
the tree so far, and whether the way could be made. -/
def makeWay (tree : FileTree) (start : Place) : List Text → FileTree × Bool
  | [] => (tree, true)
  | segment :: rest =>
    if Path.isVoid segment then tree.makeWay start rest
    else if segment == ['.', '.'] then tree.makeWay start.dropLast rest
    else
      match tree.entryAt? (start ++ [segment]) with
      | some .directory => tree.makeWay (start ++ [segment]) rest
      | some (.file _) => (tree, false)
      | none => (tree.put (start ++ [segment]) .directory).makeWay (start ++ [segment]) rest

/-- Makes the directory at a path with all directories on the way. -/
def makeDirectories (tree : FileTree) (path : Text) : FileTree × Bool :=
  tree.makeWay (Path.startOf tree.home path) (Path.segments path)

/-- The way to a working directory, and nothing else. -/
def ofHome (home : Place) : FileTree :=
  ({ empty with home }.makeWay [] home).1

/-- The files below a place, by the names that lead to them from there. A file at the place itself
has no such names. -/
def filesBelow (tree : FileTree) (place : Place) : List (List Text) :=
  tree.entries.filterMap fun
    | (other, .file _) => if place.isPrefixOf other then some (other.drop place.length) else none
    | (_, .directory) => none

/-- Places an entry and the directories above it, whatever stood there before. The working directory
and what lies above it stay directories. -/
def plant (tree : FileTree) (path : Text) (entry : FileEntry) : FileTree :=
  match Path.target? tree.home path with
  | none => tree
  | some place =>
    let way := (tree.makeWay [] place.dropLast).1
    if place.isPrefixOf tree.home then way
    else if entry == .directory && way.isDirectoryAt place then way
    else (way.removeBelow place).put place entry

/-- A tree without what a path leads to, unless the working directory lies there. -/
def uproot (tree : FileTree) (path : Text) : FileTree :=
  match tree.placeOf? path with
  | some place => if place.isPrefixOf tree.home then tree else tree.removeBelow place
  | none => tree

/-- The text files of a tree that another tree does not hold in the same state. -/
def textsNewIn (before after : FileTree) : List (Place × Text) :=
  after.entries.filterMap fun
    | (place, .file (.text value)) =>
      if before.entryAt? place = some (.file (.text value)) then none else some (place, value)
    | _ => none

end FileTree

end UtilityCss
