import UtilityCss.Engine.Basic
import UtilityCss.Files.Documents
import UtilityCss.Glob.Match
import UtilityCss.Markup.ClassAttribute

/-!
# Discovery of sources

The sources of a project are the files below its root whose path from the root matches one of the
manifest's input patterns and none of its excludes, the stylesheet itself left out. They are listed
in the order of the tree.
-/

namespace UtilityCss

/-- What was found at the root of a project. -/
structure Discovery where
  root : Text
  manifest : Manifest
  hasManifest : Bool
  files : List Text

namespace Discovery

/-- The path that names lead to from the root. -/
def pathBelow (root : Text) (names : List Text) : Text :=
  names.foldl Path.join root

/-- Whether a file is a source: selected by the patterns, and not the output. -/
def isSource (root output : Text) (inputs excludes : PatternSet) (names : List Text) : Bool :=
  let fromRoot := Text.join ['/'] names
  Path.components (pathBelow root names) ≠ Path.components output &&
    !excludes.isMatch fromRoot && inputs.isMatch fromRoot

/-- The sources below a root; there are none when nothing stands at the root. -/
def scan (tree : FileTree) (root : Text) (manifest : Manifest) : Except Error (List Text) := do
  let inputs ← PatternSet.ofPatterns manifest.input
  let excludes ← PatternSet.ofPatterns manifest.excludes
  let output := manifest.outputPath root
  if tree.contains root then
    let below := ((tree.placeOf? root).map tree.filesBelow).getD []
    return (below.filter (isSource root output inputs excludes)).map (pathBelow root)
  else
    return []

/-- Discovers the sources of a project with the manifest at a path. -/
def run (tree : FileTree) (root manifestPath : Text) : Except Error Discovery := do
  let manifest ← Manifest.loadOrStandard tree manifestPath
  let files ← scan tree root manifest
  return ⟨root, manifest, tree.contains manifestPath, files⟩

/-- The manifest path of a project that names none. -/
def defaultManifestPath (root : Text) : Text :=
  Path.join root manifestFileName

def engine (discovery : Discovery) : Except Error Engine :=
  Engine.start discovery.manifest.config

/-- Where the stylesheet of the project is written. -/
def outputPath (discovery : Discovery) : Text :=
  discovery.manifest.outputPath discovery.root

/-- The class lists of files, in order; the first file that cannot be read is reported. -/
def classListsOf (tree : FileTree) : List Text → Except Error (List Text)
  | [] => .ok []
  | path :: more =>
    match tree.readText? path with
    | none => .error (.unreadable .source path)
    | some source =>
      (classListsOf tree more).map fun lists => ClassAttribute.classLists source ++ lists

def classLists (discovery : Discovery) (tree : FileTree) : Except Error (List Text) :=
  classListsOf tree discovery.files

end Discovery

end UtilityCss
