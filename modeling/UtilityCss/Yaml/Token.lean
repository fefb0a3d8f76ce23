import UtilityCss.Yaml.Character

/-!
# Tokens of YAML

Between characters and nodes stand tokens: the indicators that are written, the starts and ends of
block collections that follow from indentation, and scalars with their properties.
-/

namespace UtilityCss

namespace Yaml

/-- How a scalar is written. Only plain scalars can mean more than text, and literal blocks may be
marked as integers. -/
inductive ScalarStyle where
  | plain
  | quoted
  | literal
  | folded
  deriving DecidableEq

/-- A tag as it is written: a handle and a suffix. A handle without characters leaves the suffix as
the whole tag. -/
structure WrittenTag where
  handle : Text
  suffix : Text
  deriving DecidableEq

/-- The tokens of a document. -/
inductive Token where
  | version (major minor : Nat)
  | tagHandle (handle meaning : Text)
  | documentStart
  | documentEnd
  | blockSequenceStart
  | blockMappingStart
  | blockEnd
  | flowSequenceStart
  | flowSequenceEnd
  | flowMappingStart
  | flowMappingEnd
  | blockEntry
  | flowEntry
  | key
  | value
  | aliasTo (name : Text)
  | anchor (name : Text)
  | tag (written : WrittenTag)
  | scalar (style : ScalarStyle) (text : Text)
  deriving DecidableEq

end Yaml

end UtilityCss
