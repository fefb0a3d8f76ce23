import UtilityCss.Text.Basic

/-!
# Property names

Properties may be written in camel case. `kebabCase` gives the hyphenated name: a capital becomes a
hyphen and its small letter, and a vendor name in front of a capital gains a leading hyphen. Custom
properties, which start with two hyphens, stay as they are.
-/

namespace UtilityCss

namespace PropertyName

def vendors : List Text :=
  ["webkit".toList, "moz".toList, "ms".toList, "o".toList]

/-- Whether a text begins with an ASCII capital. -/
def startsUpper : Text → Bool
  | [] => false
  | c :: _ => c.isUpper

/-- Writes a capital as a hyphen and its small letter. -/
def hyphenate (c : Char) : Text :=
  if c.isUpper then ['-', c.toLower] else [c]

/-- The vendor name that a property starts with, and the rest; a capital must follow the name. -/
def splitVendor? (name : Text) : Option (Text × Text) :=
  vendors.findSome? fun vendor =>
    match Text.after? vendor name with
    | some rest => if startsUpper rest then some (vendor, rest) else none
    | none => none

def kebabCase (name : Text) : Text :=
  if ['-', '-'].isPrefixOf name then
    name
  else
    match splitVendor? name with
    | some (vendor, rest) => '-' :: vendor ++ rest.flatMap hyphenate
    | none => name.flatMap hyphenate

end PropertyName

end UtilityCss
