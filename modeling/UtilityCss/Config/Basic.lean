import UtilityCss.Text.Basic
import UtilityCss.Ordered.Map

/-!
# Configurations

A configuration is the vocabulary that class names are read with: what a type token stands for,
which names stand for which literal values, which semantic classes and aliases exist, and which
widths a breakpoint name selects. Every mapping keeps the order in which it was written.
-/

namespace UtilityCss

/-- What a type token stands for: one CSS property, or several that share a value template in which
slot `0` takes the primary and slot `1` the secondary value. -/
inductive PropertyEntry where
  | simple (property : Text)
  | templated (properties : List Text) (template : Text)
  deriving DecidableEq

namespace PropertyEntry

/-- The CSS properties that an entry writes to. -/
def propertyNames : PropertyEntry → List Text
  | simple property => [property]
  | templated properties _ => properties

end PropertyEntry

/-- A named range of viewport widths, in pixels; a missing bound leaves its side open. -/
structure Breakpoint where
  name : Text
  min : Option UInt32
  max : Option UInt32
  deriving DecidableEq

namespace Breakpoint

/-- The condition that the width is at least `width` pixels. -/
def minCondition (width : UInt32) : Text :=
  "(min-width: ".toList ++ Text.ofNat width.toNat ++ "px)".toList

/-- The condition that the width is at most `width` pixels. -/
def maxCondition (width : UInt32) : Text :=
  "(max-width: ".toList ++ Text.ofNat width.toNat ++ "px)".toList

/-- The media condition of a breakpoint; it is empty when both sides are open. -/
def mediaCondition (breakpoint : Breakpoint) : Text :=
  match breakpoint.min, breakpoint.max with
  | some least, some most => minCondition least ++ " and ".toList ++ maxCondition most
  | some least, none => minCondition least
  | none, some most => maxCondition most
  | none, none => []

end Breakpoint

/-- A mapping from value names to literal CSS values. -/
abbrev ValueRegistry := OrderedMap Text Text

/-- The vocabulary that class names are read with. -/
structure Config where
  property : OrderedMap Text PropertyEntry := ∅
  values : ValueRegistry := ∅
  classes : OrderedMap Text (OrderedMap Text Text) := ∅
  aliases : OrderedMap Text Text := ∅
  breakpoints : List Breakpoint := []
  reserved : List Text := []
  deriving DecidableEq

namespace Config

def empty : Config where

instance : Inhabited Config := ⟨empty⟩

/-- The breakpoint that a name selects: the first of that name. -/
def breakpoint? (config : Config) (name : Text) : Option Breakpoint :=
  config.breakpoints.find? fun breakpoint => breakpoint.name = name

def withProperty (config : Config) (token : Text) (entry : PropertyEntry) : Config :=
  { config with property := config.property.insert token entry }

def withValue (config : Config) (name literal : Text) : Config :=
  { config with values := config.values.insert name literal }

/-- A configuration in which a property group gives one more class a value. -/
def withClass (config : Config) (group name literal : Text) : Config :=
  { config with
    classes := config.classes.alter group fun names => (names.getD ∅).insert name literal }

def withAlias (config : Config) (name body : Text) : Config :=
  { config with aliases := config.aliases.insert name body }

def withBreakpoint (config : Config) (breakpoint : Breakpoint) : Config :=
  { config with breakpoints := config.breakpoints ++ [breakpoint] }

/-- A configuration with one more reserved class list. -/
def withReserved (config : Config) (classes : Text) : Config :=
  { config with reserved := config.reserved ++ [classes] }

end Config

end UtilityCss
