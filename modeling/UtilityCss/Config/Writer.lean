import UtilityCss.Config.Basic
import UtilityCss.Json.Quoted

/-!
# Writing configurations

A configuration is written as one compact JSON object with all its fields. Property names of a group
are always a list, literals are always strings, and a bound that is not set is left out.
-/

namespace UtilityCss

namespace Json

def renderArray (items : List Text) : Text :=
  '[' :: Text.join [','] items ++ [']']

/-- A key, a colon and the text of its value. -/
def renderMember (key value : Text) : Text :=
  encode key ++ ':' :: value

def renderObject (members : List (Text × Text)) : Text :=
  '{' :: Text.join [','] (members.map fun (key, value) => renderMember key value) ++ ['}']

/-- A mapping whose values are written by `render`. -/
def renderMapping {α : Type} (render : α → Text) (map : OrderedMap Text α) : Text :=
  renderObject (map.entries.map fun (key, value) => (key, render value))

end Json

namespace PropertyEntry

/-- A property entry: its name, or its list of names and its template. -/
def toJson : PropertyEntry → Text
  | simple property => Json.encode property
  | templated properties template =>
    Json.renderObject
      [("property".toList, Json.renderArray (properties.map Json.encode)),
        ("value".toList, Json.encode template)]

end PropertyEntry

namespace Breakpoint

/-- A bound that is set, as a member. -/
def boundMember (name : Text) : Option UInt32 → List (Text × Text)
  | none => []
  | some width => [(name, Text.ofNat width.toNat)]

/-- A breakpoint: its name and the bounds that are set. -/
def toJson (breakpoint : Breakpoint) : Text :=
  Json.renderObject
    (("name".toList, Json.encode breakpoint.name) ::
      boundMember "min".toList breakpoint.min ++ boundMember "max".toList breakpoint.max)

end Breakpoint

namespace Config

def toJson (config : Config) : Text :=
  Json.renderObject
    [("property".toList, Json.renderMapping PropertyEntry.toJson config.property),
      ("values".toList, Json.renderMapping Json.encode config.values),
      ("classes".toList, Json.renderMapping (Json.renderMapping Json.encode) config.classes),
      ("aliases".toList, Json.renderMapping Json.encode config.aliases),
      ("breakpoints".toList, Json.renderArray (config.breakpoints.map Breakpoint.toJson)),
      ("reserveClass".toList, Json.renderArray (config.reserved.map Json.encode))]

end Config

end UtilityCss
