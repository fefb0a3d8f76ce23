import UtilityCss.Config.FromDatum
import UtilityCss.Json.Number
import UtilityCss.Json.Reader

/-!
# Configurations from JSON

A configuration is a JSON object of its fields, or an array of them in their order. Unknown fields
are left unread. Parts of several shapes are read as data first; data may nest at most 127 levels
deep, counted from the root of the document.
-/

namespace UtilityCss

namespace Json

/-- The deepest nesting of arrays and objects that are read. -/
def depthLimit : Nat := 127

def asText? : Json → Option Text
  | .string raw => decode? raw
  | _ => none

/-- What a value says; `depth` bounds the nesting. -/
def datum? : (depth : Nat) → Json → Option Datum
  | _, .null => some .null
  | _, .bool value => some (.bool value)
  | _, .number value => value.datum?
  | _, .string raw => (decode? raw).map .text
  | 0, .array _ => none
  | depth + 1, .array items => (items.mapM (datum? depth)).map .list
  | 0, .object _ => none
  | depth + 1, .object members =>
    (members.mapM fun (key, value) => do
      return (Datum.text (← decode? key), ← datum? depth value)).map .map

def asTexts? : Json → Option (List Text)
  | .array items => items.mapM asText?
  | _ => none

/-- A mapping from texts, whose values are read by `read`. -/
def asMapping? {α : Type} (read : Json → Option α) : Json → Option (OrderedMap Text α)
  | .object members => do
    let keyed ← members.mapM fun (key, value) => do return (← decode? key, ← read value)
    return OrderedMap.ofList keyed
  | _ => none

/-- The values of known fields among members; no field may be given twice. -/
def fieldValues? (fields : List Text) (members : List (Text × Json)) :
    Option (List (Text × Json)) := do
  let keyed ← members.mapM fun (key, value) => (decode? key).map fun name => (name, value)
  let known := keyed.filter fun (name, _) => fields.contains name
  if (known.map Prod.fst).Nodup then some known else none

/-- The given fields of an object, or of an array that lists the fields in their order. -/
def asFields? (fields : List Text) : Json → Option (List (Text × Json))
  | .object members => fieldValues? fields members
  | .array items => if items.length ≤ fields.length then some (fields.zip items) else none
  | _ => none

/-- Reads a field when it is given, and takes it as `missing` when it is not. -/
def readField? {α : Type} (missing : Option α) (read : Json → Option α) (name : Text)
    (fields : List (Text × Json)) : Option α :=
  match fields.lookup name with
  | none => missing
  | some value => read value

/-- A width in pixels that may be null. -/
def asWidth? (value : Json) : Option (Option UInt32) :=
  (value.datum? 0).bind Datum.asWidth?

/-- A breakpoint: an object of its fields, or an array of them in their order. -/
def asBreakpoint? (value : Json) : Option Breakpoint := do
  let fields ← asFields? ["name".toList, "min".toList, "max".toList] value
  let name ← readField? none asText? "name".toList fields
  let min ← readField? (some none) asWidth? "min".toList fields
  let max ← readField? (some none) asWidth? "max".toList fields
  return ⟨name, min, max⟩

def asBreakpoints? : Json → Option (List Breakpoint)
  | .array items => items.mapM asBreakpoint?
  | _ => none

/-- A literal value below `levels` arrays and objects. -/
def asLiteral? (levels : Nat) (value : Json) : Option Text :=
  (value.datum? (depthLimit - levels)).bind Datum.asLiteral?

/-- A property entry below two levels. -/
def asProperty? (value : Json) : Option PropertyEntry :=
  (value.datum? (depthLimit - 2)).bind Datum.asProperty?

end Json

namespace Config

def ofJson? (document : Json) : Option Config := do
  let fields ← Json.asFields? fieldNames document
  let property ←
    Json.readField? (some ∅) (Json.asMapping? Json.asProperty?) "property".toList fields
  let values ←
    Json.readField? (some ∅) (Json.asMapping? (Json.asLiteral? 2)) "values".toList fields
  let classes ←
    Json.readField? (some ∅) (Json.asMapping? (Json.asMapping? (Json.asLiteral? 3)))
      "classes".toList fields
  let aliases ← Json.readField? (some ∅) (Json.asMapping? Json.asText?) "aliases".toList fields
  let breakpoints ← Json.readField? (some []) Json.asBreakpoints? "breakpoints".toList fields
  let reserved ← Json.readField? (some []) Json.asTexts? "reserveClass".toList fields
  return { property, values, classes, aliases, breakpoints, reserved }

/-- Reads a configuration from the text of a JSON document. -/
def readJson? (text : Text) : Option Config :=
  (Json.read? text).bind ofJson?

end Config

end UtilityCss
