import UtilityCss.Config.Basic
import UtilityCss.Config.Datum

/-!
# Configurations from data

The parts of a configuration that admit several shapes are read from data: a literal is a text or a
number, a property entry is a name or a group with a template. A whole configuration can be read
from data as well; there, a text that is expected must be a text, and an expected mapping must be
there.
-/

namespace UtilityCss

namespace Datum

def asText? : Datum → Option Text
  | .text value => some value
  | _ => none

def asTexts? : Datum → Option (List Text)
  | .list items => items.mapM asText?
  | _ => none

/-- A literal CSS value: a text, or the text of a number. Integers that 64 bits with a sign do not
hold are written as floating-point numbers. -/
def asLiteral? : Datum → Option Text
  | .text value => some value
  | .natural value => some (if value < bitBound 63 then Text.ofNat value else (Real.ofNat value).render)
  | .integer value => some (Real.sign (value < 0) ++ Text.ofNat value.natAbs)
  | .real value => some value.render
  | _ => none

/-- The property names of a group: one name or a list of names. -/
def asNames? : Datum → Option (List Text)
  | .text name => some [name]
  | datum => datum.asTexts?

/-- A width in pixels that may be left out. -/
def asWidth? : Datum → Option (Option UInt32)
  | .null => some none
  | .natural value => if value < bitBound 32 then some (some value.toUInt32) else none
  | .integer value => if value = 0 then some (some 0) else none
  | _ => none

/-- The field that a key names, by its name or by its place among the fields; other texts and places
name no field. -/
def asField? (fields : List Text) : Datum → Option (Option Text)
  | .text name => some (if fields.contains name then some name else none)
  | .natural place => some fields[place]?
  | _ => none

/-- The values of known fields among entries; no field may be given twice, and every key must be one
that could name a field. -/
def fieldValues? (fields : List Text) (entries : List (Datum × Datum)) :
    Option (List (Text × Datum)) := do
  let keyed ← entries.mapM fun (key, value) => (asField? fields key).map fun field => (field, value)
  let known := keyed.filterMap fun (field, value) => field.map fun name => (name, value)
  if (known.map Prod.fst).Nodup then some known else none

/-- The value of a field among the values of known fields. -/
def field? (name : Text) (known : List (Text × Datum)) : Option Datum :=
  known.lookup name

/-- A property entry: a name, or a group of names with a template. -/
def asProperty? : Datum → Option PropertyEntry
  | .text name => some (.simple name)
  | .map entries => do
    let known ← fieldValues? ["property".toList, "value".toList] entries
    let names ← (← field? "property".toList known).asNames?
    let template ← (← field? "value".toList known).asText?
    return .templated names template
  | _ => none

/-- A mapping from texts, whose values are read by `read`. -/
def asMapping? {α : Type} (read : Datum → Option α) : Datum → Option (OrderedMap Text α)
  | .map entries => do
    let keyed ← entries.mapM fun (key, value) => do return (← key.asText?, ← read value)
    return OrderedMap.ofList keyed
  | _ => none

/-- A breakpoint: a mapping of its fields, or its fields in their order. -/
def asBreakpoint? : Datum → Option Breakpoint
  | .map entries => do
    let known ← fieldValues? ["name".toList, "min".toList, "max".toList] entries
    let name ← (← field? "name".toList known).asText?
    let min ← ((field? "min".toList known).getD .null).asWidth?
    let max ← ((field? "max".toList known).getD .null).asWidth?
    return ⟨name, min, max⟩
  | .list (name :: widths) => do
    let name ← name.asText?
    let min ← (widths.headD .null).asWidth?
    let max ← ((widths.drop 1).headD .null).asWidth?
    if widths.length ≤ 2 then some ⟨name, min, max⟩ else none
  | _ => none

def asBreakpoints? : Datum → Option (List Breakpoint)
  | .list items => items.mapM asBreakpoint?
  | _ => none

end Datum

namespace Config

/-- The names of the fields of a configuration. -/
def fieldNames : List Text :=
  ["property".toList, "values".toList, "classes".toList, "aliases".toList, "breakpoints".toList,
    "reserveClass".toList]

/-- Reads a field when it is given, and takes it as empty when it is not. -/
def readField? {α : Type} (empty : α) (read : Datum → Option α) (name : Text)
    (fields : List (Text × Datum)) : Option α :=
  match fields.lookup name with
  | none => some empty
  | some datum => read datum

/-- Reads a configuration from the values of its fields. -/
def ofFields? (fields : List (Text × Datum)) : Option Config := do
  let property ← readField? ∅ (Datum.asMapping? Datum.asProperty?) "property".toList fields
  let values ← readField? ∅ (Datum.asMapping? Datum.asLiteral?) "values".toList fields
  let classes ←
    readField? ∅ (Datum.asMapping? (Datum.asMapping? Datum.asLiteral?)) "classes".toList fields
  let aliases ← readField? ∅ (Datum.asMapping? Datum.asText?) "aliases".toList fields
  let breakpoints ← readField? [] Datum.asBreakpoints? "breakpoints".toList fields
  let reserved ← readField? [] Datum.asTexts? "reserveClass".toList fields
  return { property, values, classes, aliases, breakpoints, reserved }

end Config

end UtilityCss
