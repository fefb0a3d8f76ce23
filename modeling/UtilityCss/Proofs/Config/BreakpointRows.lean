import UtilityCss.Proofs.Config.DataFirst
import UtilityCss.Proofs.Ordered.Rows

/-!
# Rows of a breakpoint

A breakpoint is read as data or by its fields. Its rows are the entries of its mapping with the data
of their keys and values. The data name a field by its name or by its place; the key spells a field
only by its name. So what is spelled is named, and at most one row names a field.
-/

namespace UtilityCss

namespace Yaml

namespace Document

/-- The text of the scalar that a node stands for. -/
def text? (document : Document) (node : Node) : Option Text :=
  match document.target? node with
  | some (.scalar _ _ text) => some text
  | _ => none

def meaning? (document : Document) (node : Node) : Option Datum :=
  match document.target? node with
  | some (.scalar tag style text) => (Meaning.ofScalar tag style text).toOption
  | _ => none

variable {document : Document} {node : Node} {tag : Option Text} {style : ScalarStyle} {text : Text}
  {said : Datum}

theorem text?_eq (target : document.target? node = some (.scalar tag style text)) :
    document.text? node = some text := by
  rw [text?, target]

theorem meaning?_eq (target : document.target? node = some (.scalar tag style text))
    (means : Meaning.ofScalar tag style text = .ok said) : document.meaning? node = some said := by
  simp [meaning?, target, means, Except.toOption]

end Document

namespace Read

variable {document : Document} {node : Node} {depth count : Nat}

/-- An entry of a breakpoint with the data of its key and its value. -/
structure BreakpointRow where
  entry : Node × Node
  data : Datum × Datum
  keyCount : Nat
  valueCount : Nat

namespace BreakpointRow

def fieldNames : List Text :=
  ["name".toList, "min".toList, "max".toList]

/-- The field that the data name, by its name or by its place. -/
def field? (row : BreakpointRow) : Option Text :=
  (Datum.asField? fieldNames row.data.1).join

/-- The field that the key spells. -/
def spelled? (document : Document) (row : BreakpointRow) : Option Text :=
  (document.text? row.entry.1).filter fun name => fieldNames.contains name

def knownData (rows : List BreakpointRow) : List (Text × Datum) :=
  rows.filterMap fun row => row.field?.map fun name => (name, row.data.2)

def spelledFields (document : Document) (rows : List BreakpointRow) : List (Text × Node) :=
  rows.filterMap fun row => (row.spelled? document).map fun name => (name, row.entry.2)

def found? (rows : List BreakpointRow) (name : Text) : Option BreakpointRow :=
  rows.find? fun row => row.field? = some name

/-- What is said of a field; a field that no row names is null. -/
def saidOf (rows : List BreakpointRow) (name : Text) : Datum :=
  ((found? rows name).map (·.data.2)).getD .null

/-- What is said of a row is read from its nodes. -/
structure IsRead (document : Document) (depth : Nat) (row : BreakpointRow) : Prop where
  key : Takes document (datum depth row.entry.1) row.data.1 row.keyCount
  value : Takes document (datum depth row.entry.2) row.data.2 row.valueCount
  affordable : row.keyCount + row.valueCount ≤ document.aliasLimit

variable {row : BreakpointRow} {rows : List BreakpointRow} {name : Text}

theorem IsRead.affordableKey (isRead : row.IsRead document depth) :
    row.keyCount ≤ document.aliasLimit := by
  have room := isRead.affordable
  omega

theorem IsRead.affordableValue (isRead : row.IsRead document depth) :
    row.valueCount ≤ document.aliasLimit := by
  have room := isRead.affordable
  omega

theorem exists_rows {entries : List (Node × Node)} {data : List (Datum × Datum)}
    (affordable : count ≤ document.aliasLimit)
    (takes : Takes document (entries.mapM (pair (datum depth) (datum depth))) data count) :
    ∃ rows : List BreakpointRow, rows.map (·.entry) = entries ∧ rows.map (·.data) = data ∧
      (rows.map (·.keyCount)).sum + (rows.map (·.valueCount)).sum = count ∧
      ∀ row ∈ rows, row.IsRead document depth := by
  induction entries generalizing data count with
  | nil =>
      rcases takes.eq_of_pure affordable with ⟨rfl, rfl⟩
      exact ⟨[], rfl, rfl, rfl, by simp⟩
  | cons entry entries ih =>
      have steady : ∀ entry : Node × Node,
          IsSteady document (pair (datum depth) (datum depth) entry) :=
        fun entry => (IsSteady.datum depth entry.1).pair (IsSteady.datum depth entry.2)
      rcases exists_of_takes_mapM_cons steady affordable takes with
        ⟨said, more, first, second, rfl, isCount, takesEntry, takesMore⟩
      rcases exists_of_takes_pair (IsSteady.datum depth) (IsSteady.datum depth) (by omega)
        takesEntry with ⟨keyCount, valueCount, isFirst, takesKey, takesValue⟩
      rcases ih (by omega) takesMore with ⟨rows, rfl, rfl, isSecond, areRead⟩
      refine ⟨⟨entry, said, keyCount, valueCount⟩ :: rows, rfl, rfl, ?_, ?_⟩
      · simp only [List.map_cons, List.sum_cons]
        omega
      · intro row member
        rcases List.mem_cons.mp member with rfl | inRows
        · have room : keyCount + valueCount ≤ document.aliasLimit := by omega
          exact ⟨takesKey, takesValue, room⟩
        · exact areRead row inRows

/-! ## Keys -/

/-- A key that can name a field is a scalar, and means its text or a natural number. -/
theorem IsRead.key_cases (isRead : row.IsRead document depth)
    (names : (Datum.asField? fieldNames row.data.1).isSome = true) :
    ∃ tag style text, Takes document (follow row.entry.1) (.scalar tag style text) row.keyCount ∧
      Meaning.ofScalar tag style text = .ok row.data.1 ∧
      (row.data.1 = .text text ∨ ∃ place, row.data.1 = .natural place) := by
  have affordable := isRead.affordableKey
  have takes := isRead.key
  cases said : row.data.1 with
  | text other =>
      rw [said] at takes
      rcases takes_datum_scalar affordable takes (by simp) (by simp) with
        ⟨tag, style, text, follows, means⟩
      have same : other = text := Meaning.eq_of_asText? means rfl
      subst same
      exact ⟨tag, style, other, follows, means, Or.inl rfl⟩
  | natural place =>
      rw [said] at takes
      rcases takes_datum_scalar affordable takes (by simp) (by simp) with
        ⟨tag, style, text, follows, means⟩
      exact ⟨tag, style, text, follows, means, Or.inr ⟨place, rfl⟩⟩
  | _ => simp [said, Datum.asField?] at names

theorem not_mem_fieldNames {text : Text} {place : Nat}
    (number : Meaning.integer text = .ok (some (.natural place))) : text ∉ fieldNames := by
  intro member
  simp only [fieldNames, List.mem_cons, List.not_mem_nil, or_false] at member
  rcases member with rfl | rfl | rfl <;> cases number

/-- A key that means a text spells the field that the data name; another one spells none. -/
theorem IsRead.spelled?_cases (isRead : row.IsRead document depth)
    (names : (Datum.asField? fieldNames row.data.1).isSome = true) :
    (∃ text, row.data.1 = .text text ∧ row.spelled? document = row.field?) ∨
      ∃ place, row.data.1 = .natural place ∧ row.spelled? document = none ∧
        row.field? = fieldNames[place]? := by
  rcases isRead.key_cases names with ⟨tag, style, text, follows, means, isText | ⟨place, isPlace⟩⟩
  · left
    have target := target?_of_takes follows isRead.affordableKey
    refine ⟨text, isText, ?_⟩
    rw [spelled?, field?, isText, Document.text?_eq target, Datum.asField?]
    simp [Option.filter]
  · right
    have target := target?_of_takes follows isRead.affordableKey
    rw [isPlace] at means
    have notField := not_mem_fieldNames (Meaning.integer_of_natural means)
    refine ⟨place, isPlace, ?_, ?_⟩
    · simp [spelled?, Document.text?_eq target, Option.filter, notField]
    · simp [field?, isPlace, Datum.asField?]

theorem IsRead.meaning?_key (isRead : row.IsRead document depth)
    (names : (Datum.asField? fieldNames row.data.1).isSome = true) :
    document.meaning? row.entry.1 = some row.data.1 := by
  rcases isRead.key_cases names with ⟨tag, style, text, follows, means, _⟩
  exact Document.meaning?_eq (target?_of_takes follows isRead.affordableKey) means

theorem IsRead.named (isRead : row.IsRead document depth)
    (names : (Datum.asField? fieldNames row.data.1).isSome = true) :
    Takes document (named row.entry) ((document.text? row.entry.1).getD [], row.entry.2)
      row.keyCount := by
  rcases isRead.key_cases names with ⟨tag, style, text, follows, _, _⟩
  rw [Document.text?_eq (target?_of_takes follows isRead.affordableKey), Option.getD_some]
  apply takes_bind_free (takes_bind_free follows (takes_pure text))
  exact takes_pure (text, row.entry.2)

/-! ## Fields -/

/-- Every row is read, its key can name a field, and no field is named twice. -/
structure AreRead (document : Document) (depth : Nat) (rows : List BreakpointRow) : Prop where
  each : ∀ row ∈ rows, row.IsRead document depth
  names : ∀ row ∈ rows, (Datum.asField? fieldNames row.data.1).isSome = true
  distinct : (rows.filterMap field?).Nodup

theorem AreRead.field?_of_spelled? (areRead : AreRead document depth rows) :
    ∀ row ∈ rows, ∀ name, row.spelled? document = some name → row.field? = some name := by
  intro row member name spelled
  rcases (areRead.each row member).spelled?_cases (areRead.names row member) with
    ⟨_, _, same⟩ | ⟨_, _, none, _⟩
  · rw [← same, spelled]
  · rw [none] at spelled
    cases spelled

theorem AreRead.fields (areRead : AreRead document depth rows) :
    Takes document (fields fieldNames (rows.map (·.entry)))
      (spelledFields document rows) (rows.map (·.keyCount)).sum := by
  have keyed : Takes document ((rows.map (·.entry)).mapM Read.named)
      (rows.map fun row => ((document.text? row.entry.1).getD [], row.entry.2))
      (rows.map (·.keyCount)).sum := by
    have each := areRead.each
    have names := areRead.names
    clear areRead
    induction rows with
    | nil => exact takes_pure []
    | cons row rows ih =>
        have later := ih (fun other member => each other (List.mem_cons_of_mem row member))
          fun other member => names other (List.mem_cons_of_mem row member)
        exact takes_mapM_cons
          ((each row List.mem_cons_self).named (names row List.mem_cons_self)) later
  have known : (rows.map fun row => ((document.text? row.entry.1).getD [], row.entry.2)).filter
        (fun item => fieldNames.contains item.1) =
      spelledFields document rows := by
    rw [spelledFields, ← List.filterMap_eq_filter, List.filterMap_map]
    apply List.filterMap_congr
    intro row member
    rcases (areRead.each row member).key_cases (areRead.names row member) with
      ⟨tag, style, text, follows, _⟩
    have target := target?_of_takes follows (areRead.each row member).affordableKey
    have isText := Document.text?_eq target
    simp [spelled?, isText, Option.filter, Option.guard]
  -- keys that spell a field name it in the data, where no field is named twice
  have distinct : ((spelledFields document rows).map Prod.fst).Nodup := by
    rw [spelledFields, List.map_filterMap]
    simp only [Option.map_map, Function.comp_def, Option.map_id']
    exact areRead.distinct.sublist
      (Rows.filterMap_sublist_filterMap areRead.field?_of_spelled?)
  apply takes_bind_free keyed
  simp only
  rw [known, if_pos distinct]
  exact takes_pure _

theorem areRead_of_fieldValues? {known : List (Text × Datum)}
    (each : ∀ row ∈ rows, row.IsRead document depth)
    (values : Datum.fieldValues? fieldNames (rows.map (·.data)) = some known) :
    AreRead document depth rows ∧
      known = knownData rows := by
  have keyed : ∀ {pairs : List (Option Text × Datum)},
      ((rows.map (·.data)).mapM fun data =>
        (Datum.asField? fieldNames data.1).map fun field => (field, data.2)) = some pairs →
      (∀ row ∈ rows, (Datum.asField? fieldNames row.data.1).isSome = true) ∧
        pairs = rows.map fun row => (row.field?, row.data.2) := by
    clear values each
    induction rows with
    | nil =>
        intro pairs isPairs
        cases isPairs
        simp
    | cons row rows ih =>
        intro pairs isPairs
        simp only [List.map_cons, List.mapM_cons, Option.bind_eq_bind, Option.bind_eq_some_iff,
          Option.map_eq_some_iff, Option.pure_def, Option.some.injEq] at isPairs
        rcases isPairs with ⟨_, ⟨field, isField, rfl⟩, others, areOthers, rfl⟩
        rcases ih areOthers with ⟨names, rfl⟩
        refine ⟨?_, ?_⟩
        · intro other member
          rcases List.mem_cons.mp member with rfl | inRows
          · rw [isField, Option.isSome_some]
          · exact names other inRows
        · rw [List.map_cons, field?, isField, Option.join_some]
  rw [Datum.fieldValues?] at values
  simp only [Option.bind_eq_bind, Option.bind_eq_some_iff] at values
  rcases values with ⟨pairs, isPairs, isKnown⟩
  rcases keyed isPairs with ⟨names, rfl⟩
  rw [List.filterMap_map] at isKnown
  split at isKnown
  · rename_i distinct
    cases isKnown
    rw [List.map_filterMap] at distinct
    refine ⟨⟨each, names, ?_⟩, rfl⟩
    simpa [Function.comp_def] using distinct
  · cases isKnown

theorem lookup_knownData (rows : List BreakpointRow) (name : Text) :
    Datum.field? name (knownData rows) = (found? rows name).map (·.data.2) := by
  rw [Datum.field?, knownData, Rows.lookup_filterMap]
  rfl

theorem AreRead.lookup_spelledFields (areRead : AreRead document depth rows) (name : Text) :
    (spelledFields document rows).lookup name =
      ((found? rows name).filter fun row => row.spelled? document = some name).map (·.entry.2) := by
  rw [spelledFields, Rows.lookup_filterMap, found?,
    Rows.find?_strict areRead.field?_of_spelled? areRead.distinct]

theorem found?_eq_some (found : found? rows name = some row) :
    row ∈ rows ∧ row.field? = some name :=
  ⟨List.mem_of_find?_eq_some found, by simpa using List.find?_some found⟩

theorem saidOf_of_found (found : found? rows name = some row) :
    saidOf rows name = row.data.2 := by
  rw [saidOf, found, Option.map_some, Option.getD_some]

/-- A field that is named by its place is not spelled. -/
theorem AreRead.lookup_of_place (areRead : AreRead document depth rows) (member : row ∈ rows)
    {place : Nat} (isPlace : row.data.1 = .natural place)
    (named : fieldNames[place]? = some name) :
    found? rows name = some row ∧ (spelledFields document rows).lookup name = none := by
  rcases (areRead.each row member).spelled?_cases (areRead.names row member) with
    ⟨text, isText, _⟩ | ⟨other, isOther, none, isField⟩
  · rw [isPlace] at isText
    cases isText
  · rw [isPlace] at isOther
    cases isOther
    have found : found? rows name = some row :=
      Rows.find?_eq_of_mem areRead.distinct member (isField.trans named)
    rw [areRead.lookup_spelledFields, found]
    simp [none]

theorem AreRead.lookup_of_text (areRead : AreRead document depth rows) (member : row ∈ rows)
    (isText : document.text? row.entry.1 = some name) (isField : name ∈ fieldNames) :
    found? rows name = some row ∧
      (spelledFields document rows).lookup name = some row.entry.2 := by
  have spelled : row.spelled? document = some name := by
    simp [spelled?, isText, Option.filter, isField]
  have found : found? rows name = some row :=
    Rows.find?_eq_of_mem areRead.distinct member
      (areRead.field?_of_spelled? row member name spelled)
  rw [areRead.lookup_spelledFields, found]
  simp [spelled]

/-- A row that is found spells the field, or names it by its place. -/
theorem AreRead.found?_cases (areRead : AreRead document depth rows)
    (found : found? rows name = some row) :
    document.text? row.entry.1 = some name ∧
        (spelledFields document rows).lookup name = some row.entry.2 ∨
      ∃ place, row.data.1 = .natural place ∧ fieldNames[place]? = some name ∧
        (spelledFields document rows).lookup name = none := by
  rcases found?_eq_some found with ⟨member, named⟩
  rcases (areRead.each row member).spelled?_cases (areRead.names row member) with
    ⟨_, _, same⟩ | ⟨place, isPlace, _, isField⟩
  · left
    rw [named, spelled?, Option.filter_eq_some_iff] at same
    rcases same with ⟨isText, isField⟩
    exact ⟨isText, (areRead.lookup_of_text member isText (by simpa using isField)).2⟩
  · right
    rw [named] at isField
    exact ⟨place, isPlace, isField.symm, (areRead.lookup_of_place member isPlace isField.symm).2⟩

theorem place_cases {place : Nat} (named : fieldNames[place]? = some name) :
    place = 0 ∧ name = "name".toList ∨ place = 1 ∧ name = "min".toList ∨
      place = 2 ∧ name = "max".toList := by
  match place with
  | 0 => exact Or.inl ⟨rfl, (Option.some.inj named).symm⟩
  | 1 => exact Or.inr (Or.inl ⟨rfl, (Option.some.inj named).symm⟩)
  | 2 => exact Or.inr (Or.inr ⟨rfl, (Option.some.inj named).symm⟩)
  | _ + 3 => cases named

theorem sum_found?_le (rows : List BreakpointRow) :
    ((found? rows "name".toList).map (·.valueCount)).getD 0 +
        (((found? rows "min".toList).map (·.valueCount)).getD 0 +
          ((found? rows "max".toList).map (·.valueCount)).getD 0) ≤
      (rows.map (·.valueCount)).sum := by
  have distinct : fieldNames.Nodup := by decide
  simpa [fieldNames, found?] using Rows.sum_find?_le field? (·.valueCount) rows distinct

/-! ## Breakpoints -/

/-- What is said of the fields makes a breakpoint. -/
structure Describe (rows : List BreakpointRow) (breakpoint : Breakpoint) : Prop where
  name : (saidOf rows "name".toList).asText? = some breakpoint.name
  min : (saidOf rows "min".toList).asWidth? = some breakpoint.min
  max : (saidOf rows "max".toList).asWidth? = some breakpoint.max

/-- Data of a breakpoint, and the rows that they are read from. -/
theorem exists_of_asBreakpoint? {data : List (Datum × Datum)} {breakpoint : Breakpoint}
    (affordable : count ≤ document.aliasLimit)
    (takes : Takes document (datum depth node) (.map data) count)
    (converts : (Datum.map data).asBreakpoint? = some breakpoint) :
    ∃ tag rows lower first, first + ((rows.map (·.keyCount)).sum +
        (rows.map (·.valueCount)).sum) = count ∧
      Takes document (follow node) (.mapping tag (rows.map (·.entry))) first ∧
      AreRead document lower rows ∧ Describe rows breakpoint := by
  rcases takes_datum_map affordable takes with
    ⟨tag, entries, lower, first, second, _, isCount, follows, each⟩
  rcases exists_rows (by omega) each with ⟨rows, rfl, rfl, isSecond, areRead⟩
  simp only [Datum.asBreakpoint?, Option.bind_eq_bind, Option.bind_eq_some_iff, Option.pure_def,
    Option.some.injEq] at converts
  rcases converts with ⟨known, values, said, isSaid, name, isName, min, isMin, max, isMax, rfl⟩
  rcases areRead_of_fieldValues? areRead values with ⟨areRead, rfl⟩
  rw [lookup_knownData] at isSaid isMin isMax
  refine ⟨tag, rows, lower, first, by omega, follows, areRead, ?_, isMin, isMax⟩
  rw [saidOf, isSaid, Option.getD_some, isName]

end BreakpointRow

end Read

end Yaml

end UtilityCss
