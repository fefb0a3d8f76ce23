import UtilityCss.Proofs.Config.BreakpointRows

/-!
# Breakpoints that read the same on two ways

Data name a field of a breakpoint by its name or by its place, and take bounds for what they mean.
A breakpoint that is read at once has to name its fields, and to write its bounds as widths. Both
ways agree on a breakpoint that is spelled out, and on no other.
-/

namespace UtilityCss

namespace Yaml

namespace Document

def HasWidthForm (document : Document) (node : Node) : Prop :=
  ∃ tag style text, document.target? node = some (.scalar tag style text) ∧
    Meaning.IsWidthForm tag style text

/-- An entry of a breakpoint that is spelled out: the name is not given by its place, a bound that is
given by its place is null, and a bound that is given by its name is written as a width. -/
structure SpellsOutEntry (document : Document) (entry : Node × Node) : Prop where
  name : document.meaning? entry.1 ≠ some (.natural 0)
  bound : ∀ place, place = 1 ∨ place = 2 → document.meaning? entry.1 = some (.natural place) →
    document.meaning? entry.2 = some .null
  width : ∀ name, name = "min".toList ∨ name = "max".toList → document.text? entry.1 = some name →
    document.HasWidthForm entry.2

/-- A breakpoint that is spelled out: a mapping with such entries. -/
def SpellsOut (document : Document) (node : Node) : Prop :=
  ∃ tag entries, document.target? node = some (.mapping tag entries) ∧
    ∀ entry ∈ entries, document.SpellsOutEntry entry

end Document

namespace Read

variable {document : Document} {node : Node} {depth count : Nat}

/-! ## Widths -/

theorem exists_scalar_of_asWidth? {said : Datum} {bound : Option UInt32}
    (affordable : count ≤ document.aliasLimit) (takes : Takes document (datum depth node) said count)
    (isWidth : said.asWidth? = some bound) :
    ∃ tag style text, Takes document (follow node) (.scalar tag style text) count ∧
      Meaning.ofScalar tag style text = .ok said := by
  apply takes_datum_scalar affordable takes
  · rintro data rfl
    cases isWidth
  · rintro data rfl
    cases isWidth

theorem KeepsUp.width (form : document.HasWidthForm node) :
    KeepsUp document (datum depth node) Datum.asWidth? (width node) := by
  intro said count bound affordable takes isWidth
  rcases exists_scalar_of_asWidth? affordable takes isWidth with ⟨tag, style, text, follows, means⟩
  rcases form with ⟨_, _, _, target, form⟩
  rw [target?_of_takes follows affordable] at target
  cases target
  refine ⟨count, Nat.le_refl count, takes_bind_free follows ?_⟩
  simp only [(Meaning.width_of_asWidth? means isWidth).1 form]
  exact takes_pure bound

/-- A width that can be read both ways is written as one. -/
theorem hasWidthForm_of_takes {said : Datum} {bound other : Option UInt32} {less : Nat}
    (affordable : count ≤ document.aliasLimit) (takes : Takes document (datum depth node) said count)
    (isWidth : said.asWidth? = some bound) (affordableLess : less ≤ document.aliasLimit)
    (takesWidth : Takes document (width node) other less) : document.HasWidthForm node := by
  rcases exists_scalar_of_asWidth? affordable takes isWidth with ⟨tag, style, text, follows, means⟩
  have target := target?_of_takes follows affordable
  rcases exists_of_takes_follow affordableLess takesWidth with ⟨_, _, room, takesFollow, yields⟩
  rcases takesFollow.unique room follows affordable with ⟨rfl, rfl⟩
  have written := (yields_lift.mp yields).1
  exact ⟨tag, style, text, target, (Meaning.width_of_asWidth? means isWidth).2 other written⟩

/-! ## Spelled breakpoints -/

namespace BreakpointRow

variable {rows : List BreakpointRow} {row : BreakpointRow} {name : Text} {bound : Option UInt32}

theorem IsRead.meaning?_value (isRead : row.IsRead document depth)
    (isWidth : row.data.2.asWidth? = some bound) :
    document.meaning? row.entry.2 = some row.data.2 := by
  rcases exists_scalar_of_asWidth? isRead.affordableValue isRead.value isWidth with
    ⟨tag, style, text, follows, means⟩
  exact Document.meaning?_eq (target?_of_takes follows isRead.affordableValue) means

theorem AreRead.takes_name (areRead : AreRead document depth rows)
    (noPlace : ∀ row ∈ rows, row.data.1 ≠ .natural 0)
    (isName : (saidOf rows "name".toList).asText? = some name) :
    ∃ less ≤ ((found? rows "name".toList).map (·.valueCount)).getD 0,
      Takes document (field none Read.text "name".toList (spelledFields document rows)) name
        less := by
  cases found : found? rows "name".toList with
  | none =>
      rw [saidOf, found] at isName
      cases isName
  | some row =>
      rcases found?_eq_some found with ⟨member, _⟩
      have isRead := areRead.each row member
      rw [saidOf_of_found found] at isName
      rw [Option.map_some, Option.getD_some, field]
      rcases areRead.found?_cases found with ⟨_, spelled⟩ | ⟨place, isPlace, isField, _⟩
      · rw [spelled]
        exact KeepsUp.text depth row.entry.2 _ _ _ isRead.affordableValue isRead.value isName
      · rcases place_cases isField with ⟨rfl, _⟩ | ⟨_, wrong⟩ | ⟨_, wrong⟩
        · exact absurd isPlace (noPlace row member)
        · cases wrong
        · cases wrong

theorem AreRead.takes_bound (areRead : AreRead document depth rows)
    (spelledOut : ∀ row ∈ rows, document.SpellsOutEntry row.entry)
    (isBoundName : name = "min".toList ∨ name = "max".toList)
    (isBound : (saidOf rows name).asWidth? = some bound) :
    ∃ less ≤ ((found? rows name).map (·.valueCount)).getD 0,
      Takes document (field (some none) Read.width name (spelledFields document rows)) bound
        less := by
  rw [field]
  cases found : found? rows name with
  | none =>
      rw [saidOf, found] at isBound
      cases isBound
      rw [areRead.lookup_spelledFields, found]
      exact ⟨0, Nat.le_refl 0, takes_pure none⟩
  | some row =>
      rcases found?_eq_some found with ⟨member, _⟩
      have isRead := areRead.each row member
      rw [saidOf_of_found found] at isBound
      rw [Option.map_some, Option.getD_some]
      rcases areRead.found?_cases found with ⟨isText, spelled⟩ | ⟨place, isPlace, isField, none⟩
      · rw [spelled]
        have form := (spelledOut row member).width name isBoundName isText
        exact KeepsUp.width form _ _ _ isRead.affordableValue isRead.value isBound
      · have byPlace : place = 1 ∨ place = 2 := by
          rcases place_cases isField with ⟨_, rfl⟩ | ⟨rfl, _⟩ | ⟨rfl, _⟩
          · exact absurd isBoundName (by decide)
          · exact Or.inl rfl
          · exact Or.inr rfl
        have isKey := isRead.meaning?_key (areRead.names row member)
        have isNull := (spelledOut row member).bound place byPlace (isPlace ▸ isKey)
        rw [isRead.meaning?_value isBound, Option.some.injEq] at isNull
        rw [isNull] at isBound
        cases isBound
        rw [none]
        exact ⟨0, Nat.zero_le _, takes_pure Option.none⟩

end BreakpointRow

open BreakpointRow

/-- Breakpoints that are spelled out keep up. -/
theorem KeepsUp.breakpoint (spelledOut : document.SpellsOut node) :
    KeepsUp document (datum depth node) Datum.asBreakpoint? (breakpoint node) := by
  intro said count result affordable takes converts
  rcases spelledOut with ⟨tag, entries, target, spelledOut⟩
  cases said with
  | list data =>
      rcases takes_datum_list affordable takes with ⟨_, _, _, first, _, _, isCount, follows, _⟩
      rw [target?_of_takes follows (by omega)] at target
      cases target
  | map data =>
      rcases exists_of_asBreakpoint? affordable takes converts with
        ⟨_, rows, lower, first, isCount, follows, areRead, describes⟩
      rw [target?_of_takes follows (by omega)] at target
      cases target
      have eachSpelled : ∀ row ∈ rows, document.SpellsOutEntry row.entry :=
        fun row member => spelledOut _ (List.mem_map_of_mem member)
      have noPlace : ∀ row ∈ rows, row.data.1 ≠ .natural 0 := by
        intro row member isPlace
        apply (eachSpelled row member).name
        rw [(areRead.each row member).meaning?_key (areRead.names row member), isPlace]
      rcases areRead.takes_name noPlace describes.name with ⟨nameLess, nameFewer, takesName⟩
      rcases areRead.takes_bound eachSpelled (Or.inl rfl) describes.min with
        ⟨minLess, minFewer, takesMin⟩
      rcases areRead.takes_bound eachSpelled (Or.inr rfl) describes.max with
        ⟨maxLess, maxFewer, takesMax⟩
      -- all keys are read again, but of the values only those that are found, and each once
      have together := sum_found?_le rows
      refine ⟨first + ((rows.map (·.keyCount)).sum + (nameLess + (minLess + maxLess))),
        by omega, ?_⟩
      apply takes_bind (takes_entries follows)
      apply takes_bind areRead.fields
      apply takes_bind takesName
      apply takes_bind takesMin
      exact takes_bind_free takesMax (takes_pure result)
  | _ => cases converts

/-! ## What both ways agree on -/

def breakpointOf (known : List (Text × Node)) : Read Breakpoint := do
  let name ← field none text "name".toList known
  let min ← field (some none) width "min".toList known
  let max ← field (some none) width "max".toList known
  return ⟨name, min, max⟩

theorem IsSteady.breakpointOf (known : List (Text × Node)) :
    IsSteady document (breakpointOf known) := by
  apply (IsSteady.field IsSteady.text).bind
  intro name
  apply (IsSteady.field IsSteady.width).bind
  intro min
  apply (IsSteady.field IsSteady.width).bind
  intro max
  exact .pure _

theorem IsSteady.breakpoint (node : Node) : IsSteady document (breakpoint node) := by
  apply (IsSteady.entries node).bind
  intro entries
  exact (IsSteady.fields fieldNames entries).bind IsSteady.breakpointOf

theorem exists_of_takes_breakpointOf {known : List (Text × Node)} {result : Breakpoint}
    (affordable : count ≤ document.aliasLimit)
    (takes : Takes document (breakpointOf known) result count) :
    ∃ nameCount minCount maxCount, nameCount + (minCount + maxCount) = count ∧
      Takes document (field none text "name".toList known) result.name nameCount ∧
      Takes document (field (some none) width "min".toList known) result.min minCount ∧
      Takes document (field (some none) width "max".toList known) result.max maxCount := by
  have steadyWidth : ∀ name, IsSteady document (field (some none) width name known) :=
    fun name => IsSteady.field IsSteady.width
  rcases exists_of_takes_bind (IsSteady.field IsSteady.text)
    (fun _ => (steadyWidth _).bind fun _ => (steadyWidth _).bind fun _ => .pure _) affordable
    takes with ⟨name, nameCount, rest, isCount, takesName, takes⟩
  rcases exists_of_takes_bind (steadyWidth _) (fun _ => (steadyWidth _).bind fun _ => .pure _)
    (by omega) takes with ⟨min, minCount, rest, isRest, takesMin, takes⟩
  rcases exists_of_takes_bind (steadyWidth _) (fun _ => .pure _) (by omega) takes with
    ⟨max, maxCount, last, isLast, takesMax, takes⟩
  rcases takes.eq_of_pure (by omega) with ⟨rfl, rfl⟩
  exact ⟨nameCount, minCount, maxCount, by omega, takesName, takesMin, takesMax⟩

namespace BreakpointRow

variable {rows : List BreakpointRow} {row : BreakpointRow} {name : Text} {bound : Option UInt32}

theorem eq_null_of_asWidth? {said : Datum} (isNone : said.asWidth? = some none) :
    said = .null := by
  cases said with
  | null => rfl
  | natural value => simp [Datum.asWidth?] at isNone
  | integer value => simp [Datum.asWidth?] at isNone
  | _ => cases isNone

/-- A bound that is given by its place and left out where it is spelled is null. -/
theorem AreRead.null_of_place (areRead : AreRead document depth rows) (member : row ∈ rows)
    {place : Nat} (isPlace : row.data.1 = .natural place) (named : fieldNames[place]? = some name)
    (isBound : (saidOf rows name).asWidth? = some bound) (affordable : count ≤ document.aliasLimit)
    (takes : Takes document (field (some none) Read.width name (spelledFields document rows)) bound
      count) : document.meaning? row.entry.2 = some .null := by
  rcases areRead.lookup_of_place member isPlace named with ⟨found, notSpelled⟩
  rw [field, notSpelled] at takes
  rcases takes.eq_of_pure affordable with ⟨rfl, _⟩
  rw [saidOf_of_found found] at isBound
  rw [(areRead.each row member).meaning?_value isBound, eq_null_of_asWidth? isBound]

theorem AreRead.hasWidthForm_of_text (areRead : AreRead document depth rows) (member : row ∈ rows)
    (isText : document.text? row.entry.1 = some name) (isField : name ∈ fieldNames)
    (isBound : (saidOf rows name).asWidth? = some bound) (affordable : count ≤ document.aliasLimit)
    (takes : Takes document (field (some none) Read.width name (spelledFields document rows)) bound
      count) : document.HasWidthForm row.entry.2 := by
  rcases areRead.lookup_of_text member isText isField with ⟨found, spelled⟩
  rw [field, spelled] at takes
  rw [saidOf_of_found found] at isBound
  have isRead := areRead.each row member
  exact hasWidthForm_of_takes isRead.affordableValue isRead.value isBound affordable takes

theorem AreRead.spellsOutEntry {result : Breakpoint} (areRead : AreRead document depth rows)
    (describes : Describe rows result) (affordable : count ≤ document.aliasLimit)
    (takes : Takes document (Read.breakpointOf (spelledFields document rows)) result count) :
    ∀ row ∈ rows, document.SpellsOutEntry row.entry := by
  rcases exists_of_takes_breakpointOf affordable takes with
    ⟨nameCount, minCount, maxCount, isCount, takesName, takesMin, takesMax⟩
  intro row member
  have isKey := (areRead.each row member).meaning?_key (areRead.names row member)
  constructor
  · intro isPlace
    rw [isKey, Option.some.injEq] at isPlace
    rcases areRead.lookup_of_place member isPlace rfl with ⟨_, notSpelled⟩
    rw [field, notSpelled] at takesName
    exact not_takes_fail (by omega) takesName
  · intro place isBound isPlace
    rw [isKey, Option.some.injEq] at isPlace
    rcases isBound with rfl | rfl
    · exact areRead.null_of_place member isPlace rfl describes.min (by omega) takesMin
    · exact areRead.null_of_place member isPlace rfl describes.max (by omega) takesMax
  · intro name isBound isText
    rcases isBound with rfl | rfl
    · exact areRead.hasWidthForm_of_text member isText (by decide) describes.min (by omega) takesMin
    · exact areRead.hasWidthForm_of_text member isText (by decide) describes.max (by omega) takesMax

end BreakpointRow

/-- A breakpoint that both ways take for the same is spelled out. -/
theorem spellsOut_of_takes {said : Datum} {result : Breakpoint} {less : Nat}
    (affordable : count ≤ document.aliasLimit) (takes : Takes document (datum depth node) said count)
    (converts : said.asBreakpoint? = some result) (affordableLess : less ≤ document.aliasLimit)
    (takesStrict : Takes document (breakpoint node) result less) : document.SpellsOut node := by
  have steadyRest : ∀ entries, IsSteady document (fields fieldNames entries >>= breakpointOf) :=
    fun entries => (IsSteady.fields fieldNames entries).bind IsSteady.breakpointOf
  cases said with
  | list data =>
      rcases takes_datum_list affordable takes with ⟨_, items, _, first, _, _, isCount, follows, _⟩
      rcases exists_of_takes_bind (IsSteady.entries node) steadyRest affordableLess takesStrict with
        ⟨entries, other, _, isLess, takesEntries, _⟩
      exact absurd takesEntries (not_takes_entries follows (by omega) (by omega))
  | map data =>
      rcases exists_of_asBreakpoint? affordable takes converts with
        ⟨tag, rows, lower, first, isCount, follows, areRead, describes⟩
      rcases exists_of_takes_next (takes_entries follows) (by omega) (IsSteady.entries node)
        steadyRest affordableLess takesStrict with ⟨rest, isLess, takesRest⟩
      rcases exists_of_takes_next areRead.fields (by omega) (IsSteady.fields fieldNames _)
        IsSteady.breakpointOf (by omega) takesRest with ⟨last, isRest, takesLast⟩
      have each := areRead.spellsOutEntry describes (by omega) takesLast
      refine ⟨tag, _, target?_of_takes follows (by omega), ?_⟩
      intro entry member
      rcases List.mem_map.mp member with ⟨row, inRows, rfl⟩
      exact each row inRows
  | _ => cases converts

/-! ## Lists of breakpoints -/

theorem KeepsUp.breakpoints
    (spelledOut : ∀ tag items, document.target? node = some (.sequence tag items) →
      ∀ item ∈ items, document.SpellsOut item) :
    KeepsUp document (datum depth node) Datum.asBreakpoints? (breakpoints node) := by
  intro said count results affordable takes converts
  cases said with
  | list data =>
      rcases takes_datum_list affordable takes with
        ⟨tag, items, lower, first, second, _, isCount, follows, each⟩
      have spelled := spelledOut tag items (target?_of_takes follows (by omega))
      rcases KeepsUp.mapM (IsSteady.datum lower)
        (fun item member => KeepsUp.breakpoint (spelled item member)) data second results (by omega)
        each converts with ⟨less, fewer, takesStrict⟩
      exact ⟨first + less, by omega, takes_bind (takes_items follows) takesStrict⟩
  | _ => cases converts

theorem spellsOut_of_takes_mapM {items : List Node} {data : List Datum} {results : List Breakpoint}
    {less : Nat} (affordable : count ≤ document.aliasLimit)
    (takes : Takes document (items.mapM (datum depth)) data count)
    (converts : data.mapM Datum.asBreakpoint? = some results)
    (affordableLess : less ≤ document.aliasLimit)
    (takesStrict : Takes document (items.mapM breakpoint) results less) :
    ∀ item ∈ items, document.SpellsOut item := by
  induction items generalizing data results count less with
  | nil => simp
  | cons item items ih =>
      rcases exists_of_takes_mapM_cons (IsSteady.datum depth) affordable takes with
        ⟨said, more, first, second, rfl, isCount, takesItem, takesMore⟩
      rcases exists_of_takes_mapM_cons IsSteady.breakpoint affordableLess takesStrict with
        ⟨result, others, firstLess, secondLess, rfl, isLess, strictItem, strictMore⟩
      simp only [List.mapM_cons, Option.bind_eq_bind, Option.bind_eq_some_iff, Option.pure_def,
        Option.some.injEq, List.cons.injEq] at converts
      rcases converts with ⟨_, isResult, _, areOthers, rfl, rfl⟩
      intro other member
      rcases List.mem_cons.mp member with rfl | inItems
      · exact spellsOut_of_takes (by omega) takesItem isResult (by omega) strictItem
      · exact ih (by omega) takesMore areOthers (by omega) strictMore other inItems

/-- Breakpoints that both ways take for the same are all spelled out. -/
theorem spellsOut_of_takes_breakpoints {said : Datum} {results : List Breakpoint} {less : Nat}
    (affordable : count ≤ document.aliasLimit) (takes : Takes document (datum depth node) said count)
    (converts : said.asBreakpoints? = some results) (affordableLess : less ≤ document.aliasLimit)
    (takesStrict : Takes document (breakpoints node) results less) {tag : Option Text}
    {items : List Node} (target : document.target? node = some (.sequence tag items)) :
    ∀ item ∈ items, document.SpellsOut item := by
  cases said with
  | list data =>
      rcases takes_datum_list affordable takes with
        ⟨tag, items, lower, first, second, _, isCount, follows, each⟩
      rw [target?_of_takes follows (by omega)] at target
      cases target
      rcases exists_of_takes_next (takes_items follows) (by omega) (IsSteady.items node)
        (fun items => .mapM fun item _ => .breakpoint item) affordableLess takesStrict with
        ⟨rest, isLess, takesRest⟩
      exact spellsOut_of_takes_mapM (by omega) each converts (by omega) takesRest
  | _ => cases converts

end Read

end Yaml

end UtilityCss
