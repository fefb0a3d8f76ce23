import UtilityCss.Proofs.Config.Breakpoints
import UtilityCss.Proofs.Project.Settings

/-!
# The configuration of a manifest

A manifest reads its configuration from data, and the same text can be read as a configuration at
once. Both read the entries of the root and their keys, and then the same fields, the manifest in
the order of the text and with everything else besides. So what the manifest gives the configuration
gives as well, and it follows no more aliases, as far as the fields keep up. Only breakpoints may
not: both ways agree exactly when the breakpoints are spelled out.
-/

namespace UtilityCss

open Yaml

namespace Manifest

variable {document : Document} {count : Nat}

/-- A field beside the settings, with its data and the aliases that they take. -/
structure FieldRow where
  name : Text
  node : Node
  said : Datum
  count : Nat

namespace FieldRow

/-- The name of a row that is a field of the configuration. -/
def known? (row : FieldRow) : Option Text :=
  (some row.name).filter fun name => Config.fieldNames.contains name

def found? (rows : List FieldRow) (name : Text) : Option FieldRow :=
  rows.find? fun row => row.known? = some name

theorem known?_eq_some {row : FieldRow} (isField : row.name ∈ Config.fieldNames) :
    row.known? = some row.name := by
  simp [known?, Option.filter, isField]

theorem found?_eq_some {rows : List FieldRow} {row : FieldRow} {name : Text}
    (found : found? rows name = some row) : row ∈ rows ∧ row.name = name := by
  have isKnown : row.known? = some name := by simpa using List.find?_some found
  exact ⟨List.mem_of_find?_eq_some found, Option.some.inj (Option.filter_eq_some_iff.mp isKnown).1⟩

/-- What is said of a row is read from its node. -/
structure IsRead (document : Document) (row : FieldRow) : Prop where
  takes : Read.Takes document (Read.datum (depthLimit - 1) row.node) row.said row.count
  affordable : row.count ≤ document.aliasLimit

end FieldRow

open FieldRow

/-- Reads a field beside the settings as data. -/
def dataOf (entry : Text × Node) : Read (Text × Datum) := do
  return (entry.1, ← Read.datum (depthLimit - 1) entry.2)

theorem steady_dataOf (entry : Text × Node) : Read.IsSteady document (dataOf entry) := by
  apply (Read.IsSteady.datum (depthLimit - 1) entry.2).bind
  intro said
  exact .pure (entry.1, said)

theorem exists_fieldRows {others : List (Text × Node)} {data : List (Text × Datum)}
    (affordable : count ≤ document.aliasLimit)
    (takes : Read.Takes document (others.mapM dataOf) data count) :
    ∃ rows : List FieldRow, rows.map (fun row => (row.name, row.node)) = others ∧
      rows.map (fun row => (row.name, row.said)) = data ∧ (rows.map (·.count)).sum = count ∧
      ∀ row ∈ rows, row.IsRead document := by
  induction others generalizing data count with
  | nil =>
      rcases takes.eq_of_pure affordable with ⟨rfl, rfl⟩
      exact ⟨[], rfl, rfl, rfl, by simp⟩
  | cons entry others ih =>
      rcases Read.exists_of_takes_mapM_cons steady_dataOf affordable takes with
        ⟨pair, more, first, second, rfl, isCount, takesEntry, takesMore⟩
      rcases Read.exists_of_takes_bind (Read.IsSteady.datum (depthLimit - 1) entry.2)
        (fun _ => .pure _) (by omega) takesEntry with
        ⟨said, dataCount, last, isFirst, takesData, takesLast⟩
      rcases takesLast.eq_of_pure (by omega) with ⟨rfl, rfl⟩
      rcases ih (by omega) takesMore with ⟨rows, rfl, rfl, isSecond, areRead⟩
      refine ⟨⟨entry.1, entry.2, said, dataCount⟩ :: rows, rfl, rfl, ?_, ?_⟩
      · simp only [List.map_cons, List.sum_cons]
        omega
      · intro row member
        rcases List.mem_cons.mp member with rfl | inRows
        · have room : dataCount ≤ document.aliasLimit := by omega
          exact ⟨takesData, room⟩
        · exact areRead row inRows

theorem filter_rows {α : Type} (rows : List FieldRow) (value : FieldRow → α) :
    (rows.map fun row => (row.name, value row)).filter
        (fun entry => Config.fieldNames.contains entry.1) =
      rows.filterMap fun row => row.known?.map fun name => (name, value row) := by
  rw [← List.filterMap_eq_filter, List.filterMap_map]
  apply List.filterMap_congr
  intro row _
  simp [known?, Option.filter, Option.guard]

theorem steady_readData (others : List (Text × Node)) :
    Read.IsSteady document (readData others) := by
  apply (Read.IsSteady.mapM fun entry _ => steady_dataOf entry).bind
  intro data
  simp only
  split
  · exact .pure _
  · exact .fail .unexpectedShape

/-- What the manifest reads: the entries of its root, their keys, and the data beside its settings. -/
theorem exists_of_ofNode {root : Node} {manifest : Manifest} {after : Nat}
    (yields : Read.Yields document (ofNode root) 0 manifest after) :
    ∃ entries keyed data first second third, first + (second + third) ≤ document.aliasLimit ∧
      Read.Takes document (Read.entries root) entries first ∧
      Read.Takes document (entries.mapM Read.named) keyed second ∧
      Read.Takes document
        (readData (keyed.filter fun entry => !settingNames.contains entry.1)) data third ∧
      Config.ofFields? data = some manifest.config := by
  rcases Read.yields_bind.mp yields with ⟨entries, _, yieldsEntries, yields⟩
  rcases (Read.IsSteady.entries root).takes yieldsEntries with ⟨room, takesEntries⟩
  rcases Read.yields_bind.mp yields with ⟨keyed, _, yieldsKeyed, yields⟩
  have steadyKeyed : Read.IsSteady document (entries.mapM Read.named) :=
    .mapM fun entry _ => .named entry
  rcases steadyKeyed _ _ _ room yieldsKeyed with ⟨room, second, isSecond, takesKeyed⟩
  simp only at yields
  split at yields
  · -- the settings follow aliases as well, so the limit leaves room for those of the data alone
    rcases Read.yields_bind.mp yields with ⟨input, _, yieldsInput, yields⟩
    rcases Read.IsSteady.field Read.IsSteady.texts _ _ _ room yieldsInput with
      ⟨room, _, isInput, _⟩
    rcases Read.yields_bind.mp yields with ⟨output, _, yieldsOutput, yields⟩
    rcases Read.IsSteady.field Read.IsSteady.text _ _ _ room yieldsOutput with
      ⟨room, _, isOutput, _⟩
    rcases Read.yields_bind.mp yields with ⟨excludes, _, yieldsExcludes, yields⟩
    rcases Read.IsSteady.field Read.IsSteady.texts _ _ _ room yieldsExcludes with
      ⟨room, _, isExcludes, _⟩
    rcases Read.yields_bind.mp yields with ⟨data, _, yieldsData, yields⟩
    rcases steady_readData _ _ _ _ room yieldsData with ⟨room, third, isThird, takesData⟩
    rcases Read.yields_bind.mp yields with ⟨config, _, yieldsConfig, yields⟩
    rcases Read.yields_expect.mp yieldsConfig with ⟨converts, _⟩
    rcases Read.yields_pure.mp yields with ⟨rfl, _⟩
    exact ⟨entries, keyed, data, _, second, third, by omega, takesEntries, takesKeyed, takesData,
      converts⟩
  · rcases Read.yields_bind.mp yields with ⟨_, _, fails, _⟩
    exact absurd fails Read.not_yields_fail

/-- The data of the known fields, and the rows that they are read from. -/
theorem exists_rows_of_readData {others : List (Text × Node)} {data : List (Text × Datum)}
    (affordable : count ≤ document.aliasLimit)
    (takes : Read.Takes document (readData others) data count) :
    ∃ rows : List FieldRow, rows.map (fun row => (row.name, row.node)) = others ∧
      data = (rows.filterMap fun row => row.known?.map fun name => (name, row.said)) ∧
      (rows.filterMap known?).Nodup ∧ (rows.map (·.count)).sum = count ∧
      ∀ row ∈ rows, row.IsRead document := by
  rcases Read.exists_of_takes_bind (Read.IsSteady.mapM fun entry _ => steady_dataOf entry)
    (fun data => by simp only; split; exacts [.pure _, .fail _]) affordable takes with
    ⟨all, first, second, isCount, takesAll, takesKnown⟩
  rcases exists_fieldRows (by omega) takesAll with ⟨rows, rfl, rfl, isFirst, areRead⟩
  simp only at takesKnown
  rw [filter_rows rows fun row => row.said] at takesKnown
  split at takesKnown
  · rename_i distinct
    rcases takesKnown.eq_of_pure (by omega) with ⟨rfl, rfl⟩
    refine ⟨rows, rfl, rfl, ?_, by omega, areRead⟩
    rw [List.map_filterMap] at distinct
    simpa [Function.comp_def] using distinct
  · exact absurd takesKnown (Read.not_takes_fail (by omega))

theorem text?_of_takes {node : Node} {text : Text}
    (takes : Read.Takes document (Read.text node) text count)
    (affordable : count ≤ document.aliasLimit) : document.text? node = some text := by
  rcases Read.exists_of_takes_follow affordable takes with ⟨target, _, room, takesFollow, isText⟩
  have isTarget := Read.target?_of_takes takesFollow room
  cases target with
  | scalar tag style other =>
      rcases Read.yields_pure.mp isText with ⟨rfl, _⟩
      exact Document.text?_eq isTarget
  | _ => exact absurd isText Read.not_yields_fail

theorem mem_keyed_iff {entries : List (Node × Node)} {keyed : List (Text × Node)}
    (affordable : count ≤ document.aliasLimit)
    (takes : Read.Takes document (entries.mapM Read.named) keyed count) {name : Text} {node : Node} :
    (name, node) ∈ keyed ↔ ∃ key, (key, node) ∈ entries ∧ document.text? key = some name := by
  induction entries generalizing keyed count with
  | nil =>
      rcases takes.eq_of_pure affordable with ⟨rfl, _⟩
      simp
  | cons entry entries ih =>
      rcases Read.exists_of_takes_mapM_cons Read.IsSteady.named affordable takes with
        ⟨pair, more, first, second, rfl, isCount, takesEntry, takesMore⟩
      rcases Read.exists_of_takes_bind (Read.IsSteady.text entry.1) (fun _ => .pure _) (by omega)
        takesEntry with ⟨text, textCount, last, isFirst, takesText, takesLast⟩
      rcases takesLast.eq_of_pure (by omega) with ⟨rfl, _⟩
      have isText := text?_of_takes takesText (by omega)
      rw [List.mem_cons, ih (by omega) takesMore]
      constructor
      · rintro (same | ⟨key, member, isName⟩)
        · cases same
          exact ⟨entry.1, List.mem_cons_self, isText⟩
        · exact ⟨key, List.mem_cons_of_mem entry member, isName⟩
      · rintro ⟨key, member, isName⟩
        rcases List.mem_cons.mp member with rfl | inEntries
        · rw [isText, Option.some.injEq] at isName
          exact Or.inl (by rw [isName])
        · exact Or.inr ⟨key, inEntries, isName⟩

def nodesOf (rows : List FieldRow) : List (Text × Node) :=
  rows.filterMap fun row => row.known?.map fun name => (name, row.node)

def saidOf (rows : List FieldRow) : List (Text × Datum) :=
  rows.filterMap fun row => row.known?.map fun name => (name, row.said)

theorem lookup_nodesOf (rows : List FieldRow) (name : Text) :
    (nodesOf rows).lookup name = (found? rows name).map (·.node) :=
  Rows.lookup_filterMap known? (·.node) rows name

theorem lookup_saidOf (rows : List FieldRow) (name : Text) :
    (saidOf rows).lookup name = (found? rows name).map (·.said) :=
  Rows.lookup_filterMap known? (·.said) rows name

/-- Rows of all fields beside the settings, from which the manifest reads its configuration. -/
structure Configures (document : Document) (entries : List (Node × Node)) (rows : List FieldRow)
    (config : Config) : Prop where
  isRead : ∀ row ∈ rows, row.IsRead document
  found : ∀ name ∈ Config.fieldNames, ∀ node,
    (found? rows name).map (·.node) = some node ↔
      ∃ key, (key, node) ∈ entries ∧ document.text? key = some name
  converts : Config.ofFields? (saidOf rows) = some config

/-- What a manifest has read before its configuration is what a configuration reads first. -/
theorem exists_configures {root : Node} {manifest : Manifest} {after : Nat}
    (yields : Read.Yields document (ofNode root) 0 manifest after) :
    ∃ entries rows first second,
      first + (second + (rows.map (·.count)).sum) ≤ document.aliasLimit ∧
      Read.Takes document (Read.entries root) entries first ∧
      Read.Takes document (Read.fields Config.fieldNames entries) (nodesOf rows) second ∧
      Configures document entries rows manifest.config := by
  rcases exists_of_ofNode yields with ⟨entries, keyed, data, first, second, third, room,
    takesEntries, takesKeyed, takesData, converts⟩
  rcases exists_rows_of_readData (by omega) takesData with
    ⟨rows, isOthers, rfl, distinct, rfl, areRead⟩
  have noSetting : ∀ name ∈ Config.fieldNames, name ∉ settingNames := by decide
  refine ⟨entries, rows, first, second, room, takesEntries, ?_, areRead, ?_, converts⟩
  · have known : keyed.filter (fun entry => Config.fieldNames.contains entry.1) = nodesOf rows := by
      rw [nodesOf, ← filter_rows rows fun row => row.node, isOthers, List.filter_filter]
      apply List.filter_congr
      intro entry _
      cases isField : Config.fieldNames.contains entry.1 with
      | false => rfl
      | true => simp [noSetting entry.1 (by simpa using isField)]
    have distinctNodes : ((nodesOf rows).map Prod.fst).Nodup := by
      rw [nodesOf, List.map_filterMap]
      simpa [Function.comp_def] using distinct
    apply Read.takes_bind_free takesKeyed
    simp only
    rw [known, if_pos distinctNodes]
    exact Read.takes_pure _
  · -- no field has the name of a setting, so its entry is among the others
    intro name isField node
    rw [← mem_keyed_iff (by omega) takesKeyed, Option.map_eq_some_iff]
    constructor
    · rintro ⟨row, isFound, rfl⟩
      rcases found?_eq_some isFound with ⟨member, rfl⟩
      have inOthers : (row.name, row.node) ∈ keyed.filter
          fun entry => !settingNames.contains entry.1 := by
        rw [← isOthers]
        exact List.mem_map_of_mem member
      exact List.mem_of_mem_filter inOthers
    · intro inKeyed
      have inOthers : (name, node) ∈ keyed.filter
          fun entry => !settingNames.contains entry.1 :=
        List.mem_filter.mpr ⟨inKeyed, by simp [noSetting name isField]⟩
      rw [← isOthers] at inOthers
      rcases List.mem_map.mp inOthers with ⟨row, member, isRow⟩
      cases isRow
      exact ⟨row, Rows.find?_eq_of_mem distinct member (known?_eq_some isField), rfl⟩

/-! ## Fields of the configuration -/

variable {α : Type} {entries : List (Node × Node)} {rows : List FieldRow} {config : Config}

theorem Configures.takes_field (configures : Configures document entries rows config) {empty : α}
    {convert : Datum → Option α} {strict : Node → Read α} {name : Text} {value : α}
    (keeps : ∀ row, found? rows name = some row →
      Read.KeepsUp document (Read.datum (depthLimit - 1) row.node) convert (strict row.node))
    (converts : Config.readField? empty convert name (saidOf rows) = some value) :
    ∃ less ≤ ((found? rows name).map (·.count)).getD 0,
      Read.Takes document (Read.field (some empty) strict name (nodesOf rows)) value less := by
  rw [Config.readField?, lookup_saidOf] at converts
  rw [Read.field, lookup_nodesOf]
  cases isFound : found? rows name with
  | none =>
      rw [isFound] at converts
      cases converts
      exact ⟨0, Nat.le_refl 0, Read.takes_pure empty⟩
  | some row =>
      rw [isFound] at converts
      have isRead := configures.isRead row (found?_eq_some isFound).1
      exact keeps row isFound row.said row.count value isRead.affordable isRead.takes converts

theorem sum_found?_le (rows : List FieldRow) :
    let weight := fun name : String => ((found? rows name.toList).map (·.count)).getD 0
    weight "property" + (weight "values" + (weight "classes" + (weight "aliases" +
      (weight "breakpoints" + weight "reserveClass")))) ≤ (rows.map (·.count)).sum := by
  intro weight
  have distinct : Config.fieldNames.Nodup := by decide
  have together := Rows.sum_find?_le known? (·.count) rows distinct
  simp only [Config.fieldNames, List.map_cons, List.map_nil, List.sum_cons, List.sum_nil,
    Nat.add_zero] at together
  exact together

theorem keepsUp_property (node : Node) :
    Read.KeepsUp document (Read.datum (depthLimit - 1) node)
      (Datum.asMapping? Datum.asProperty?) (Read.mapping Read.entry node) :=
  Read.KeepsUp.mapping fun _ => Read.KeepsUp.expect Datum.asProperty?

theorem keepsUp_values (node : Node) :
    Read.KeepsUp document (Read.datum (depthLimit - 1) node)
      (Datum.asMapping? Datum.asLiteral?) (Read.mapping (Read.literal 2) node) :=
  Read.KeepsUp.mapping fun _ => Read.KeepsUp.expect Datum.asLiteral?

theorem keepsUp_classes (node : Node) :
    Read.KeepsUp document (Read.datum (depthLimit - 1) node)
      (Datum.asMapping? (Datum.asMapping? Datum.asLiteral?))
      (Read.mapping (Read.mapping (Read.literal 3)) node) :=
  Read.KeepsUp.mapping fun _ => Read.KeepsUp.mapping fun _ => Read.KeepsUp.expect Datum.asLiteral?

theorem keepsUp_aliases (node : Node) :
    Read.KeepsUp document (Read.datum (depthLimit - 1) node)
      (Datum.asMapping? Datum.asText?) (Read.mapping Read.text node) :=
  Read.KeepsUp.mapping fun value => Read.KeepsUp.text _ value

/-- The fields that keep up in every text, and what is said of the breakpoints. -/
theorem Configures.takes_fields (configures : Configures document entries rows config) :
    ∃ property values classes aliases reserved,
      property + (values + (classes + (aliases +
        (((found? rows "breakpoints".toList).map (·.count)).getD 0 + reserved)))) ≤
          (rows.map (·.count)).sum ∧
      Read.Takes document (Read.field (some ∅) (Read.mapping Read.entry) "property".toList
        (nodesOf rows)) config.property property ∧
      Read.Takes document (Read.field (some ∅) (Read.mapping (Read.literal 2)) "values".toList
        (nodesOf rows)) config.values values ∧
      Read.Takes document (Read.field (some ∅) (Read.mapping (Read.mapping (Read.literal 3)))
        "classes".toList (nodesOf rows)) config.classes classes ∧
      Read.Takes document (Read.field (some ∅) (Read.mapping Read.text) "aliases".toList
        (nodesOf rows)) config.aliases aliases ∧
      Read.Takes document (Read.field (some []) Read.texts "reserveClass".toList (nodesOf rows))
        config.reserved reserved ∧
      Config.readField? [] Datum.asBreakpoints? "breakpoints".toList (saidOf rows) =
        some config.breakpoints := by
  have converts := configures.converts
  simp only [Config.ofFields?, Option.bind_eq_bind, Option.bind_eq_some_iff, Option.pure_def,
    Option.some.injEq] at converts
  rcases converts with ⟨property, isProperty, values, areValues, classes, areClasses, aliases,
    areAliases, breakpoints, areBreakpoints, reserved, isReserved, rfl⟩
  rcases configures.takes_field (fun row _ => keepsUp_property row.node) isProperty with
    ⟨first, firstFewer, takesProperty⟩
  rcases configures.takes_field (fun row _ => keepsUp_values row.node) areValues with
    ⟨second, secondFewer, takesValues⟩
  rcases configures.takes_field (fun row _ => keepsUp_classes row.node) areClasses with
    ⟨third, thirdFewer, takesClasses⟩
  rcases configures.takes_field (fun row _ => keepsUp_aliases row.node) areAliases with
    ⟨fourth, fourthFewer, takesAliases⟩
  rcases configures.takes_field (fun row _ => Read.KeepsUp.texts) isReserved with
    ⟨fifth, fifthFewer, takesReserved⟩
  have together := sum_found?_le rows
  simp only at together
  exact ⟨first, second, third, fourth, fifth, by omega, takesProperty, takesValues, takesClasses,
    takesAliases, takesReserved, areBreakpoints⟩

theorem steady_breakpoints : Read.IsSteady document
    (Read.field (some []) Read.breakpoints "breakpoints".toList (nodesOf rows)) := by
  apply Read.IsSteady.field
  intro node
  apply (Read.IsSteady.items node).bind
  intro items
  exact .mapM fun item _ => .breakpoint item

/-- The configuration is read whole when its breakpoints keep up. -/
theorem Configures.yields_config {root : Node} {first second : Nat}
    (configures : Configures document entries rows config)
    (room : first + (second + (rows.map (·.count)).sum) ≤ document.aliasLimit)
    (takesEntries : Read.Takes document (Read.entries root) entries first)
    (takesFields : Read.Takes document (Read.fields Config.fieldNames entries) (nodesOf rows)
      second)
    (keeps : ∀ row, found? rows "breakpoints".toList = some row →
      Read.KeepsUp document (Read.datum (depthLimit - 1) row.node) Datum.asBreakpoints?
        (Read.breakpoints row.node)) :
    ∃ after, Read.Yields document (Read.config root) 0 config after := by
  rcases configures.takes_fields with ⟨property, values, classes, aliases, reserved, together,
    takesProperty, takesValues, takesClasses, takesAliases, takesReserved, areBreakpoints⟩
  rcases configures.takes_field keeps areBreakpoints with ⟨less, fewer, takesBreakpoints⟩
  -- fields are taken in their own order, not in that of the rows, but no row is taken twice
  have takes : Read.Takes document (Read.config root) config
      (first + (second + (property + (values + (classes + (aliases + (less + reserved))))))) := by
    apply Read.takes_bind takesEntries
    apply Read.takes_bind takesFields
    apply Read.takes_bind takesProperty
    apply Read.takes_bind takesValues
    apply Read.takes_bind takesClasses
    apply Read.takes_bind takesAliases
    apply Read.takes_bind takesBreakpoints
    exact Read.takes_bind_free takesReserved (Read.takes_pure config)
  exact ⟨_, takes.yields (by omega)⟩

/-- A configuration that is read at once differs at most by its breakpoints. -/
theorem Configures.eq_of_yields_config {root : Node} {first second : Nat} {other : Config}
    {after : Nat} (configures : Configures document entries rows config)
    (room : first + (second + (rows.map (·.count)).sum) ≤ document.aliasLimit)
    (takesEntries : Read.Takes document (Read.entries root) entries first)
    (takesFields : Read.Takes document (Read.fields Config.fieldNames entries) (nodesOf rows)
      second)
    (yields : Read.Yields document (Read.config root) 0 other after) :
    other = { config with breakpoints := other.breakpoints } ∧
      ∃ less ≤ document.aliasLimit, Read.Takes document
        (Read.field (some []) Read.breakpoints "breakpoints".toList (nodesOf rows))
        other.breakpoints less := by
  rcases configures.takes_fields with ⟨property, values, classes, aliases, reserved, together,
    takesProperty, takesValues, takesClasses, takesAliases, takesReserved, _⟩
  have yields := Read.yields_rest takesEntries (by omega) yields
  have yields := Read.yields_rest takesFields (by omega) yields
  have yields := Read.yields_rest takesProperty (by omega) yields
  have yields := Read.yields_rest takesValues (by omega) yields
  have yields := Read.yields_rest takesClasses (by omega) yields
  have yields := Read.yields_rest takesAliases (by omega) yields
  rcases Read.yields_bind.mp yields with ⟨breakpoints, _, yieldsBreakpoints, yields⟩
  rcases steady_breakpoints _ _ _ (by omega) yieldsBreakpoints with
    ⟨roomBehind, less, isLess, takesBreakpoints⟩
  rcases Read.yields_bind.mp yields with ⟨others, _, yieldsReserved, yields⟩
  rcases Read.IsSteady.field Read.IsSteady.texts _ _ _ roomBehind yieldsReserved with
    ⟨_, more, isMore, takesOthers⟩
  rcases takesOthers.unique (by omega) takesReserved (by omega) with ⟨rfl, _⟩
  rcases Read.yields_pure.mp yields with ⟨rfl, _⟩
  exact ⟨rfl, less, by omega, takesBreakpoints⟩

end Manifest

/-! ## Texts -/

namespace Yaml.Document

/-- A document whose breakpoints are all spelled out. -/
def SpellsOutBreakpoints (document : Document) : Prop :=
  ∀ tag entries, document.target? (document.root.getD .missing) = some (.mapping tag entries) →
    ∀ entry ∈ entries, document.text? entry.1 = some "breakpoints".toList →
      ∀ listTag items, document.target? entry.2 = some (.sequence listTag items) →
        ∀ item ∈ items, document.SpellsOut item

end Yaml.Document

namespace Manifest

open FieldRow

variable {document : Document} {count : Nat}

/-- A text whose breakpoints are all spelled out. A blank text has none. -/
def SpellsOutBreakpoints (text : Text) : Prop :=
  text.all isBlank = true ∨
    ∃ document, Document.read text = .ok document ∧ document.SpellsOutBreakpoints

theorem readWith_eq_ok_iff {α : Type} {reading : Node → Read α} {text : Text} {value : α} :
    Document.readWith reading text = .ok value ↔
      ∃ document after, Document.read text = .ok document ∧
        Read.Yields document (reading (document.root.getD .missing)) 0 value after := by
  cases isRead : Document.read text with
  | error fault => simp [Document.readWith, isRead, bind, Except.bind]
  | ok document =>
      simp only [Document.readWith, isRead, bind, Except.bind, Read.Yields, Except.ok.injEq,
        exists_and_left, exists_eq_left']
      cases isRun : ((reading (document.root.getD .missing)).run document).run 0 with
      | error fault => simp
      | ok result =>
          rcases result with ⟨found, after⟩
          simp [pure, Except.pure]

theorem parse_eq_ok_iff {text : Text} {manifest : Manifest} :
    parse text = .ok manifest ↔ readYaml text = .ok manifest := by
  rw [parse]
  split <;> simp_all

theorem parseYaml_eq_ok_iff {text : Text} {config : Config} :
    Config.parseYaml text = .ok config ↔ Config.readYaml text = .ok config := by
  rw [Config.parseYaml]
  split <;> simp_all

/-- The entries of a node are those of the mapping that it stands for, or there are none. -/
theorem target?_of_takes_entries {node : Node} {entries : List (Node × Node)}
    (takes : Read.Takes document (Read.entries node) entries count)
    (affordable : count ≤ document.aliasLimit) :
    (∃ tag, document.target? node = some (.mapping tag entries)) ∨
      entries = [] ∧ ∀ tag others, document.target? node ≠ some (.mapping tag others) := by
  rcases Read.exists_of_takes_follow affordable takes with ⟨target, _, room, takesFollow, yields⟩
  have isTarget := Read.target?_of_takes takesFollow room
  cases target with
  | mapping tag others =>
      rcases Read.yields_pure.mp yields with ⟨rfl, _⟩
      exact Or.inl ⟨tag, isTarget⟩
  | scalar tag style text =>
      right
      simp only at yields
      split at yields
      · rcases Read.yields_pure.mp yields with ⟨rfl, _⟩
        exact ⟨rfl, by simp [isTarget]⟩
      · exact absurd yields Read.not_yields_fail
  | sequence tag items => exact absurd yields Read.not_yields_fail
  | aliasTo number => exact absurd yields Read.not_yields_fail

/-- What the manifest reads of one document, the configuration reads as well, but for breakpoints
that are not spelled out. -/
theorem yields_config_iff {root : Node} {manifest : Manifest} {after : Nat}
    (isRoot : document.root.getD .missing = root)
    (yields : Read.Yields document (ofNode root) 0 manifest after) :
    ((∃ stop, Read.Yields document (Read.config root) 0 manifest.config stop) ↔
      document.SpellsOutBreakpoints) ∧
    ∀ config stop, Read.Yields document (Read.config root) 0 config stop →
      config = { manifest.config with breakpoints := config.breakpoints } := by
  rcases exists_configures yields with
    ⟨entries, rows, first, second, room, takesEntries, takesFields, configures⟩
  have rootCases := target?_of_takes_entries takesEntries (by omega)
  have isField : "breakpoints".toList ∈ Config.fieldNames := by decide
  refine ⟨⟨?_, ?_⟩, ?_⟩
  · rintro ⟨_, yieldsConfig⟩ tag others target entry member isKey listTag items isList
    rw [isRoot] at target
    rcases rootCases with ⟨_, isMapping⟩ | ⟨_, noMapping⟩
    · rw [isMapping] at target
      cases target
      rcases Option.map_eq_some_iff.mp
        ((configures.found _ isField entry.2).mpr ⟨entry.1, member, isKey⟩) with ⟨row, isFound, isNode⟩
      rcases configures.takes_fields with ⟨_, _, _, _, _, _, _, _, _, _, _, areBreakpoints⟩
      rcases (configures.eq_of_yields_config room takesEntries takesFields yieldsConfig).2 with
        ⟨less, affordable, takesBreakpoints⟩
      have isRead := configures.isRead row (found?_eq_some isFound).1
      rw [Config.readField?, lookup_saidOf, isFound] at areBreakpoints
      rw [Read.field, lookup_nodesOf, isFound] at takesBreakpoints
      rw [← isNode] at isList
      exact Read.spellsOut_of_takes_breakpoints isRead.affordable isRead.takes areBreakpoints
        affordable takesBreakpoints isList
    · exact absurd target (noMapping tag others)
  · intro spelledOut
    apply configures.yields_config room takesEntries takesFields
    intro row isFound
    apply Read.KeepsUp.breakpoints
    intro listTag items isList
    rcases (configures.found _ isField row.node).mp (by rw [isFound]; rfl) with
      ⟨key, member, isKey⟩
    rcases rootCases with ⟨tag, isMapping⟩ | ⟨rfl, _⟩
    · exact spelledOut tag entries (isRoot ▸ isMapping) (key, row.node) member isKey listTag items
        isList
    · cases member
  · intro config _ yieldsConfig
    exact (configures.eq_of_yields_config room takesEntries takesFields yieldsConfig).1

/-- A text that a manifest is read from is a configuration as well: it is read as the configuration
of the manifest, in content and in order, exactly when its breakpoints are spelled out, and whatever
configuration it is read as differs from that of the manifest by its breakpoints at most. -/
theorem parseYaml_iff_spellsOutBreakpoints {text : Text} {manifest : Manifest}
    (parsed : parse text = .ok manifest) :
    (Config.parseYaml text = .ok manifest.config ↔ SpellsOutBreakpoints text) ∧
    ∀ config, Config.parseYaml text = .ok config →
      config = { manifest.config with breakpoints := config.breakpoints } := by
  rw [parse_eq_ok_iff, readYaml] at parsed
  simp only [parseYaml_eq_ok_iff, Config.readYaml, SpellsOutBreakpoints]
  cases blank : text.all isBlank with
  | true =>
      simp only [blank, if_true, Except.ok.injEq] at parsed ⊢
      subst parsed
      refine ⟨by simp [standard, Config.empty], ?_⟩
      rintro config rfl
      rfl
  | false =>
      simp only [blank, Bool.false_eq_true, if_false, false_or, readWith_eq_ok_iff] at parsed ⊢
      rcases parsed with ⟨document, after, isDocument, yields⟩
      rcases yields_config_iff rfl yields with ⟨agree, differ⟩
      refine ⟨⟨?_, ?_⟩, ?_⟩
      · rintro ⟨other, stop, isOther, yieldsConfig⟩
        rw [isDocument, Except.ok.injEq] at isOther
        subst isOther
        exact ⟨document, isDocument, agree.mp ⟨stop, yieldsConfig⟩⟩
      · rintro ⟨other, isOther, spelledOut⟩
        rw [isDocument, Except.ok.injEq] at isOther
        subst isOther
        rcases agree.mpr spelledOut with ⟨stop, yieldsConfig⟩
        exact ⟨document, stop, isDocument, yieldsConfig⟩
      · rintro config ⟨other, stop, isOther, yieldsConfig⟩
        rw [isDocument, Except.ok.injEq] at isOther
        subst isOther
        exact differ config stop yieldsConfig

/-- A manifest whose breakpoint stands behind an alias in a field of another name, and is spelled
out; one whose breakpoint gives a bound by its place is read as another configuration. -/
theorem parseYaml_iff_spellsOutBreakpoints_sample :
    let text := "wide: &w \x7bname: lg, min: 1024\x7d\nvalues: \x7bfull: 100\x7d\nbreakpoints: [*w]\n".toList
    let placed := "breakpoints: [\x7bname: sm, 1: 5, max: 639\x7d]\n".toList
    ∃ manifest other config, parse text = .ok manifest ∧
      Config.parseYaml text = .ok manifest.config ∧ SpellsOutBreakpoints text ∧
      parse placed = .ok other ∧ Config.parseYaml placed = .ok config ∧
      ¬SpellsOutBreakpoints placed ∧
      config = { other.config with breakpoints := config.breakpoints } ∧
      other.config.breakpoints = [⟨"sm".toList, some 5, some 639⟩] ∧
      config.breakpoints = [⟨"sm".toList, none, some 639⟩] := by
  intro text placed
  have agrees : (parse text).toOption.any (fun manifest =>
      (Config.parseYaml text).toOption = some manifest.config) = true := by decide +kernel
  have differs : (parse placed).toOption.any (fun other =>
      (Config.parseYaml placed).toOption.any fun config =>
        other.config.breakpoints = [⟨"sm".toList, some 5, some 639⟩] &&
          config.breakpoints = [⟨"sm".toList, none, some 639⟩]) = true := by decide +kernel
  rcases exists_eq_ok_of_any agrees with ⟨manifest, parsed, same⟩
  rcases exists_eq_ok_of_any differs with ⟨other, parsedOther, differs⟩
  rcases exists_eq_ok_of_any differs with ⟨config, parsedConfig, bounds⟩
  have isSame : Config.parseYaml text = .ok manifest.config := by
    have isSome := of_decide_eq_true same
    cases found : Config.parseYaml text with
    | error error => simp [found, Except.toOption] at isSome
    | ok found => simp_all [Except.toOption]
  simp only [Bool.and_eq_true, decide_eq_true_eq] at bounds
  have spelled := (parseYaml_iff_spellsOutBreakpoints parsed).1
  have differing := parseYaml_iff_spellsOutBreakpoints parsedOther
  refine ⟨manifest, other, config, parsed, isSame, spelled.mp isSame, parsedOther, parsedConfig, ?_,
    differing.2 config parsedConfig, bounds.1, bounds.2⟩
  intro spelledOut
  have same := differing.1.mpr spelledOut
  rw [parsedConfig, Except.ok.injEq] at same
  rw [same, bounds.1] at bounds
  exact absurd bounds.2 (by decide)

/-- A breakpoint that is a list of its fields is one for the manifest, and none for the
configuration. -/
theorem listed_breakpoint_only_in_manifest :
    let text := "breakpoints: [[a, 1, 2]]".toList
    ∃ manifest, parse text = .ok manifest ∧
      manifest.config.breakpoints = [⟨"a".toList, some 1, some 2⟩] ∧
      Config.parseYaml text = .error (.malformed .yamlConfig) := by
  intro text
  have listed : (parse text).toOption.any (fun manifest =>
      manifest.config.breakpoints = [⟨"a".toList, some 1, some 2⟩]) = true := by decide +kernel
  rcases exists_eq_ok_of_any listed with ⟨manifest, parsed, isListed⟩
  refine ⟨manifest, parsed, of_decide_eq_true isListed, ?_⟩
  decide +kernel

end Manifest

end UtilityCss
