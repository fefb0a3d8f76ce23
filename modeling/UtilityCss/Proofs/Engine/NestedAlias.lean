import UtilityCss.Proofs.Engine.Fusion
import UtilityCss.Proofs.Text.Delimiting

/-!
# Names in alias bodies

An alias body is read with the grammar alone, so a token that an engine would resolve through an
alias or a semantic class does not get those declarations there. Validation warns of such tokens. It
looks the whole token up, while an engine looks up what stands behind the scope: a token without a
scope is reported exactly when an engine resolves it by a name, but behind a scope a name is
overlooked, unless the token as a whole happens to be a name as well.

The warning quotes the alias and the token. A token has no blank character, so no two of these
warnings read the same.
-/

namespace UtilityCss

namespace Finding

/-- Only nested aliases are reported under their code. -/
theorem exists_nestedAlias_of_code {finding : Finding} {name used : Text}
    (sameCode : finding.diagnostic.code = (nestedAlias name used).diagnostic.code) :
    ∃ other token, finding = nestedAlias other token := by
  have sameName : finding.codeName = "nested-alias".toList := List.append_cancel_left sameCode
  cases finding with
  | nestedAlias other token => exact ⟨other, token, rfl⟩
  | _ =>
      delta codeName at sameName
      simp at sameName

/-- The space in front of the quoted token is the last one in what is quoted. -/
theorem message_nestedAlias (name used : Text) :
    (nestedAlias name used).message =
      "Alias '".toList ++ name ++ "' references".toList ++ ' ' :: Text.quoted used ++
        ", which is not expanded inside aliases".toList := by
  have message : (nestedAlias name used).message =
      "Alias ".toList ++ Text.quoted name ++ " references ".toList ++ Text.quoted used ++
        ", which is not expanded inside aliases".toList := rfl
  rw [message]
  simp [Text.quoted]

/-- The warning about a token tells the alias and the token. -/
theorem nestedAlias_diagnostic_inj {name other used token : Text} (noSpace : ' ' ∉ used)
    (noSpaceOther : ' ' ∉ token)
    (equal : (nestedAlias name used).diagnostic = (nestedAlias other token).diagnostic) :
    name = other ∧ used = token := by
  have noSpaceQuoted : ∀ word : Text, ' ' ∉ word → ' ' ∉ Text.quoted word := by
    intro word noSpace
    simp [Text.quoted, noSpace]
  have messages : (nestedAlias name used).message = (nestedAlias other token).message :=
    congrArg Diagnostic.message equal
  rw [message_nestedAlias, message_nestedAlias] at messages
  rcases Text.append_cons_inj_of_not_mem_behind (noSpaceQuoted used noSpace)
    (noSpaceQuoted token noSpaceOther) (List.append_cancel_right messages) with ⟨fronts, backs⟩
  constructor
  · exact List.append_cancel_left (List.append_cancel_right fronts)
  · simpa [Text.quoted] using backs

end Finding

namespace Origin

theorem ofToken_ne_aliased (config : Config) (token : ClassToken) (expansion : Expansion) :
    ofToken config token ≠ .aliased expansion := by
  rw [ofToken]
  split <;> simp

theorem ofToken_ne_semantic (config : Config) (token : ClassToken)
    (declarations : List Declaration) : ofToken config token ≠ .semantic declarations := by
  rw [ofToken]
  split <;> simp

end Origin

namespace Config

variable {config : Config} {name used : Text}

/-! ## What validation finds -/

theorem nestedAlias_not_mem_templateFindings (entry : Text × PropertyEntry) :
    .nestedAlias name used ∉ templateFindings entry := by
  rcases entry with ⟨token, simple | ⟨properties, template⟩⟩
  · simp [templateFindings]
  · simp only [templateFindings]
    split <;> split <;> simp

theorem nestedAlias_not_mem_boundFindings (breakpoint : Breakpoint) :
    .nestedAlias name used ∉ boundFindings breakpoint := by
  rw [boundFindings]
  split
  · simp
  · split <;> simp
  · simp

theorem nestedAlias_not_mem_breakpointFindings (breakpoints : List Breakpoint)
    (seen : List Text) : .nestedAlias name used ∉ breakpointFindings seen breakpoints := by
  induction breakpoints generalizing seen with
  | nil => exact List.not_mem_nil
  | cons breakpoint rest ih =>
      rw [breakpointFindings, List.mem_append, List.mem_append]
      rintro ((repeated | ofBounds) | later)
      · split at repeated <;> simp at repeated
      · exact nestedAlias_not_mem_boundFindings breakpoint ofBounds
      · exact ih _ later

theorem nestedAlias_mem_aliasFindings_iff {entry : Text × Text} :
    .nestedAlias name used ∈ config.aliasFindings entry ↔
      entry.1 = name ∧ used ∈ Text.words entry.2 ∧ config.namesAliasOrClass used = true := by
  rcases entry with ⟨other, body⟩
  rw [aliasFindings, List.mem_append, List.mem_append]
  constructor
  · rintro ((blank | shadowed) | nested)
    · split at blank <;> simp at blank
    · split at shadowed <;> simp at shadowed
    · rcases List.mem_map.mp nested with ⟨token, isName, same⟩
      cases same
      exact ⟨rfl, List.mem_filter.mp isName⟩
  · rintro ⟨rfl, inBody, isName⟩
    exact Or.inr (List.mem_map_of_mem (List.mem_filter.mpr ⟨inBody, isName⟩))

/-- Validation finds a nested alias where a token of a body is, as a whole, a name. -/
theorem nestedAlias_mem_findings_iff :
    .nestedAlias name used ∈ config.findings ↔
      ∃ body, config.aliases.get? name = some body ∧ used ∈ Text.words body ∧
        config.namesAliasOrClass used = true := by
  rw [findings, List.mem_append, List.mem_append, List.mem_append]
  constructor
  · rintro (((ofType | ofTemplate) | ofBreakpoint) | ofAlias)
    · rcases List.mem_flatMap.mp ofType with ⟨type, _, found⟩
      cases severity_of_mem_typeFindings found
    · rcases List.mem_flatMap.mp ofTemplate with ⟨entry, _, found⟩
      exact absurd found (nestedAlias_not_mem_templateFindings entry)
    · exact absurd ofBreakpoint (nestedAlias_not_mem_breakpointFindings _ _)
    · rcases List.mem_flatMap.mp ofAlias with ⟨⟨other, body⟩, isEntry, found⟩
      rcases nestedAlias_mem_aliasFindings_iff.mp found with ⟨rfl, inBody, isName⟩
      exact ⟨body, OrderedMap.get?_eq_some_iff.mpr isEntry, inBody, isName⟩
  · rintro ⟨body, isAlias, inBody, isName⟩
    have isEntry : (name, body) ∈ config.aliases.entries := OrderedMap.get?_eq_some_iff.mp isAlias
    exact Or.inr (List.mem_flatMap_of_mem isEntry
      (nestedAlias_mem_aliasFindings_iff.mpr ⟨rfl, inBody, isName⟩))

/-- What validation reports of a token in an alias body is about that token and that alias. -/
theorem nestedAlias_mem_validate_iff {body : Text} (isAlias : config.aliases.get? name = some body)
    (inBody : used ∈ Text.words body) :
    (Finding.nestedAlias name used).diagnostic ∈ config.validate ↔
      config.namesAliasOrClass used = true := by
  have noSpace : ∀ {text word : Text}, word ∈ Text.words text → ' ' ∉ word := by
    intro text word isWord isSpace
    have noBlank := (Text.noBlank_of_mem_words isWord).2 ' ' isSpace
    exact absurd noBlank (by decide)
  constructor
  · intro reported
    rcases List.mem_map.mp reported with ⟨finding, found, same⟩
    rcases Finding.exists_nestedAlias_of_code (congrArg Diagnostic.code same) with
      ⟨other, token, rfl⟩
    rcases nestedAlias_mem_findings_iff.mp found with ⟨_, _, isWord, isName⟩
    rcases Finding.nestedAlias_diagnostic_inj (noSpace isWord) (noSpace inBody) same with
      ⟨_, rfl⟩
    exact isName
  · intro isName
    exact List.mem_map_of_mem (nestedAlias_mem_findings_iff.mpr ⟨body, isAlias, inBody, isName⟩)

/-! ## What an engine resolves by a name -/

theorem isSome_customClass? (config : Config) (name : Text) :
    (config.customClass? name).isSome = config.namesClass name := by
  cases isClass : config.namesClass name with
  | true => rw [customClass?_of_namesClass isClass, Option.isSome_some]
  | false =>
      have noGroup : config.classDeclarations name = [] := by
        apply List.filterMap_eq_nil_iff.mpr
        rintro ⟨group, names⟩ isGroup
        have unnamed := List.any_eq_false.mp isClass names (List.mem_map_of_mem isGroup)
        simpa [OrderedMap.contains] using unnamed
      rw [customClass?, noGroup, Option.isSome_none]

/-- The class name gets its declarations from an alias or from a semantic class. -/
def IsByName (config : Config) (className : Text) : Prop :=
  (∃ expansion, config.origin className = .aliased expansion) ∨
    ∃ declarations, config.origin className = .semantic declarations

/-- An engine looks up what stands behind the scope of a class name. -/
theorem isByName_iff {className : Text} :
    config.IsByName className ↔
      config.namesAliasOrClass (Resolution.splitScope className).2 = true := by
  have isClass := config.isSome_customClass? (Resolution.splitScope className).2
  rw [IsByName, namesAliasOrClass, ← isClass, OrderedMap.contains, origin, alias?]
  cases config.aliases.get? (Resolution.splitScope className).2 with
  | some body => simp
  | none =>
      cases config.customClass? (Resolution.splitScope className).2 with
      | some declarations => simp
      | none =>
          cases config.grammar.read? className with
          | none => simp
          | some token => simp [Origin.ofToken_ne_aliased, Origin.ofToken_ne_semantic]

/-- What validation makes of a token in an alias body that an engine would resolve by a name: it
reports the token exactly when the token has no scope or is, scope included, a name. It reports no
other token without a scope. The alias never gets the declarations behind the name, for what it
stands for depends on its body, the type tokens and the values only. -/
theorem nestedAlias_reported_iff {config : Config} {name body token : Text}
    (isAlias : config.aliases.get? name = some body) (inBody : token ∈ Text.words body) :
    let reported := (Finding.nestedAlias name token).diagnostic ∈ config.validate
    (config.IsByName token → (reported ↔
        Grammar.splitScope? token = none ∨ config.namesAliasOrClass token = true)) ∧
      (Grammar.splitScope? token = none → reported → config.IsByName token) ∧
      ∀ other : Config, other.property = config.property → other.values = config.values →
        other.aliases.get? name = some body →
        other.alias? other.grammar name = config.alias? config.grammar name := by
  intro reported
  have isReported : reported ↔ config.namesAliasOrClass token = true :=
    nestedAlias_mem_validate_iff isAlias inBody
  have byWhole : Grammar.splitScope? token = none →
      (config.IsByName token ↔ config.namesAliasOrClass token = true) := by
    intro noScope
    rw [isByName_iff, Resolution.splitScope, noScope]
  refine ⟨?_, ?_, ?_⟩
  · intro byName
    rw [isReported]
    exact ⟨Or.inr, fun cases => cases.elim (fun noScope => (byWhole noScope).mp byName) id⟩
  · intro noScope found
    exact (byWhole noScope).mpr (isReported.mp found)
  · intro other property values sameBody
    rw [alias?, alias?, isAlias, sameBody, Option.map_some, Option.map_some,
      Expansion.ofNames_congr property values, grammar, property]
    rfl

/-- A token that is reported, and one behind a scope that is reported since it is a name itself. -/
theorem nestedAlias_reported_iff_sample :
    let config := (Config.sample.withAlias "sm:btn".toList "p-1px".toList).withAlias
      "card".toList "box p-1px sm:btn".toList
    config.aliases.get? "card".toList = some "box p-1px sm:btn".toList ∧
      "sm:btn".toList ∈ Text.words "box p-1px sm:btn".toList ∧
      (Finding.nestedAlias "card".toList "box".toList).diagnostic ∈ config.validate ∧
      (Finding.nestedAlias "card".toList "sm:btn".toList).diagnostic ∈ config.validate := by
  intro config
  have isAlias : config.aliases.get? "card".toList = some "box p-1px sm:btn".toList := by decide
  have boxInBody : "box".toList ∈ Text.words "box p-1px sm:btn".toList := by decide
  have btnInBody : "sm:btn".toList ∈ Text.words "box p-1px sm:btn".toList := by decide
  have ofBox := (nestedAlias_reported_iff isAlias boxInBody).1 (isByName_iff.mpr (by decide))
  have ofBtn := (nestedAlias_reported_iff isAlias btnInBody).1 (isByName_iff.mpr (by decide))
  exact ⟨isAlias, btnInBody, ofBox.mpr (Or.inl (by decide)), ofBtn.mpr (Or.inr (by decide))⟩

/-- An alias behind a scope is resolved by an engine, not expanded in a body, and not reported. -/
theorem scoped_alias_overlooked :
    let config := ((Config.empty.withProperty "p".toList (.simple "padding".toList)).withAlias
      "btn".toList "p-1px".toList).withAlias "card".toList "hover:btn".toList
    config.aliases.get? "card".toList = some "hover:btn".toList ∧
      "hover:btn".toList ∈ Text.words "hover:btn".toList ∧
      config.origin "hover:btn".toList =
        .aliased ⟨[⟨"padding".toList, "1px".toList⟩], []⟩ ∧
      config.alias? config.grammar "card".toList = some .empty ∧ config.validate = [] :=
  ⟨by decide, by decide, rfl, by decide, by decide⟩

end Config

end UtilityCss
