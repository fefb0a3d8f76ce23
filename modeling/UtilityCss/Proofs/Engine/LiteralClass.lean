import UtilityCss.Proofs.ClassName.Priority
import UtilityCss.Proofs.Engine.NamedValue
import UtilityCss.Proofs.Style.Outline

/-!
# Classes with a literal value

A class such as `p-10px` gives the property of its type a literal: a number, an identifier or a
colour, with a unit behind it. A literal without hyphens is read as one quantity, whichever form
takes it, and no other type token can have a part in the class name, since a longer one would have
to end at a hyphen inside the literal. So the vocabulary around the type does not matter, and the
class alone makes a stylesheet of one rule that holds the literal as it was written.
-/

namespace UtilityCss

namespace ValueForm

/-- The texts of numbers, identifiers and colours with a unit behind them. -/
inductive IsLiteral : Text → Prop where
  | ofNumber {value unit : Text} (shape : Shape .number value) (isUnit : IsUnit unit) :
      IsLiteral (value ++ unit)
  | ofIdent {value unit : Text} (shape : Shape .ident value) (isUnit : IsUnit unit) :
      IsLiteral (value ++ unit)
  | ofHex {value unit : Text} (shape : Shape .hex value) (isUnit : IsUnit unit) :
      IsLiteral (value ++ unit)

/-- The characters that occur in literals. -/
def isLiteralChar (c : Char) : Bool :=
  isAsciiWord c || c == '-' || c == '.' || c == '#' || c == '%'

theorem isLiteralChar_of_isAlphanum {c : Char} (isAlphanum : c.isAlphanum = true) :
    isLiteralChar c = true := by
  simp [isLiteralChar, isAsciiWord, isAlphanum]

theorem isLiteralChar_of_isDigit {c : Char} (isDigit : c.isDigit = true) :
    isLiteralChar c = true :=
  isLiteralChar_of_isAlphanum (by simp [Char.isAlphanum, isDigit])

theorem isLiteralChar_of_isUnitChar {c : Char} (isUnit : Grammar.isUnitChar c = true) :
    isLiteralChar c = true := by
  simp only [Grammar.isUnitChar, Bool.or_eq_true, beq_iff_eq] at isUnit
  rcases isUnit with isAlpha | rfl
  · apply isLiteralChar_of_isAlphanum
    simp [Char.isAlphanum, isAlpha]
  · decide

theorem isLiteralChar_of_isHexDigit {c : Char} (isHex : isHexDigit c = true) :
    isLiteralChar c = true := by
  apply isLiteralChar_of_isAlphanum
  simp only [isHexDigit, Bool.or_eq_true, Bool.and_eq_true, decide_eq_true_eq, Char.le_def,
    UInt32.le_iff_toNat_le] at isHex
  change (c.isAlpha || c.isDigit) = true
  rw [Bool.or_eq_true, isAlpha_iff_toNat]
  rcases isHex with (isDigit | isSmall) | isCapital
  · exact Or.inr isDigit
  · left
    right
    exact ⟨isSmall.1, le_trans isSmall.2 (by decide)⟩
  · left
    left
    exact ⟨isCapital.1, le_trans isCapital.2 (by decide)⟩

end ValueForm

theorem IsDecimal.isLiteralChar {value : Text} (isDecimal : IsDecimal value) :
    ∀ c ∈ value, ValueForm.isLiteralChar c = true := by
  intro c member
  by_cases point : c = '.'
  · subst c
    decide
  · apply ValueForm.isLiteralChar_of_isDigit
    by_contra noDigit
    exact isDecimal.not_mem (Bool.eq_false_iff.mpr noDigit) point member

theorem IsIdent.isLiteralChar {value : Text} (isIdent : IsIdent value) :
    ∀ c ∈ value, ValueForm.isLiteralChar c = true := by
  intro c member
  by_cases hyphen : c = '-'
  · subst c
    decide
  · have isWord : isAsciiWord c = true := by
      by_contra noWord
      exact isIdent.not_mem (Bool.eq_false_iff.mpr noWord) hyphen member
    simp [ValueForm.isLiteralChar, isWord]

namespace ValueForm

theorem isLiteralChar_append {value unit : Text}
    (inValue : ∀ c ∈ value, ValueForm.isLiteralChar c = true) (isUnit : IsUnit unit) :
    ∀ c ∈ value ++ unit, ValueForm.isLiteralChar c = true := by
  intro c member
  rcases List.mem_append.mp member with front | behind
  · exact inValue c front
  · exact isLiteralChar_of_isUnitChar (isUnit c behind)

theorem IsLiteral.isLiteralChar {text : Text} (isLiteral : IsLiteral text) :
    ∀ c ∈ text, ValueForm.isLiteralChar c = true := by
  cases isLiteral with
  | ofNumber shape isUnit =>
      apply isLiteralChar_append _ isUnit
      cases shape with
      | decimal isDecimal => exact isDecimal.isLiteralChar
      | negative isDecimal =>
          exact List.forall_mem_cons.mpr ⟨by decide, isDecimal.isLiteralChar⟩
  | ofIdent shape isUnit =>
      apply isLiteralChar_append _ isUnit
      cases shape with
      | ident isIdent => exact isIdent.isLiteralChar
  | ofHex shape isUnit =>
      apply isLiteralChar_append _ isUnit
      cases shape with
      | hex isRun =>
          have digits : ∀ c ∈ _, ValueForm.isLiteralChar c = true :=
            fun c member => isLiteralChar_of_isHexDigit (isRun.2 c member)
          exact List.forall_mem_cons.mpr ⟨by decide, digits⟩

theorem noBlank_of_isLiteralChar {c : Char} (isLiteral : isLiteralChar c = true) :
    isBlank c = false := by
  simp only [isLiteralChar, isAsciiWord, Bool.or_eq_true, beq_iff_eq] at isLiteral
  rcases isLiteral with (((((isAlphanum | rfl) | rfl) | rfl) | rfl) | rfl)
  · exact noBlank_of_isAlphanum isAlphanum
  all_goals decide

theorem noAsciiBlank_of_isLiteralChar {c : Char} (isLiteral : isLiteralChar c = true) :
    isAsciiBlank c = false := by
  apply Bool.eq_false_iff.mpr
  intro blank
  simp only [isAsciiBlank, Bool.or_eq_true, beq_iff_eq] at blank
  rcases blank with (((rfl | rfl) | rfl) | rfl) | rfl <;> cases isLiteral

theorem IsLiteral.not_mem {text : Text} {c : Char} (isLiteral : IsLiteral text)
    (outside : ValueForm.isLiteralChar c = false) : c ∉ text := by
  intro member
  rw [isLiteral.isLiteralChar c member] at outside
  cases outside

theorem IsLiteral.exists_isDerived {text : Text} (isLiteral : IsLiteral text) :
    ∃ quantity : Quantity, quantity.IsDerived ∧ quantity.render = text := by
  cases isLiteral with
  | @ofNumber value unit shape isUnit => exact ⟨⟨value, unit⟩, ⟨⟨_, shape⟩, isUnit⟩, rfl⟩
  | @ofIdent value unit shape isUnit => exact ⟨⟨value, unit⟩, ⟨⟨_, shape⟩, isUnit⟩, rfl⟩
  | @ofHex value unit shape isUnit => exact ⟨⟨value, unit⟩, ⟨⟨_, shape⟩, isUnit⟩, rfl⟩

end ValueForm

namespace Grammar

/-- A literal is read as one quantity, and no character of it is lost. -/
theorem readValues?_of_isLiteral {literal : Text} (isLiteral : ValueForm.IsLiteral literal) :
    ∃ quantity : Quantity, readValues? literal = some (quantity, none) ∧
      quantity.render = literal := by
  rcases isLiteral.exists_isDerived with ⟨derived, isDerived, whole⟩
  have noBlank : ∀ c ∈ derived.render ++ ClassToken.renderSecondary none,
      isAsciiBlank c = false := by
    intro c member
    apply ValueForm.noAsciiBlank_of_isLiteralChar
    apply isLiteral.isLiteralChar
    simpa [ClassToken.renderSecondary, whole] using member
  have isRead := isSome_readValues? isDerived (by simp) noBlank
  rw [ClassToken.renderSecondary, List.append_nil, whole] at isRead
  rcases Option.isSome_iff_exists.mp isRead with ⟨⟨quantity, secondary⟩, found⟩
  rcases readValues?_sound found with ⟨_, _, parts⟩
  cases secondary with
  | none => exact ⟨quantity, found, by simpa [ClassToken.renderSecondary] using parts.symm⟩
  | some second =>
      exfalso
      apply isLiteral.not_mem (by decide : ValueForm.isLiteralChar '/' = false)
      rw [parts]
      simp [ClassToken.renderSecondary]

/-- A class name without scope is read with the longest token that can read it. -/
theorem read?_of_isLongestReader {types : List Text} {type values : Text} {primary : Quantity}
    {secondary : Option Quantity} (noScope : splitScope? (type ++ '-' :: values) = none)
    (longest : IsLongestReader types (type ++ '-' :: values) type)
    (isRead : readValues? values = some (primary, secondary)) :
    (ofTypes types).read? (type ++ '-' :: values) = some ⟨none, type, primary, secondary⟩ := by
  have reads : readWithType? (type ++ '-' :: values) type =
      some ⟨none, type, primary, secondary⟩ := by
    rw [readWithType?_append, isRead]
    rfl
  have byType := findSome?_readWithType?_eq_some_iff.mpr ⟨type, longest, reads⟩
  rw [read?_of_noScope noScope, readBare?, byType]
  rfl

/-- A type token and a literal without hyphens are read as just that: no longer token has a part in
the name. -/
theorem read?_of_isLiteral {types : List Text} {type literal : Text}
    (noColon : ∀ type ∈ types, ':' ∉ type) (registered : type ∈ types)
    (isLiteral : ValueForm.IsLiteral literal) (noHyphen : '-' ∉ literal) :
    ∃ quantity : Quantity, quantity.render = literal ∧
      (ofTypes types).read? (type ++ '-' :: literal) = some ⟨none, type, quantity, none⟩ := by
  rcases readValues?_of_isLiteral isLiteral with ⟨quantity, isRead, whole⟩
  refine ⟨quantity, whole, ?_⟩
  have noScope : splitScope? (type ++ '-' :: literal) = none := by
    apply splitScope?_of_noColon
    simp [noColon type registered, isLiteral.not_mem (c := ':') (by decide)]
  have longest : IsLongestReader types (type ++ '-' :: literal) type := by
    apply isLongestReader_of_noSplit registered (by simp [isRead])
    rintro front behind _ rfl
    exact noHyphen (by simp)
  exact read?_of_isLongestReader noScope longest isRead

end Grammar

namespace Stylesheet

/-- The stylesheet of a single plain rule. -/
theorem render_of_listing {store : StyleStore} {selector : Text} {declarations : List Declaration}
    (single : store.listing = [(.plain selector, declarations)]) :
    render store = '.' :: selector ++ " \x7b ".toList ++
      Text.join "; ".toList (declarations.map Declaration.render) ++ "; \x7d\n".toList := by
  rcases List.map_eq_singleton_iff.mp single with ⟨⟨key, held⟩, entries, equal⟩
  rcases Prod.mk.inj equal with ⟨rfl, rfl⟩
  have isRule : plainRules store = [(selector, held)] := by
    rw [plainRules, entries]
    rfl
  have noBlock : conditions store = [] := by
    rw [conditions, OrderedMap.keys, entries]
    rfl
  rw [render_eq, isRule, noBlock]
  simp [renderRule]

end Stylesheet

namespace Engine

/-- Processing a type with one property and a literal without hyphens, in an engine that was reset
after any run. Whatever else is registered, the class name is read as the type and the literal, and
unless the value of the literal is a registered name, the engine then holds one rule and no report,
and the stylesheet is that rule, with the literal as it was written. -/
theorem stylesheet_process_literal {config : Config} {engine : Engine}
    (accepted : start config = .ok engine) (steps : List Step) {type property literal : Text}
    (registered : config.property.get? type = some (.simple property))
    (isLiteral : ValueForm.IsLiteral literal) (noHyphen : '-' ∉ literal)
    (noAlias : config.aliases.get? (type ++ '-' :: literal) = none)
    (noClass : config.customClass? (type ++ '-' :: literal) = none)
    (unnamed : ∀ token, config.grammar.read? (type ++ '-' :: literal) = some token →
      config.values.get? token.primary.value = none) :
    let className := type ++ '-' :: literal
    let after := (engine.run steps).reset.process className
    (∃ quantity : Quantity, quantity.render = literal ∧
        config.grammar.read? className = some ⟨none, type, quantity, none⟩) ∧
      after.styles.listing = [(.plain (Selector.escape className), [⟨property, literal⟩])] ∧
      after.ruleCount = 1 ∧ after.diagnostics = [] ∧
      after.stylesheet = '.' :: Selector.escape className ++ " \x7b ".toList ++ property ++
        ": ".toList ++ literal ++ "; \x7d\n".toList := by
  intro className after
  have isAccepted := (start_eq_ok_iff.mp accepted).1
  have isKey := OrderedMap.mem_keys_of_get?_eq_some registered
  rcases Grammar.read?_of_isLiteral isAccepted.noColon isKey isLiteral noHyphen with
    ⟨quantity, whole, read⟩
  change config.grammar.read? className = _ at read
  have resolved : Shorthand.resolveQuantity config quantity = .ok literal := by
    have notMarked : ∀ c, ValueForm.isLiteralChar c = false → quantity.value.head? ≠ some c := by
      intro c outside isHead
      apply isLiteral.not_mem outside
      rw [← whole, Quantity.render]
      exact List.mem_append_left _ (List.mem_of_head? isHead)
    have notBracket : Text.isBetween '[' ']' quantity.value = false := by
      simp [Text.isBetween, notMarked '[' (by decide)]
    rw [Shorthand.resolveQuantity, Value.resolve_of_unregistered (unnamed _ read)
      (notMarked '$' (by decide)), notBracket, if_neg Bool.false_ne_true, ← whole, Quantity.render]
  have declared : Shorthand.resolve config ⟨none, type, quantity, none⟩ =
      .ok (some ⟨[⟨property, literal⟩], literal⟩) := by
    rw [Shorthand.resolve_of_simple isAccepted registered, resolved]
    rfl
  have resolution : config.resolution className = ⟨none, ⟨[⟨property, literal⟩], []⟩⟩ := by
    rw [Config.resolution_of_read? isAccepted noAlias noClass read rfl, Expansion.ofShorthand,
      read]
    simp [declared]
  have isWord : Text.words className = [className] :=
    words_typed_name (isAccepted.isTypeToken isKey).noBlank fun c member =>
      ValueForm.noBlank_of_isLiteralChar (isLiteral.isLiteralChar c member)
  have reflects : Reflects config [className] after := by
    have processed := (reflects_run accepted steps).reset.process className
    rwa [isWord] at processed
  have listing : after.styles.listing =
      [(.plain (Selector.escape className), [⟨property, literal⟩])] := by
    rw [reflects.listing_eq]
    simp [Config.styled, Config.declarationsOf, Config.keyOf, resolution, Config.ruleKey,
      RuleKey.ofClass, Selector.ofClass, List.eraseDups_cons]
  refine ⟨⟨quantity, whole, read⟩, listing, ?_, ?_, ?_⟩
  · rw [ruleCount, ← StyleStore.length_listing, listing]
    rfl
  · rw [reflects.diagnostics_eq]
    simp [Config.warningsOf, resolution]
  · rw [stylesheet, Stylesheet.render_of_listing listing]
    simp [Text.join, Declaration.render]

/-- Longer tokens are registered, one of which is the class name itself, and so is the literal as a
value name; the value without its unit is not. -/
theorem stylesheet_process_literal_sample :
    let config := (((Config.empty.withProperty "p".toList (.simple "padding".toList)).withProperty
      "p-1".toList (.simple "margin".toList)).withProperty "p-1.5rem".toList
        (.simple "gap".toList)).withValue "1.5rem".toList "24px".toList
    let engine := (fresh config).processReserved
    start config = .ok engine ∧
      ((engine.run [.process "p-1-2".toList]).reset.process "p-1.5rem".toList).stylesheet =
        ".p-1\\.5rem \x7b padding: 1.5rem; \x7d\n".toList := by
  intro config engine
  have accepted : start config = .ok engine := rfl
  have registered : config.property.get? "p".toList = some (.simple "padding".toList) := by decide
  have isDecimal : IsDecimal (['1'] ++ '.' :: ['5']) :=
    .point (Text.isRun_singleton (by decide)) (Text.isRun_singleton (by decide))
  have isUnit : ValueForm.IsUnit "rem".toList := List.all_eq_true.mp (by decide)
  have isLiteral : ValueForm.IsLiteral "1.5rem".toList := .ofNumber (.decimal isDecimal) isUnit
  have unnamed : ∀ token, config.grammar.read? "p-1.5rem".toList = some token →
      config.values.get? token.primary.value = none := by
    intro token found
    have read : config.grammar.read? "p-1.5rem".toList =
        some ⟨none, ['p'], ⟨"1.5".toList, "rem".toList⟩, none⟩ := by decide
    rw [read] at found
    cases found
    decide
  have rule := stylesheet_process_literal accepted [.process "p-1-2".toList] registered isLiteral
    (by decide) (by decide) (by decide) unnamed
  exact ⟨accepted, rule.2.2.2.2.trans (by decide)⟩

end Engine

end UtilityCss
