import UtilityCss.Proofs.Engine.Vocabulary

/-!
# Aliases and the tokens of their bodies

An alias stands for what its body tokens stand for one by one. To say so without the resolution of
aliases itself, every token is given to an engine of its own that knows no alias and no semantic
class: the alias has the declarations that these engines store, and fails where one of them warns.
A scope of a token moves the rule that its engine stores, but not the declarations in it.

A body is read with the type tokens and values only, so nothing else in a configuration matters.
-/

namespace UtilityCss

namespace Shorthand

theorem resolve_congr {config other : Config} (property : other.property = config.property)
    (values : other.values = config.values) (token : ClassToken) :
    resolve other token = resolve config token := by
  have quantity : resolveQuantity other = resolveQuantity config := by
    funext quantity
    rw [resolveQuantity, resolveQuantity, values]
  have secondary : resolveSecondary other = resolveSecondary config := by
    funext secondary
    cases secondary with
    | none => rfl
    | some secondary => rw [resolveSecondary, resolveSecondary, quantity]
  have items : itemProperties other = itemProperties config := by
    funext item
    rw [itemProperties, itemProperties, property]
  have entries : entryDeclarations other = entryDeclarations config := by
    funext entry second value
    cases entry with
    | simple name => rfl
    | templated names template => rw [entryDeclarations, entryDeclarations, secondary]
  simp only [resolve, listedDeclarations, quantity, items, entries, property]

end Shorthand

namespace Expansion

theorem ofShorthand_congr {config other : Config} (property : other.property = config.property)
    (values : other.values = config.values) (grammar : Grammar) (name : Text) :
    ofShorthand other grammar name = ofShorthand config grammar name := by
  simp only [ofShorthand, Shorthand.resolve_congr property values]

theorem ofNames_congr {config other : Config} (property : other.property = config.property)
    (values : other.values = config.values) (grammar : Grammar) (names : List Text) :
    ofNames other grammar names = ofNames config grammar names := by
  simp only [ofNames, ofShorthand_congr property values]

theorem skipped_ofNames (config : Config) (grammar : Grammar) (names : List Text) :
    (ofNames config grammar names).skipped =
      names.flatMap fun name => (ofShorthand config grammar name).skipped := by
  induction names with
  | nil => rfl
  | cons name names ih =>
      rw [List.flatMap_cons, ← ih]
      rfl

/-- A shorthand class fails under its own name, and at most once. -/
theorem skipped_ofShorthand (config : Config) (grammar : Grammar) (name : Text) :
    (ofShorthand config grammar name).skipped = [] ∨
      ∃ cause, (ofShorthand config grammar name).skipped = [⟨name, cause⟩] := by
  rw [ofShorthand]
  split
  · exact Or.inl rfl
  · split
    · exact Or.inl rfl
    · exact Or.inl rfl
    · rename_i cause _
      exact Or.inr ⟨cause, rfl⟩

theorem name_skipped_ofNames (config : Config) (grammar : Grammar) (names : List Text) :
    (ofNames config grammar names).skipped.map Skip.name =
      names.filter fun name => !(ofShorthand config grammar name).skipped.isEmpty := by
  rw [skipped_ofNames]
  induction names with
  | nil => rfl
  | cons name names ih =>
      rw [List.flatMap_cons, List.map_append, ih, List.filter_cons]
      rcases skipped_ofShorthand config grammar name with resolved | ⟨cause, failed⟩
      · simp [resolved]
      · simp [failed]

theorem mem_skipped_ofNames {config : Config} {grammar : Grammar} {names : List Text}
    {skip : Skip} :
    skip ∈ (ofNames config grammar names).skipped ↔
      skip.name ∈ names ∧ (ofShorthand config grammar skip.name).skipped = [skip] := by
  rw [skipped_ofNames, List.mem_flatMap]
  constructor
  · rintro ⟨name, member, isSkip⟩
    rcases skipped_ofShorthand config grammar name with resolved | ⟨cause, failed⟩
    · simp [resolved] at isSkip
    · rw [failed] at isSkip
      rw [List.mem_singleton.mp isSkip]
      exact ⟨member, failed⟩
  · rintro ⟨member, failed⟩
    exact ⟨skip.name, member, failed ▸ List.mem_singleton_self skip⟩

end Expansion

namespace Config

/-- The type tokens, values and breakpoints of a configuration, without aliases, semantic classes
and reserved classes. -/
def shorthandOnly (config : Config) : Config :=
  { config with aliases := ∅, classes := ∅, reserved := [] }

variable {config : Config}

theorem IsAccepted.shorthandOnly (accepted : config.IsAccepted) :
    config.shorthandOnly.IsAccepted := by
  have fewer : ∀ finding ∈ config.shorthandOnly.findings, finding ∈ config.findings := by
    intro finding found
    have noAlias : config.shorthandOnly.aliases.entries = [] := rfl
    rw [findings, noAlias, List.flatMap_nil, List.append_nil] at found
    exact List.mem_append_left _ found
  apply List.any_eq_false.mpr
  intro diagnostic reported
  rcases List.mem_map.mp reported with ⟨finding, found, rfl⟩
  exact List.any_eq_false.mp accepted _ (List.mem_map_of_mem (fewer finding found))

theorem resolution_shorthandOnly (config : Config) (name : Text) :
    (config.shorthandOnly.resolution name).expansion =
      Expansion.ofShorthand config config.grammar name := by
  have noAlias : ∀ bare, config.shorthandOnly.alias? config.grammar bare = none := fun _ => rfl
  have noClass : ∀ bare, config.shorthandOnly.customClass? bare = none := fun _ => rfl
  change (Resolution.ofName config.shorthandOnly config.grammar name).expansion = _
  simp only [Resolution.ofName, noAlias, noClass, Resolution.ofShorthand]
  exact Expansion.ofShorthand_congr rfl rfl config.grammar name

end Config

namespace Engine

theorem start_shorthandOnly {config : Config} (accepted : config.IsAccepted) :
    start config.shorthandOnly = .ok (fresh config.shorthandOnly) :=
  start_eq_ok_iff.mpr ⟨accepted.shorthandOnly, rfl⟩

/-- All declarations that an engine holds, rule by rule. -/
def storedDeclarations (engine : Engine) : List Declaration :=
  engine.styles.listing.flatMap Prod.snd

/-- An engine without names of its own that has seen one token. -/
def alone (config : Config) (token : Text) : Engine :=
  (fresh config.shorthandOnly).process token

theorem skipWarning_injective {first second : Skip}
    (equal : skipWarning first = skipWarning second) : first = second := by
  rcases first with ⟨name, ⟨unknown⟩⟩
  rcases second with ⟨otherName, ⟨otherUnknown⟩⟩
  simp only [skipWarning, Diagnostic.mk.injEq, Option.some.injEq, Text.quoted] at equal
  rcases equal with ⟨_, _, message, help⟩
  have sameUnknown : unknown = otherUnknown := by simpa using help
  subst sameUnknown
  simpa using message

section Alone

variable {config : Config} {token : Text}

theorem reflects_alone (isWord : token ≠ [] ∧ ∀ c ∈ token, isBlank c = false) :
    Reflects config.shorthandOnly [token] (alone config token) := by
  have processed := (reflects_fresh config.shorthandOnly).process token
  rwa [Text.words_of_noBlank isWord.1 isWord.2] at processed

/-- A token that is processed alone stores what it stands for, without repeats. -/
theorem storedDeclarations_alone (isWord : token ≠ [] ∧ ∀ c ∈ token, isBlank c = false) :
    (alone config token).storedDeclarations =
      (Expansion.ofShorthand config config.grammar token).declarations.eraseDups := by
  have declared : config.shorthandOnly.declarationsOf token =
      (Expansion.ofShorthand config config.grammar token).declarations := by
    rw [Config.declarationsOf, config.resolution_shorthandOnly]
  rw [storedDeclarations, (reflects_alone isWord).listing_eq, List.flatMap_map]
  -- the engine lists one rule, or none for a token that stands for nothing
  by_cases empty : (Expansion.ofShorthand config config.grammar token).declarations = []
  · simp [Config.styled, declared, empty]
  · simp [Config.styled, declared, empty, List.eraseDups_cons]

theorem diagnostics_alone (isWord : token ≠ [] ∧ ∀ c ∈ token, isBlank c = false) :
    (alone config token).diagnostics =
      (Expansion.ofShorthand config config.grammar token).skipped.map skipWarning := by
  rw [(reflects_alone isWord).diagnostics_eq, List.flatMap_singleton, Config.warningsOf,
    config.resolution_shorthandOnly]

end Alone

/-- What an alias of an accepted configuration stands for, in terms of engines that know no alias
and no semantic class and have seen one token of the body each. Its declarations are what they
store, its failures are what they warn of, and other configurations that agree on type tokens,
values and the body give the same. -/
theorem alias_fuses_tokens {config : Config} {engine : Engine}
    (accepted : start config = .ok engine) {name body : Text}
    (registered : config.aliases.get? name = some body) :
    start config.shorthandOnly = .ok (fresh config.shorthandOnly) ∧
      ∃ expansion, config.alias? engine.grammar name = some expansion ∧
        expansion.declarations.eraseDups =
          ((Text.words body).flatMap fun token =>
            (alone config token).storedDeclarations).eraseDups ∧
        expansion.skipped.map Skip.name =
          (Text.words body).filter (fun token => !(alone config token).diagnostics.isEmpty) ∧
        (∀ skip, skip ∈ expansion.skipped ↔
          skip.name ∈ Text.words body ∧ (alone config skip.name).diagnostics = [skipWarning skip]) ∧
        ∀ other : Config, other.property = config.property → other.values = config.values →
          other.aliases.get? name = some body →
          other.alias? other.grammar name = some expansion := by
  have isAccepted := (start_eq_ok_iff.mp accepted).1
  refine ⟨start_shorthandOnly isAccepted,
    Expansion.ofNames config config.grammar (Text.words body), ?_, ?_, ?_, ?_, ?_⟩
  · rw [(reflects_of_start accepted).grammar_eq, Config.alias?, registered]
    rfl
  · have stored : ((Text.words body).flatMap fun token =>
          (alone config token).storedDeclarations) =
        (Text.words body).flatMap fun token =>
          (Expansion.ofShorthand config config.grammar token).declarations.eraseDups := by
      rw [List.flatMap_def, List.flatMap_def]
      apply congrArg List.flatten
      apply List.map_congr_left
      intro token isToken
      exact storedDeclarations_alone (Text.noBlank_of_mem_words isToken)
    rw [Expansion.declarations_ofNames, stored, Distinct.eraseDups_flatMap_eraseDups]
  · rw [Expansion.name_skipped_ofNames]
    apply List.filter_congr
    intro token isToken
    rw [diagnostics_alone (Text.noBlank_of_mem_words isToken), List.isEmpty_map]
  · intro skip
    rw [Expansion.mem_skipped_ofNames]
    apply and_congr_right
    intro isToken
    rw [diagnostics_alone (Text.noBlank_of_mem_words isToken), ← List.map_singleton,
      List.map_inj_right fun _ _ => skipWarning_injective]
  · intro other property values sameBody
    rw [Config.alias?, sameBody, Option.map_some,
      Expansion.ofNames_congr property values, Config.grammar, property]
    rfl

/-- A body with a scope of either kind, a failure, a name that stands for nothing, the name of
another alias, and a repeated declaration. -/
theorem alias_fuses_tokens_sample :
    let body := "hover:p-1px bg-[{no}] nothing btn sm:bg-white p-1px".toList
    let config := Config.sample.withAlias "mix".toList body
    ∃ engine expansion, start config = .ok engine ∧
      config.alias? engine.grammar "mix".toList = some expansion ∧
      expansion.declarations.eraseDups =
        [⟨"padding".toList, "1px".toList⟩, ⟨"background".toList, "#fff".toList⟩] ∧
      expansion.skipped.map Skip.name = ["bg-[{no}]".toList] := by
  intro body config
  have accepted : start config = .ok (fresh config).processReserved := rfl
  have registered : config.aliases.get? "mix".toList = some body := by decide
  rcases alias_fuses_tokens accepted registered with ⟨_, expansion, found, declarations, names, _⟩
  exact ⟨_, expansion, accepted, found, declarations.trans (by decide), names.trans (by decide)⟩

end Engine

end UtilityCss
