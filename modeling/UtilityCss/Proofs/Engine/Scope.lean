import UtilityCss.Proofs.Engine.Run
import UtilityCss.Proofs.Expansion.Origin

/-!
# Scopes of rules

A scope in front of a class name only moves the rule of the class. What the class stands for stays,
however it is resolved; the rule goes into the media query of the first breakpoint that the scope
names, and gets the scope as its pseudo-class when there is no such breakpoint.
-/

namespace UtilityCss

namespace Selector

theorem isSpecial_of_isScopeChar {c : Char} (isScope : Grammar.isScopeChar c = true) :
    isSpecial c = false := by
  apply Bool.eq_false_iff.mpr
  intro isSpecialChar
  have noScope : Grammar.isScopeChar c = false :=
    eq_false_of_isSpecial (by decide) isSpecialChar
  rw [noScope] at isScope
  cases isScope

theorem escape_of_isScope {scope : Text} (isScope : ∀ c ∈ scope, Grammar.isScopeChar c = true) :
    escape scope = scope := by
  induction scope with
  | nil => rfl
  | cons c scope ih =>
      have plain : isSpecial c = false := isSpecial_of_isScopeChar (isScope c List.mem_cons_self)
      have rest : escape scope = scope :=
        ih fun d member => isScope d (List.mem_cons_of_mem c member)
      simp [escape, plain, rest]

end Selector

namespace Config

/-- The key of a class with a scope: under the condition of the first breakpoint of that name, or
with the scope behind the class. -/
def scopedKey (config : Config) (scope className : Text) : RuleKey :=
  match config.breakpoints.find? fun breakpoint => breakpoint.name = scope with
  | some breakpoint => .media breakpoint.mediaCondition (Selector.escape className)
  | none => .plain (Selector.escape className ++ ':' :: scope)

theorem ruleKey_eq_scopedKey (config : Config) {scope : Text} (className : Text)
    (isScope : ∀ c ∈ scope, Grammar.isScopeChar c = true) :
    config.ruleKey className (some scope) = config.scopedKey scope className := by
  rw [ruleKey, scopedKey, Option.bind_some, breakpoint?]
  cases config.breakpoints.find? fun breakpoint => breakpoint.name = scope with
  | some breakpoint => rfl
  | none => simp only [RuleKey.ofClass, Selector.ofClass, Selector.escape_of_isScope isScope]

theorem keyOf_eq_scopedKey {config : Config} (accepted : config.IsAccepted) {scope bare : Text}
    (isScope : Text.IsRun Grammar.isScopeChar scope)
    (nonempty : config.declarationsOf (scope ++ ':' :: bare) ≠ []) :
    config.keyOf (scope ++ ':' :: bare) = config.scopedKey scope (scope ++ ':' :: bare) := by
  have hasScope : (config.resolution (scope ++ ':' :: bare)).scope = some scope := by
    rw [resolution, ← grammar, scope_ofName accepted nonempty,
      Resolution.splitScope_of_scope isScope]
  rw [keyOf, hasScope, config.ruleKey_eq_scopedKey _ isScope.2]

theorem expansion_resolution (config : Config) (className : Text) :
    (config.resolution className).expansion = (config.origin className).expansion className :=
  config.expansion_ofName className

theorem declarationsOf_of_scope {config : Config} (accepted : config.IsAccepted)
    {scope bare : Text} (isScope : Text.IsRun Grammar.isScopeChar scope)
    (noScope : Grammar.splitScope? bare = none) :
    config.declarationsOf (scope ++ ':' :: bare) = config.declarationsOf bare := by
  rw [declarationsOf, declarationsOf, expansion_resolution, expansion_resolution,
    origin_of_scope accepted isScope noScope]
  exact Origin.declarations_expansion ..

theorem causes_of_scope {config : Config} (accepted : config.IsAccepted) {scope bare : Text}
    (isScope : Text.IsRun Grammar.isScopeChar scope)
    (noScope : Grammar.splitScope? bare = none) :
    (config.resolution (scope ++ ':' :: bare)).expansion.skipped.map Skip.cause =
      (config.resolution bare).expansion.skipped.map Skip.cause := by
  rw [expansion_resolution, expansion_resolution, origin_of_scope accepted isScope noScope]
  exact Origin.causes_expansion ..

end Config

namespace Engine

namespace Reflects

variable {config : Config} {names : List Text} {engine : Engine}

/-- Processing class names leaves the rules of all other classes as they are. -/
theorem get?_process_of_not_isFor (reflects : Reflects config names engine) {classList : Text}
    {key : RuleKey} (notFor : ∀ className ∈ Text.words classList, ¬ key.IsFor className) :
    (engine.process classList).styles.get? key = engine.styles.get? key := by
  have notKey : ∀ name ∈ Text.words classList, config.keyOf name ≠ key := by
    rintro name isWord rfl
    exact notFor name isWord (config.isFor_keyOf name)
  have sameAdded :
      StyleStore.addedUnder key (config.additionsOf (names ++ Text.words classList)) =
        StyleStore.addedUnder key (config.additionsOf names) := by
    rw [Config.additionsOf_append, StyleStore.addedUnder_append,
      Config.addedUnder_additionsOf_eq_nil notKey, List.append_nil]
  rw [(reflects.process classList).styles_eq, reflects.styles_eq, StyleStore.get?_addAll_empty,
    StyleStore.get?_addAll_empty, sameAdded]

end Reflects

/-- Processing a class with a scope after any run. The class is resolved as it is without the scope,
to the same declarations and failures. Of all keys that rules of the class could have, only the
scoped one holds the declarations, and the rules of other classes stay. Whatever the class name is,
the scope that the reader reports is the one that the name is split at, and the whole name is not
read when it can be split. -/
theorem process_of_scope {config : Config} {engine : Engine}
    (accepted : start config = .ok engine) (steps : List Step) {scope bare : Text}
    (isScope : Text.IsRun Grammar.isScopeChar scope)
    (isName : bare ≠ [] ∧ ∀ c ∈ bare, isBlank c = false)
    (noScope : Grammar.splitScope? bare = none) :
    let className := scope ++ ':' :: bare
    let before := engine.run steps
    let after := before.process className
    config.origin className = config.origin bare ∧
      config.declarationsOf className = config.declarationsOf bare ∧
      (config.resolution className).expansion.skipped.map Skip.cause =
        (config.resolution bare).expansion.skipped.map Skip.cause ∧
      (∀ key : RuleKey, key.IsFor className → after.styles.get? key =
        if key = config.scopedKey scope className ∧ config.declarationsOf bare ≠ [] then
          some (OrderedSet.ofList (config.declarationsOf bare))
        else none) ∧
      (∀ key : RuleKey, ¬ key.IsFor className →
        after.styles.get? key = before.styles.get? key) ∧
      (∀ name token, config.grammar.read? name = some token →
        token.scope = (Grammar.splitScope? name).map Prod.fst) ∧
      ∀ name parts, Grammar.splitScope? name = some parts →
        config.grammar.readBare? name = none := by
  intro className before after
  have isAccepted := (start_eq_ok_iff.mp accepted).1
  have sameDeclarations : config.declarationsOf className = config.declarationsOf bare :=
    Config.declarationsOf_of_scope isAccepted isScope noScope
  have isWord : Text.words className = [className] := by
    apply Text.words_of_noBlank
    · simp [className]
    · intro c member
      rcases List.mem_append.mp member with inScope | inRest
      · exact Grammar.noBlank_of_isScopeChar (isScope.2 c inScope)
      · rcases List.mem_cons.mp inRest with rfl | inBare
        · decide
        · exact isName.2 c inBare
  have reflects := reflects_run accepted steps
  refine ⟨Config.origin_of_scope isAccepted isScope noScope, sameDeclarations,
    Config.causes_of_scope isAccepted isScope noScope, ?_, ?_, ?_, ?_⟩
  · intro key isFor
    rw [(reflects.process className).get?_of_isFor isFor, isWord, sameDeclarations]
    by_cases empty : config.declarationsOf bare = []
    · simp [empty]
    · have isKey : config.keyOf className = config.scopedKey scope className :=
        Config.keyOf_eq_scopedKey isAccepted isScope (sameDeclarations ▸ empty)
      simp [empty, isKey]
  · intro key notFor
    apply reflects.get?_process_of_not_isFor
    rw [isWord]
    simpa using notFor
  · intro name token found
    exact Grammar.scope_of_read? isAccepted.noColon found
  · rintro name ⟨other, rest⟩ parts
    rcases Grammar.splitScope?_eq_some_iff.mp parts with ⟨rfl, isOther⟩
    exact Grammar.readBare?_eq_none_of_scope isAccepted.noColon isOther

/-- A scope that names a breakpoint: the rule goes into its media query, and there is no plain rule
of the class, although the class without the scope has one. -/
theorem process_of_scope_sample :
    let before := (fresh Config.sample).processReserved.run [.process "p-1px".toList]
    let after := before.process "sm:p-1px".toList
    start Config.sample = .ok (fresh Config.sample).processReserved ∧
      after.styles.get? (.media "(max-width: 639px)".toList "sm\\:p-1px".toList) =
        some (OrderedSet.ofList [⟨"padding".toList, "1px".toList⟩]) ∧
      after.styles.get? (.plain "sm\\:p-1px".toList) = none := by
  intro before after
  have accepted : start Config.sample = .ok (fresh Config.sample).processReserved := rfl
  have isScope : Text.IsRun Grammar.isScopeChar "sm".toList :=
    ⟨by decide, List.all_eq_true.mp (by decide)⟩
  have isName : "p-1px".toList ≠ [] ∧ ∀ c ∈ "p-1px".toList, isBlank c = false :=
    ⟨by decide, Text.eq_false_of_any (by decide)⟩
  have noScope : Grammar.splitScope? "p-1px".toList = none := by decide
  rcases process_of_scope accepted [.process "p-1px".toList] isScope isName noScope with
    ⟨_, _, _, rules, _⟩
  have isMedia : (RuleKey.media "(max-width: 639px)".toList "sm\\:p-1px".toList).IsFor
      "sm:p-1px".toList := Or.inr ⟨_, rfl⟩
  have isPlain : (RuleKey.plain "sm\\:p-1px".toList).IsFor "sm:p-1px".toList :=
    Or.inl ⟨none, rfl⟩
  exact ⟨accepted, (rules _ isMedia).trans (by decide), (rules _ isPlain).trans (by decide)⟩

end Engine

end UtilityCss
