import Mathlib.Logic.Function.Basic
import UtilityCss.Proofs.Engine.Run

/-!
# Rules of different classes

A plain rule is found by one flat text, in which the class name and the pseudo-class stand behind
each other. The colon between them is the first one without a backslash, so the text still tells
both apart, and a media rule keeps its condition beside the selector. Two classes therefore never
write into one rule: whatever else an engine is given, the rule of a class holds the declarations of
that class and no others.
-/

namespace UtilityCss

namespace RuleKey

theorem ofClass_injective : Function.Injective2 ofClass := by
  intro first second firstPseudo secondPseudo equal
  exact Selector.ofClass_inj (plain.inj equal)

theorem ofMedia_injective : Function.Injective2 ofMedia := by
  intro condition other first second equal
  rcases media.inj equal with ⟨conditions, selectors⟩
  exact ⟨conditions, Selector.escape_injective selectors⟩

theorem ofClass_ne_ofMedia (className other condition : Text) (pseudo : Option Text) :
    ofClass className pseudo ≠ ofMedia condition other := by
  intro equal
  cases equal

end RuleKey

namespace Engine

/-- The keys of rules tell classes, pseudo-classes and media conditions apart, and a key that is made
for one class, with any scope, is never made for another. So after any run, two class names that
were seen and stand for declarations have two rules, each with the declarations of its own class. -/
theorem rules_apart :
    Function.Injective2 RuleKey.ofClass ∧ Function.Injective2 RuleKey.ofMedia ∧
      (∀ className other condition pseudo,
        RuleKey.ofClass className pseudo ≠ RuleKey.ofMedia condition other) ∧
      (∀ (config : Config) (first second : Text) (firstScope secondScope : Option Text),
        first ≠ second →
          config.ruleKey first firstScope ≠ config.ruleKey second secondScope) ∧
      ∀ (config : Config) (engine : Engine) (steps : List Step) (first second : Text),
        start config = .ok engine → first ≠ second →
        first ∈ namesSeen config steps → second ∈ namesSeen config steps →
        config.declarationsOf first ≠ [] → config.declarationsOf second ≠ [] →
        let rules := (engine.run steps).styles
        config.keyOf first ≠ config.keyOf second ∧
          rules.get? (config.keyOf first) =
            some (OrderedSet.ofList (config.declarationsOf first)) ∧
          rules.get? (config.keyOf second) =
            some (OrderedSet.ofList (config.declarationsOf second)) := by
  refine ⟨RuleKey.ofClass_injective, RuleKey.ofMedia_injective, RuleKey.ofClass_ne_ofMedia,
    ?_, ?_⟩
  · intro config first second firstScope secondScope different
    exact mt Config.ruleKey_injective different
  · intro config engine steps first second accepted different seenFirst seenSecond
      declaredFirst declaredSecond rules
    have reflects := reflects_run accepted steps
    exact ⟨mt Config.keyOf_injective different, reflects.get?_keyOf seenFirst declaredFirst,
      reflects.get?_keyOf seenSecond declaredSecond⟩

/-- A class with a pseudo-class, and one of which the name is the whole selector of the first. -/
theorem rules_apart_sample :
    let config := (Config.empty.withProperty "p".toList (.simple "padding".toList)).withClass
      "color".toList "hover\\:p-1px:hover".toList "red".toList
    let engine := (fresh config).processReserved
    let rules := (engine.run [.process "hover:p-1px hover\\:p-1px:hover".toList]).styles
    start config = .ok engine ∧
      rules.get? (.plain "hover\\:p-1px:hover".toList) =
        some (OrderedSet.ofList [⟨"padding".toList, "1px".toList⟩]) ∧
      rules.get? (.plain "hover\\\\\\:p-1px\\:hover".toList) =
        some (OrderedSet.ofList [⟨"color".toList, "red".toList⟩]) := by
  intro config engine rules
  have accepted : start config = .ok engine := rfl
  rcases rules_apart.2.2.2.2 config engine
    [.process "hover:p-1px hover\\:p-1px:hover".toList] "hover:p-1px".toList
    "hover\\:p-1px:hover".toList accepted (by decide) (by decide) (by decide) (by decide)
    (by decide) with ⟨_, first, second⟩
  have firstKey : config.keyOf "hover:p-1px".toList = .plain "hover\\:p-1px:hover".toList := by
    decide
  have secondKey : config.keyOf "hover\\:p-1px:hover".toList =
      .plain "hover\\\\\\:p-1px\\:hover".toList := by
    decide
  rw [firstKey] at first
  rw [secondKey] at second
  exact ⟨accepted, first.trans (by decide), second.trans (by decide)⟩

end Engine

end UtilityCss
