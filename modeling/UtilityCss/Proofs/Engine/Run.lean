import UtilityCss.Engine.Basic
import UtilityCss.Proofs.Config.Acceptance
import UtilityCss.Proofs.Style.Key
import UtilityCss.Proofs.Style.Store
import UtilityCss.Proofs.Text.Cutting

/-!
# Runs of an engine

An engine is driven by class lists, by its reserved classes and by resets. What it holds after a run
depends only on the class names seen since it was started or last reset: one rule for each name that
stands for declarations, in the order in which the names were first seen, and the warnings of all
names, repetitions included.

The invariant `Engine.Reflects` says this of a single state. It keeps the names with their
repetitions, since a repeated name repeats its warnings but never its declarations.
-/

namespace UtilityCss

namespace Config

/-- What a class name stands for under a configuration alone. -/
def resolution (config : Config) (className : Text) : Resolution :=
  Resolution.ofName config (Grammar.ofTypes config.property.keys) className

/-- The key of the rule of a class name. -/
def keyOf (config : Config) (className : Text) : RuleKey :=
  config.ruleKey className (config.resolution className).scope

/-- The declarations that a class name stands for, with repetitions. -/
def declarationsOf (config : Config) (className : Text) : List Declaration :=
  (config.resolution className).expansion.declarations

/-- The warnings that a class name produces each time it is processed. -/
def warningsOf (config : Config) (className : Text) : Diagnostics :=
  (config.resolution className).expansion.skipped.map Engine.skipWarning

/-- The class names among `names` that stand for at least one declaration. -/
def styled (config : Config) (names : List Text) : List Text :=
  names.filter fun className => !(config.declarationsOf className).isEmpty

/-- What processing class names adds to a store. -/
def additionsOf (config : Config) (names : List Text) : List (RuleKey × List Declaration) :=
  names.map fun className => (config.keyOf className, config.declarationsOf className)

def reservedNames (config : Config) : List Text :=
  config.reserved.flatMap Text.words

theorem isWord_of_mem_reservedNames (config : Config) {className : Text}
    (reserved : className ∈ config.reservedNames) :
    ∃ classList, className ∈ Text.words classList := by
  rcases List.mem_flatMap.mp reserved with ⟨classList, _, isWord⟩
  exact ⟨classList, isWord⟩

/-- A small vocabulary with an entry of each kind. -/
def sample : Config :=
  ((((((empty.withProperty "bg".toList (.simple "background".toList)).withProperty
    "p".toList (.simple "padding".toList)).withValue
    "white".toList "#fff".toList).withClass
    "display".toList "box".toList "flex".toList).withAlias
    "btn".toList "p-1px bg-white p-1px".toList).withBreakpoint
    ⟨"sm".toList, none, some 639⟩).withReserved "btn".toList

theorem keyOf_injective {config : Config} {first second : Text}
    (equal : config.keyOf first = config.keyOf second) : first = second :=
  config.ruleKey_injective equal

theorem additionsOf_append (config : Config) (first second : List Text) :
    config.additionsOf (first ++ second) =
      config.additionsOf first ++ config.additionsOf second := by
  simp [additionsOf]

theorem touchedKeys_additionsOf (config : Config) (names : List Text) :
    StyleStore.touchedKeys (config.additionsOf names) =
      (config.styled names).map config.keyOf := by
  simp [StyleStore.touchedKeys, additionsOf, styled, List.filter_map, Function.comp_def]

/-- Only processing a name adds under its key, so repetitions of the name are all that is added. -/
theorem addedUnder_additionsOf (config : Config) (names : List Text) (className : Text) :
    StyleStore.addedUnder (config.keyOf className) (config.additionsOf names) =
      (names.filter fun name => name = className).flatMap config.declarationsOf := by
  have sameKey : ∀ name, config.keyOf name = config.keyOf className ↔ name = className :=
    fun name => ⟨keyOf_injective, fun equal => equal ▸ rfl⟩
  simp [StyleStore.addedUnder, additionsOf, List.filter_map, Function.comp_def, sameKey,
    List.flatMap_map]

theorem eraseDups_addedUnder_additionsOf {config : Config} {names : List Text} {className : Text}
    (seen : className ∈ names) :
    (StyleStore.addedUnder (config.keyOf className) (config.additionsOf names)).eraseDups =
      (config.declarationsOf className).eraseDups := by
  have isSeen : className ∈ names.filter fun name => name = className := by simpa using seen
  rw [addedUnder_additionsOf]
  rcases List.exists_cons_of_ne_nil (List.ne_nil_of_mem isSeen) with ⟨first, others, found⟩
  have same : ∀ name ∈ first :: others, name = className := by
    intro name member
    rw [← found] at member
    simpa using (List.mem_filter.mp member).2
  rw [found, List.flatMap_cons, same first List.mem_cons_self]
  apply Distinct.eraseDups_append_of_subset
  intro declaration member
  rcases List.mem_flatMap.mp member with ⟨name, isOther, declared⟩
  exact same name (List.mem_cons_of_mem first isOther) ▸ declared

theorem addedUnder_eq_nil_iff_of_mem {config : Config} {names : List Text} {className : Text}
    (seen : className ∈ names) :
    StyleStore.addedUnder (config.keyOf className) (config.additionsOf names) = [] ↔
      config.declarationsOf className = [] := by
  rw [← Distinct.eraseDups_eq_nil_iff, eraseDups_addedUnder_additionsOf seen,
    Distinct.eraseDups_eq_nil_iff]

theorem addedUnder_additionsOf_eq_nil {config : Config} {names : List Text} {key : RuleKey}
    (notKey : ∀ name ∈ names, config.keyOf name ≠ key) :
    StyleStore.addedUnder key (config.additionsOf names) = [] := by
  apply List.flatMap_eq_nil_iff.mpr
  intro addition kept
  rcases List.mem_filter.mp kept with ⟨isAddition, hasKey⟩
  rcases List.mem_map.mp isAddition with ⟨name, member, rfl⟩
  exact absurd (by simpa using hasKey) (notKey name member)

theorem isFor_keyOf (config : Config) (className : Text) :
    (config.keyOf className).IsFor className :=
  config.isFor_ruleKey className _

theorem get?_additionsOf_of_isFor (config : Config) (names : List Text) {className : Text}
    {key : RuleKey} (isFor : key.IsFor className) :
    (StyleStore.addAll ∅ (config.additionsOf names)).get? key =
      if key = config.keyOf className ∧ className ∈ names ∧
          config.declarationsOf className ≠ [] then
        some (OrderedSet.ofList (config.declarationsOf className))
      else none := by
  rw [StyleStore.get?_addAll_empty]
  by_cases isKey : key = config.keyOf className
  · subst key
    by_cases seen : className ∈ names
    · rw [OrderedSet.ofList_eq_of_eraseDups_eq (eraseDups_addedUnder_additionsOf seen)]
      by_cases empty : config.declarationsOf className = []
      · simp [addedUnder_eq_nil_iff_of_mem seen, empty]
      · simp [addedUnder_eq_nil_iff_of_mem seen, empty, seen]
    · have noName : (names.filter fun name => name = className) = [] := by
        apply List.filter_eq_nil_iff.mpr
        intro name member
        simpa using fun same : name = className => seen (same ▸ member)
      simp [addedUnder_additionsOf, noName, seen]
  · have notKey : ∀ name ∈ names, config.keyOf name ≠ key := by
      rintro name _ rfl
      exact isKey (isFor.unique (config.isFor_keyOf name) ▸ rfl)
    simp [addedUnder_additionsOf_eq_nil notKey, isKey]

/-- What a store holds after class names were processed into it. -/
theorem listing_additionsOf (config : Config) (names : List Text) :
    (StyleStore.addAll ∅ (config.additionsOf names)).listing =
      (config.styled names).eraseDups.map fun className =>
        (config.keyOf className, (config.declarationsOf className).eraseDups) := by
  rw [StyleStore.listing_addAll_empty, touchedKeys_additionsOf,
    Distinct.eraseDups_map _ fun _ _ => keyOf_injective, List.map_map]
  apply List.map_congr_left
  intro className member
  have seen : className ∈ names := (List.mem_filter.mp (List.mem_eraseDups.mp member)).1
  simp [eraseDups_addedUnder_additionsOf seen]

end Config

namespace Engine

/-- What can be asked of an engine. -/
inductive Step where
  | process (classList : Text)
  | processReserved
  | reset
  deriving DecidableEq

def perform (engine : Engine) : Step → Engine
  | .process classList => engine.process classList
  | .processReserved => engine.processReserved
  | .reset => engine.reset

def run (engine : Engine) (steps : List Step) : Engine :=
  steps.foldl perform engine

/-- The class names seen since the last reset, when `names` had been seen before a step. -/
def namesAfter (config : Config) (names : List Text) : Step → List Text
  | .process classList => names ++ Text.words classList
  | .processReserved => names ++ config.reservedNames
  | .reset => []

/-- The class names that an engine saw in a run since it was started or last reset. -/
def namesSeen (config : Config) (steps : List Step) : List Text :=
  steps.foldl (namesAfter config) config.reservedNames

/-- A class name that was seen is a word of some class list. -/
theorem isWord_of_mem_namesSeen {config : Config} {steps : List Step} {className : Text}
    (member : className ∈ namesSeen config steps) :
    ∃ classList, className ∈ Text.words classList := by
  induction steps using List.reverseRecOn with
  | nil => exact config.isWord_of_mem_reservedNames member
  | append_singleton steps step ih =>
      rw [namesSeen, List.foldl_append] at member
      cases step with
      | process classList =>
          rcases List.mem_append.mp member with before | isWord
          · exact ih before
          · exact ⟨classList, isWord⟩
      | processReserved =>
          rcases List.mem_append.mp member with before | isReserved
          · exact ih before
          · exact config.isWord_of_mem_reservedNames isReserved
      | reset => cases member

theorem noBlank_of_mem_namesSeen {config : Config} {steps : List Step} {className : Text}
    (member : className ∈ namesSeen config steps) : ∀ c ∈ className, isBlank c = false := by
  rcases isWord_of_mem_namesSeen member with ⟨classList, isWord⟩
  exact (Text.noBlank_of_mem_words isWord).2

/-- The state of an engine is what the class names seen make of its configuration. -/
structure Reflects (config : Config) (names : List Text) (engine : Engine) : Prop where
  config_eq : engine.config = config
  grammar_eq : engine.grammar = Grammar.ofTypes config.property.keys
  styles_eq : engine.styles = StyleStore.addAll ∅ (config.additionsOf names)
  diagnostics_eq : engine.diagnostics = names.flatMap config.warningsOf

theorem reflects_fresh (config : Config) : Reflects config [] (fresh config) :=
  ⟨rfl, rfl, rfl, rfl⟩

namespace Reflects

variable {config : Config} {names : List Text} {engine : Engine}

theorem processName (reflects : Reflects config names engine) (className : Text) :
    Reflects config (names ++ [className]) (engine.processName className) := by
  have resolved : Resolution.ofName engine.config engine.grammar className =
      config.resolution className := by
    rw [reflects.config_eq, reflects.grammar_eq, Config.resolution]
  refine ⟨reflects.config_eq, reflects.grammar_eq, ?_, ?_⟩
  · have more : config.additionsOf (names ++ [className]) =
        config.additionsOf names ++
          [(config.keyOf className, config.declarationsOf className)] := by
      simp [Config.additionsOf]
    rw [more, StyleStore.addAll_concat, ← reflects.styles_eq]
    simp only [Engine.processName, resolved, Config.keyOf, Config.declarationsOf]
    rw [reflects.config_eq]
  · simp only [Engine.processName, resolved, reflects.diagnostics_eq, List.flatMap_append]
    simp [Config.warningsOf]

theorem foldl_processName (reflects : Reflects config names engine) (more : List Text) :
    Reflects config (names ++ more) (more.foldl Engine.processName engine) := by
  induction more generalizing names engine with
  | nil => simpa using reflects
  | cons className more ih => simpa using ih (reflects.processName className)

theorem process (reflects : Reflects config names engine) (classList : Text) :
    Reflects config (names ++ Text.words classList) (engine.process classList) :=
  reflects.foldl_processName (Text.words classList)

theorem processReserved (reflects : Reflects config names engine) :
    Reflects config (names ++ config.reservedNames) engine.processReserved := by
  have words : Text.words (Text.join [' '] engine.config.reserved) = config.reservedNames := by
    rw [Text.words_join_space, reflects.config_eq, Config.reservedNames]
  have processed := reflects.process (Text.join [' '] engine.config.reserved)
  rwa [words] at processed

theorem reset (reflects : Reflects config names engine) : Reflects config [] engine.reset :=
  ⟨reflects.config_eq, reflects.grammar_eq, rfl, rfl⟩

/-- One step keeps the invariant for the names that the step leaves seen. -/
theorem perform (reflects : Reflects config names engine) (step : Step) :
    Reflects config (namesAfter config names step) (engine.perform step) := by
  cases step with
  | process classList => exact reflects.process classList
  | processReserved => exact reflects.processReserved
  | reset => exact reflects.reset

/-- A run keeps the invariant. -/
theorem run (reflects : Reflects config names engine) (steps : List Step) :
    Reflects config (steps.foldl (namesAfter config) names) (engine.run steps) := by
  induction steps generalizing names engine with
  | nil => exact reflects
  | cons step steps ih => exact ih (reflects.perform step)

theorem listing_eq (reflects : Reflects config names engine) :
    engine.styles.listing =
      (config.styled names).eraseDups.map fun className =>
        (config.keyOf className, (config.declarationsOf className).eraseDups) := by
  rw [reflects.styles_eq, config.listing_additionsOf]

theorem get?_of_isFor (reflects : Reflects config names engine) {className : Text} {key : RuleKey}
    (isFor : key.IsFor className) :
    engine.styles.get? key =
      if key = config.keyOf className ∧ className ∈ names ∧
          config.declarationsOf className ≠ [] then
        some (OrderedSet.ofList (config.declarationsOf className))
      else none := by
  rw [reflects.styles_eq, config.get?_additionsOf_of_isFor names isFor]

/-- The rule of a class name that was seen holds the declarations that the name stands for. -/
theorem get?_keyOf (reflects : Reflects config names engine) {className : Text}
    (seen : className ∈ names) (declared : config.declarationsOf className ≠ []) :
    engine.styles.get? (config.keyOf className) =
      some (OrderedSet.ofList (config.declarationsOf className)) := by
  rw [reflects.get?_of_isFor (config.isFor_keyOf className)]
  exact if_pos ⟨rfl, seen, declared⟩

/-- Processing a single class name adds what the name stands for. -/
theorem process_of_word (reflects : Reflects config names engine) {className : Text}
    (isWord : Text.words className = [className]) :
    (engine.process className).styles =
        engine.styles.add (config.keyOf className) (config.declarationsOf className) ∧
      (engine.process className).diagnostics =
        engine.diagnostics ++ config.warningsOf className := by
  have processed := reflects.process className
  rw [isWord] at processed
  constructor
  · rw [processed.styles_eq, reflects.styles_eq, ← StyleStore.addAll_concat]
    simp [Config.additionsOf]
  · rw [processed.diagnostics_eq, reflects.diagnostics_eq, List.flatMap_append,
      List.flatMap_singleton]

/-- Class names that were seen before change no rule. -/
theorem styles_process_of_seen (reflects : Reflects config names engine) {classList : Text}
    (seen : ∀ className ∈ Text.words classList, className ∈ names) :
    (engine.process classList).styles = engine.styles := by
  apply StyleStore.eq_of_listing_eq
  rw [(reflects.process classList).listing_eq, reflects.listing_eq]
  have styledBefore : ∀ className ∈ config.styled (Text.words classList),
      className ∈ config.styled names := by
    intro className member
    rcases List.mem_filter.mp member with ⟨isWord, nonempty⟩
    exact List.mem_filter.mpr ⟨seen className isWord, nonempty⟩
  have styledTogether : config.styled (names ++ Text.words classList) =
      config.styled names ++ config.styled (Text.words classList) :=
    List.filter_append ..
  rw [styledTogether, Distinct.eraseDups_append_of_subset styledBefore]

end Reflects

theorem start_eq_ok_iff {config : Config} {engine : Engine} :
    start config = .ok engine ↔ config.IsAccepted ∧ (fresh config).processReserved = engine := by
  rw [start, Config.IsAccepted]
  split <;> simp_all

theorem reflects_of_start {config : Config} {engine : Engine}
    (accepted : start config = .ok engine) : Reflects config config.reservedNames engine := by
  rcases start_eq_ok_iff.mp accepted with ⟨_, rfl⟩
  exact (reflects_fresh config).processReserved

theorem reflects_run {config : Config} {engine : Engine} (accepted : start config = .ok engine)
    (steps : List Step) : Reflects config (namesSeen config steps) (engine.run steps) :=
  (reflects_of_start accepted).run steps

/-- What an engine holds after any run, in terms of the class names seen since it was started or
last reset: the rules, their number, the warnings, and that names seen before change no rule. -/
theorem run_determined_by_namesSeen {config : Config} {engine : Engine}
    (accepted : start config = .ok engine) (steps : List Step) :
    (engine.run steps).styles.listing =
        (config.styled (namesSeen config steps)).eraseDups.map (fun className =>
          (config.keyOf className, (config.declarationsOf className).eraseDups)) ∧
      (engine.run steps).ruleCount =
        (config.styled (namesSeen config steps)).eraseDups.length ∧
      (engine.run steps).diagnostics =
        (namesSeen config steps).flatMap config.warningsOf ∧
      ∀ classList, (∀ className ∈ Text.words classList, className ∈ namesSeen config steps) →
        ((engine.run steps).process classList).styles = (engine.run steps).styles := by
  have reflects := reflects_run accepted steps
  refine ⟨reflects.listing_eq, ?_, reflects.diagnostics_eq, ?_⟩
  · rw [ruleCount, ← StyleStore.length_listing, reflects.listing_eq, List.length_map]
  · intro classList seen
    exact reflects.styles_process_of_seen seen

/-- A run over a small vocabulary: a reserved alias that repeats itself, a scope that names a
breakpoint and one that does not, a failing name that is seen twice, and a reset in between. -/
theorem run_determined_by_namesSeen_sample :
    let steps : List Step := [.process "p-1px".toList, .reset, .processReserved,
      .process "sm:p-1px bg-[{no}] hover:box btn bg-[{no}]".toList]
    let final := (fresh Config.sample).processReserved.run steps
    start Config.sample = .ok (fresh Config.sample).processReserved ∧
      final.styles.listing =
        [(.plain "btn".toList,
            [⟨"padding".toList, "1px".toList⟩, ⟨"background".toList, "#fff".toList⟩]),
          (.media "(max-width: 639px)".toList "sm\\:p-1px".toList,
            [⟨"padding".toList, "1px".toList⟩]),
          (.plain "hover\\:box:hover".toList, [⟨"display".toList, "flex".toList⟩])] ∧
      final.ruleCount = 3 ∧ final.diagnostics.length = 2 := by
  intro steps final
  have accepted : start Config.sample = .ok (fresh Config.sample).processReserved := rfl
  rcases run_determined_by_namesSeen accepted steps with ⟨listing, count, diagnostics, _⟩
  refine ⟨accepted, listing.trans (by decide), count.trans (by decide), ?_⟩
  exact (congrArg List.length diagnostics).trans (by decide)

end Engine

end UtilityCss
