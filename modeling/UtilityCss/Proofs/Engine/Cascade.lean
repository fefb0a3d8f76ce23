import UtilityCss.Proofs.Engine.Run
import UtilityCss.Proofs.Expansion.Failure
import UtilityCss.Proofs.Style.Outline

/-!
# Which value of a property a rule ends with

The last declaration of a property in a rule is the one that applies. A rule keeps each declaration
at its first occurrence, so what its last declaration says is not what was declared last, but what
was declared for the first time last. The two differ when a value comes back after another value of
the property had been declared, as an alias body or a semantic class in several groups can make it.
A shorthand class writes one value only, and there they never differ.
-/

namespace UtilityCss

namespace Declaration

/-- The value of the last declaration of a property. -/
def lastValue? (property : Text) (declarations : List Declaration) : Option Text :=
  ((declarations.filter fun declaration => declaration.property = property).getLast?).map value

/-- No other value of the property is declared for the first time behind the first declaration of
this one. -/
@[mk_iff]
structure IsNewestValue (property value : Text) (declarations : List Declaration) : Prop where
  declared : ⟨property, value⟩ ∈ declarations
  newest : ∀ other ∈ declarations, other.property = property →
    declarations.idxOf other ≤ declarations.idxOf ⟨property, value⟩

variable {property value : Text} {declarations : List Declaration}

theorem lastValue?_eq_some_iff :
    lastValue? property declarations = some value ↔
      (declarations.filter fun declaration => declaration.property = property).getLast? =
        some ⟨property, value⟩ := by
  rw [lastValue?, Option.map_eq_some_iff]
  constructor
  · rintro ⟨last, isLast, rfl⟩
    have hasProperty : last.property = property := by
      simpa using (List.mem_filter.mp (List.mem_of_getLast? isLast)).2
    rw [isLast, ← hasProperty]
  · intro isLast
    exact ⟨_, isLast, rfl⟩

theorem mem_of_lastValue? (last : lastValue? property declarations = some value) :
    ⟨property, value⟩ ∈ declarations :=
  (List.mem_filter.mp (List.mem_of_getLast? (lastValue?_eq_some_iff.mp last))).1

theorem lastValue?_eq_none_iff :
    lastValue? property declarations = none ↔ ∀ value, ⟨property, value⟩ ∉ declarations := by
  rw [lastValue?, Option.map_eq_none_iff, List.getLast?_eq_none_iff, List.filter_eq_nil_iff]
  constructor
  · intro absent value member
    simpa using absent _ member
  · rintro absent ⟨other, value⟩ member
    simp only [decide_eq_true_eq]
    rintro rfl
    exact absent value member

/-- Without repeats, a property ends with its newest value. -/
theorem lastValue?_eraseDups :
    lastValue? property declarations.eraseDups = some value ↔
      IsNewestValue property value declarations := by
  rw [lastValue?_eq_some_iff, Distinct.getLast?_filter_eraseDups, isNewestValue_iff]
  simp only [decide_eq_true_eq, and_true]

/-- Leaving out repeats keeps the last value of a property exactly when that is its newest value. -/
theorem lastValue?_eraseDups_eq_iff :
    lastValue? property declarations.eraseDups = lastValue? property declarations ↔
      ∀ value, lastValue? property declarations = some value →
        IsNewestValue property value declarations := by
  constructor
  · intro same value last
    exact lastValue?_eraseDups.mp (same.trans last)
  · intro newest
    cases last : lastValue? property declarations with
    | none =>
        simp only [lastValue?_eq_none_iff, List.mem_eraseDups] at last ⊢
        exact last
    | some value => exact lastValue?_eraseDups.mpr (newest value last)

theorem IsNewestValue.of_single {single : Text}
    (same : ∀ declaration ∈ declarations, declaration.value = single)
    (declared : ⟨property, value⟩ ∈ declarations) : IsNewestValue property value declarations where
  declared := declared
  newest := by
    rintro ⟨other, held⟩ isOther sameProperty
    have equal : held = value := (same _ isOther).trans (same _ declared).symm
    obtain rfl : other = property := sameProperty
    rw [equal]

end Declaration

/-! ## Shorthand classes -/

namespace Shorthand

theorem exists_value_of_entryDeclarations {config : Config} {entry : PropertyEntry}
    {secondary : Option Quantity} {value : Text} {declarations : List Declaration}
    (declared : entryDeclarations config entry secondary value = .ok declarations) :
    ∃ single, ∀ declaration ∈ declarations, declaration.value = single := by
  cases entry with
  | simple property =>
      cases declared
      exact ⟨value, by simp⟩
  | templated properties template =>
      rcases map_eq_ok_iff.mp declared with ⟨second, _, rfl⟩
      exact ⟨Template.fill template value second, by simp⟩

/-- A shorthand class gives all its properties the same value. -/
theorem exists_value_of_resolve {config : Config} {token : ClassToken} {result : Shorthand}
    (resolved : resolve config token = .ok (some result)) :
    ∃ single, ∀ declaration ∈ result.declarations, declaration.value = single := by
  rw [resolve] at resolved
  split at resolved
  · rcases map_eq_ok_iff.mp resolved with ⟨value, _, isResult⟩
    cases isResult
    refine ⟨value, fun declaration listed => ?_⟩
    rcases List.mem_map.mp listed with ⟨property, _, rfl⟩
    rfl
  · split at resolved
    · cases resolved
    · rcases exists_of_bind_eq_ok resolved with ⟨value, _, mapped⟩
      rcases map_eq_ok_iff.mp mapped with ⟨declarations, declared, isResult⟩
      cases isResult
      exact exists_value_of_entryDeclarations declared

end Shorthand

theorem Expansion.exists_value_ofShorthand (config : Config) (grammar : Grammar) (name : Text) :
    ∃ single, ∀ declaration ∈ (ofShorthand config grammar name).declarations,
      declaration.value = single := by
  rw [ofShorthand]
  split
  · exact ⟨[], by simp [empty]⟩
  · split
    · rename_i resolved
      exact Shorthand.exists_value_of_resolve resolved
    · exact ⟨[], by simp [empty]⟩
    · exact ⟨[], by simp⟩

/-- A class name that is neither an alias nor a semantic class stands for a single value. -/
theorem Config.exists_value_declarationsOf {config : Config} {className : Text}
    (noAlias : config.aliases.get? (Resolution.splitScope className).2 = none)
    (noClass : config.customClass? (Resolution.splitScope className).2 = none) :
    ∃ single, ∀ declaration ∈ config.declarationsOf className, declaration.value = single := by
  rw [declarationsOf, resolution_of_unnamed noAlias noClass]
  exact Expansion.exists_value_ofShorthand config config.grammar className

/-! ## Rules of an engine -/

namespace Engine

open Declaration (lastValue? IsNewestValue)

/-- The rule of a class name, however often and among whatever other names the class name was seen.
It is written in the stylesheet, declares what the class name stands for, and ends with the newest
value of each property. That is the value declared last unless another one was declared for the
first time after the first declaration of that value. For a class name that is neither an alias nor
a semantic class it always is. -/
theorem lastValue?_of_rule {config : Config} {engine : Engine}
    (accepted : start config = .ok engine) (steps : List Step) {className : Text}
    (seen : className ∈ namesSeen config steps)
    (styled : config.declarationsOf className ≠ []) :
    let declared := config.declarationsOf className
    let bare := (Resolution.splitScope className).2
    ∃ rule, (engine.run steps).styles.get? (config.keyOf className) = some rule ∧
      Stylesheet.Outline.writeRule ((config.keyOf className).selector, rule) <:+:
        (engine.run steps).stylesheet ∧
      (∀ declaration, declaration ∈ rule.toList ↔ declaration ∈ declared) ∧
      (∀ property value, lastValue? property rule.toList = some value ↔
        IsNewestValue property value declared) ∧
      (∀ property, lastValue? property rule.toList = lastValue? property declared ↔
        ∀ value, lastValue? property declared = some value →
          IsNewestValue property value declared) ∧
      (config.aliases.get? bare = none → config.customClass? bare = none →
        ∀ property, lastValue? property rule.toList = lastValue? property declared) := by
  intro declared bare
  have stored := (reflects_run accepted steps).get?_keyOf seen styled
  have held : (OrderedSet.ofList declared).toList = declared.eraseDups :=
    OrderedSet.toList_ofList declared
  refine ⟨OrderedSet.ofList declared, stored, ?_, ?_⟩
  · exact Stylesheet.writeRule_isInfix_render (OrderedMap.get?_eq_some_iff.mp stored)
  rw [held]
  refine ⟨fun _ => List.mem_eraseDups, fun _ _ => Declaration.lastValue?_eraseDups,
    fun _ => Declaration.lastValue?_eraseDups_eq_iff, ?_⟩
  intro noAlias noClass property
  rcases Config.exists_value_declarationsOf noAlias noClass with ⟨single, same⟩
  apply Declaration.lastValue?_eraseDups_eq_iff.mpr
  intro value last
  exact .of_single same (Declaration.mem_of_lastValue? last)

/-- An alias that ends as it begins: its rule ends with the value in between, also when the class
name is seen again behind another one. -/
theorem lastValue?_of_rule_sample :
    let config := (Config.empty.withProperty "p".toList (.simple "padding".toList)).withAlias
      "btn".toList "p-1px p-2px p-1px".toList
    let engine := (fresh config).processReserved
    let final := engine.run [.process "btn p-3px btn".toList]
    start config = .ok engine ∧
      ∃ rule, final.styles.get? (config.keyOf "btn".toList) = some rule ∧
        lastValue? "padding".toList rule.toList = some "2px".toList := by
  intro config engine final
  have accepted : start config = .ok engine := rfl
  have seen : "btn".toList ∈ namesSeen config [.process "btn p-3px btn".toList] := by decide
  have styled : config.declarationsOf "btn".toList ≠ [] := by decide
  rcases lastValue?_of_rule accepted _ seen styled with ⟨rule, stored, _, _, ends, _⟩
  exact ⟨accepted, rule, stored, (ends _ _).mpr ⟨by decide, by decide⟩⟩

/-- A value that comes back after another one is declared last, but the rule ends with the other. -/
theorem returning_value_overtaken :
    let config := (Config.empty.withProperty "p".toList (.simple "padding".toList)).withAlias
      "btn".toList "p-1px p-2px p-1px".toList
    let after := (fresh config).processReserved.process "btn".toList
    start config = .ok (fresh config).processReserved ∧
      after.stylesheet = ".btn \x7b padding: 1px; padding: 2px; \x7d\n".toList ∧
      ∃ rule, after.styles.get? (config.keyOf "btn".toList) = some rule ∧
        lastValue? "padding".toList rule.toList = some "2px".toList ∧
        lastValue? "padding".toList (config.declarationsOf "btn".toList) = some "1px".toList :=
  ⟨rfl, by decide, .ofList [⟨"padding".toList, "1px".toList⟩, ⟨"padding".toList, "2px".toList⟩],
    by decide, by decide, by decide⟩

end Engine

end UtilityCss
