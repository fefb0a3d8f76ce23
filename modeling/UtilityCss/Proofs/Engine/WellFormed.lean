import UtilityCss.Proofs.Engine.Run
import UtilityCss.Proofs.Style.Outline

/-!
# Stylesheets of engines are well-formed

Whatever class lists an engine is given, its stylesheet has no empty rule, no empty block and no
media query without a condition, and it says nothing twice where once is enough. Validation is what
makes the conditions nonempty: the condition of a rule is that of a breakpoint of the configuration,
and an accepted configuration has no breakpoint that is open on both sides.
-/

namespace UtilityCss

namespace Config

theorem exists_breakpoint_of_keyOf_eq_media {config : Config} (accepted : config.IsAccepted)
    {className condition selector : Text}
    (isKey : config.keyOf className = .media condition selector) :
    ∃ breakpoint ∈ config.breakpoints,
      breakpoint.IsBounded ∧ condition = breakpoint.mediaCondition := by
  rw [keyOf, ruleKey] at isKey
  cases named : (config.resolution className).scope.bind config.breakpoint? with
  | none =>
      rw [named] at isKey
      cases isKey
  | some breakpoint =>
      rw [named] at isKey
      cases isKey
      rcases Option.bind_eq_some_iff.mp named with ⟨scope, _, found⟩
      have member : breakpoint ∈ config.breakpoints := List.mem_of_find?_eq_some found
      exact ⟨breakpoint, member, accepted.isBounded member, rfl⟩

end Config

namespace Engine

theorem Reflects.exists_keyOf_eq {config : Config} {names : List Text} {engine : Engine}
    (reflects : Reflects config names engine) {key : RuleKey} (member : key ∈ engine.styles.keys) :
    ∃ className, config.keyOf className = key := by
  rw [reflects.styles_eq, StyleStore.keys_addAll_empty, Config.touchedKeys_additionsOf,
    List.mem_eraseDups] at member
  rcases List.mem_map.mp member with ⟨className, _, isKey⟩
  exact ⟨className, isKey⟩

/-- After any run, media rules stand under the nonempty conditions of bounded breakpoints, each key
has one entry, and each entry has at least one declaration and none twice. So the stylesheet is
written from a well-formed outline. -/
theorem run_isWellFormed {config : Config} {engine : Engine}
    (accepted : start config = .ok engine) (steps : List Step) :
    let styles := (engine.run steps).styles
    (∀ condition selector, RuleKey.media condition selector ∈ styles.keys →
        condition ≠ [] ∧ ∃ breakpoint ∈ config.breakpoints,
          breakpoint.IsBounded ∧ condition = breakpoint.mediaCondition) ∧
      (∀ key declarations, (key, declarations) ∈ styles.entries →
        declarations.toList ≠ [] ∧ declarations.toList.Nodup) ∧
      styles.keys.Nodup ∧
      (Stylesheet.Outline.ofStore styles).IsWellFormed ∧
      (engine.run steps).stylesheet = (Stylesheet.Outline.ofStore styles).render := by
  intro styles
  have reflects := reflects_run accepted steps
  have conditions : ∀ condition selector, RuleKey.media condition selector ∈ styles.keys →
      condition ≠ [] ∧ ∃ breakpoint ∈ config.breakpoints,
        breakpoint.IsBounded ∧ condition = breakpoint.mediaCondition := by
    intro condition selector member
    rcases reflects.exists_keyOf_eq member with ⟨className, isKey⟩
    rcases Config.exists_breakpoint_of_keyOf_eq_media (start_eq_ok_iff.mp accepted).1 isKey with
      ⟨breakpoint, isBreakpoint, bounded, rfl⟩
    exact ⟨bounded.mediaCondition_ne_nil, breakpoint, isBreakpoint, bounded, rfl⟩
  have declared : ∀ key declarations, (key, declarations) ∈ styles.entries →
      declarations.toList ≠ [] := by
    intro key declarations member
    rw [show styles = _ from reflects.styles_eq] at member
    exact StyleStore.toList_ne_nil_of_mem_addAll member
  refine ⟨conditions, fun key declarations member => ⟨declared key declarations member,
    declarations.distinct⟩, styles.distinctKeys, ?_, Stylesheet.render_eq_render_outline styles⟩
  exact Stylesheet.isWellFormed_ofStore declared fun condition selector member =>
    (conditions condition selector member).1

/-- Two classes inside one media query give it one block with two rules. -/
theorem run_isWellFormed_sample :
    let final := (fresh Config.sample).processReserved.run
      [.process "sm:p-1px sm:box sm:p-1px".toList]
    let outline := Stylesheet.Outline.ofStore final.styles
    start Config.sample = .ok (fresh Config.sample).processReserved ∧
      outline.blocks.map (fun block => (block.1, block.2.map Prod.fst)) =
        [("(max-width: 639px)".toList, ["sm\\:p-1px".toList, "sm\\:box".toList])] ∧
      outline.IsWellFormed := by
  intro final outline
  have accepted : start Config.sample = .ok (fresh Config.sample).processReserved := rfl
  rcases run_isWellFormed accepted [.process "sm:p-1px sm:box sm:p-1px".toList] with
    ⟨_, _, _, wellFormed, _⟩
  exact ⟨accepted, by decide, wellFormed⟩

end Engine

end UtilityCss
