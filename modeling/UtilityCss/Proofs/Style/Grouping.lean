import UtilityCss.Proofs.Ordered.Rows
import UtilityCss.Proofs.Style.Outline

/-!
# The entries of a store in its stylesheet

A stylesheet sorts the entries of a store by where they stand: first those outside media queries,
then those of each condition in a block of their own. Sorting keeps the order of the entries that
stand together, and no entry is lost or written twice, however the entries of the store alternate.
-/

namespace UtilityCss

namespace Stylesheet

/-- Entries that are sorted by where they stand are the entries again, each of them once. -/
theorem perm_standingAt (entries : List Entry) :
    (standingAt none entries ++ (conditionsOf entries).toList.flatMap fun condition =>
      standingAt (some condition) entries).Perm entries := by
  have underSome : ∀ entry ∈ entries,
      (!decide (entry.1.condition? = none)) = true ↔
        ∃ condition ∈ (conditionsOf entries).toList, entry.1.condition? = some condition := by
    rintro ⟨key, declarations⟩ isEntry
    cases key with
    | plain selector => simp
    | media condition selector =>
        have isUsed : condition ∈ (conditionsOf entries).toList := by
          rw [conditionsOf, OrderedSet.mem_ofList, List.mem_filterMap]
          exact ⟨_, isEntry, rfl⟩
        simpa using isUsed
  have sorted := Rows.perm_flatMap_filter (conditionsOf entries).distinct underSome
  exact (sorted.append_left _).trans (List.filter_append_perm _ entries)

/-- The stylesheet of any store. It lists the entries outside media queries in the order of the
store, and then one block for each condition, in the order in which the conditions first occur,
with the entries of that condition in the order of the store. So it writes every entry of the store
once, and as many rules as the store has keys. -/
theorem render_groups_entries (store : StyleStore) :
    let outside := store.entries.filter fun entry => entry.1.condition? = none
    let under := fun condition =>
      store.entries.filter fun entry => entry.1.condition? = some condition
    let conditions := (store.keys.filterMap RuleKey.condition?).eraseDups
    render store =
        (outside.map ruleOf).flatMap Outline.writeRule ++
          conditions.flatMap (fun condition =>
            Outline.writeBlock (condition, (under condition).map ruleOf)) ∧
      (outside ++ conditions.flatMap under).Perm store.entries ∧
      outside.length + (conditions.map fun condition => (under condition).length).sum =
        store.keys.length := by
  intro outside under conditions
  have used : Stylesheet.conditions store = conditions := by
    rw [Stylesheet.conditions, OrderedSet.toList_ofList]
  have perm : (outside ++ conditions.flatMap under).Perm store.entries := by
    rw [← used, conditions_eq]
    exact perm_standingAt store.entries
  refine ⟨?_, perm, ?_⟩
  · rw [render_eq_render_outline, Outline.render, Outline.ofStore, List.flatMap_map, used,
      plainRules_eq]
    simp only [rulesUnder_eq]
    rfl
  · rw [← List.length_flatMap, ← List.length_append, perm.length_eq, OrderedMap.keys,
      List.length_map]

end Stylesheet

end UtilityCss
