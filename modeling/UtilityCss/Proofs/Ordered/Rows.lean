import Mathlib.Algebra.GroupWithZero.Nat
import Mathlib.Data.List.Basic

/-!
# Rows and the names they give

A list of rows may name a row by different functions, a strict one and a loose one that gives every
name of the strict one and more. As long as no loose name is given twice, both find the same rows.
-/

namespace UtilityCss

namespace Rows

variable {ρ κ α : Type} {rows : List ρ} {loose strict : ρ → Option κ}

theorem filterMap_sublist_filterMap
    (implies : ∀ row ∈ rows, ∀ name, strict row = some name → loose row = some name) :
    (rows.filterMap strict).Sublist (rows.filterMap loose) := by
  induction rows with
  | nil => exact List.Sublist.refl []
  | cons row rows ih =>
      have later := ih fun other member => implies other (List.mem_cons_of_mem row member)
      cases isStrict : strict row with
      | none =>
          rw [List.filterMap_cons_none isStrict]
          apply later.trans
          rw [List.filterMap_cons]
          split
          · exact List.Sublist.refl _
          · exact List.sublist_cons_self _ _
      | some name =>
          have isLoose := implies row List.mem_cons_self name isStrict
          rw [List.filterMap_cons_some isStrict, List.filterMap_cons_some isLoose]
          exact later.cons_cons name

/-- Rows of one name are one row, if no name is given twice. -/
theorem eq_of_nodup_filterMap (distinct : (rows.filterMap loose).Nodup) {row other : ρ} {name : κ}
    (member : row ∈ rows) (memberOther : other ∈ rows) (named : loose row = some name)
    (namedOther : loose other = some name) : row = other := by
  induction rows with
  | nil => cases member
  | cons first rows ih =>
      have notLater : ∀ later ∈ rows, loose first = some name → loose later ≠ some name := by
        intro later inRows isFirst isLater
        rw [List.filterMap_cons_some isFirst, List.nodup_cons] at distinct
        exact distinct.1 (List.mem_filterMap.mpr ⟨later, inRows, isLater⟩)
      have distinctRows : (rows.filterMap loose).Nodup :=
        distinct.sublist ((List.sublist_cons_self first rows).filterMap loose)
      rcases List.mem_cons.mp member with rfl | inRows
      · rcases List.mem_cons.mp memberOther with rfl | otherInRows
        · rfl
        · exact absurd namedOther (notLater other otherInRows named)
      · rcases List.mem_cons.mp memberOther with rfl | otherInRows
        · exact absurd named (notLater row inRows namedOther)
        · exact ih distinctRows inRows otherInRows

variable [DecidableEq κ]

/-- Rows that are sorted by distinct names are the rows that have one of the names. -/
theorem perm_flatMap_filter {name? : ρ → Option κ} {names : List κ} {isNamed : ρ → Bool}
    (distinct : names.Nodup)
    (named : ∀ row ∈ rows, isNamed row = true ↔ ∃ name ∈ names, name? row = some name) :
    (names.flatMap fun name => rows.filter fun row => name? row = some name).Perm
      (rows.filter isNamed) := by
  induction names generalizing isNamed with
  | nil =>
      have noName : rows.filter isNamed = [] := by
        apply List.filter_eq_nil_iff.mpr
        intro row member
        simp [named row member]
      rw [noName]
      exact List.Perm.refl []
  | cons name names ih =>
      rcases List.nodup_cons.mp distinct with ⟨absent, distinctLater⟩
      have ofFirst : (rows.filter isNamed).filter (fun row => name? row = some name) =
          rows.filter fun row => name? row = some name := by
        rw [List.filter_filter]
        apply List.filter_congr
        intro row member
        by_cases isFirst : name? row = some name <;> simp [named row member, isFirst]
      have ofLater : (names.flatMap fun other => rows.filter fun row => name? row = some other).Perm
          ((rows.filter isNamed).filter fun row => !decide (name? row = some name)) := by
        rw [List.filter_filter]
        apply ih distinctLater
        intro row member
        by_cases isFirst : name? row = some name
        · simp [isFirst, absent]
        · simp [named row member, isFirst]
      rw [List.flatMap_cons, ← ofFirst]
      exact (ofLater.append_left _).trans (List.filter_append_perm _ _)

theorem lookup_filterMap [BEq κ] [LawfulBEq κ] (key? : ρ → Option κ) (value : ρ → α) (rows : List ρ) (name : κ) :
    (rows.filterMap fun row => (key? row).map fun key => (key, value row)).lookup name =
      (rows.find? fun row => key? row = some name).map value := by
  induction rows with
  | nil => rfl
  | cons row rows ih =>
      cases isKey : key? row with
      | none => simp [isKey, ih]
      | some key =>
          by_cases same : key = name
          · simp [isKey, same]
          · have different : (name == key) = false := by simpa using Ne.symm same
            simp [isKey, same, List.lookup_cons, different, ih]

theorem find?_eq_of_mem (distinct : (rows.filterMap loose).Nodup) {row : ρ} {name : κ}
    (member : row ∈ rows) (named : loose row = some name) :
    (rows.find? fun row => loose row = some name) = some row := by
  cases found : rows.find? fun row => loose row = some name with
  | none =>
      rw [List.find?_eq_none] at found
      exact absurd named (by simpa using found row member)
  | some other =>
      have namedOther : loose other = some name := by simpa using List.find?_some found
      rw [eq_of_nodup_filterMap distinct (List.mem_of_find?_eq_some found) member namedOther named]

/-- The row that gives a name strictly is the row that gives it at all, or there is none. -/
theorem find?_strict
    (implies : ∀ row ∈ rows, ∀ name, strict row = some name → loose row = some name)
    (distinct : (rows.filterMap loose).Nodup) (name : κ) :
    (rows.find? fun row => strict row = some name) =
      (rows.find? fun row => loose row = some name).filter fun row => strict row = some name := by
  cases found : rows.find? fun row => loose row = some name with
  | none =>
      rw [Option.filter_none, List.find?_eq_none]
      rw [List.find?_eq_none] at found
      intro row member isStrict
      apply found row member
      simpa using implies row member name (by simpa using isStrict)
  | some row =>
      have member := List.mem_of_find?_eq_some found
      have named : loose row = some name := by simpa using List.find?_some found
      by_cases isStrict : strict row = some name
      · rw [Option.filter_some, if_pos (by simpa using isStrict)]
        exact find?_eq_of_mem (distinct.sublist (filterMap_sublist_filterMap implies)) member isStrict
      · rw [Option.filter_some, if_neg (by simpa using isStrict), List.find?_eq_none]
        intro other memberOther isStrictOther
        have strictOther : strict other = some name := by simpa using isStrictOther
        have same := eq_of_nodup_filterMap distinct member memberOther named
          (implies other memberOther name strictOther)
        exact isStrict (same ▸ strictOther)

/-- Rows that are found under distinct names weigh no more than all rows. -/
theorem sum_find?_le (key? : ρ → Option κ) (weight : ρ → Nat) (rows : List ρ) {names : List κ}
    (distinct : names.Nodup) :
    (names.map fun name =>
      ((rows.find? fun row => key? row = some name).map weight).getD 0).sum ≤
        (rows.map weight).sum := by
  induction rows with
  | nil => simp [List.map_const']
  | cons row rows ih =>
      rw [List.map_cons, List.sum_cons]
      apply Nat.le_trans _ (Nat.add_le_add_left ih (weight row))
      clear ih
      induction names with
      | nil => simp
      | cons name names ih =>
          rw [List.nodup_cons] at distinct
          rw [List.map_cons, List.map_cons, List.sum_cons, List.sum_cons]
          by_cases isName : key? row = some name
          · -- no other of the names is found in this row
            have others : ∀ other ∈ names,
                ((((row :: rows).find? fun row => key? row = some other).map weight).getD 0) =
                  (((rows.find? fun row => key? row = some other).map weight).getD 0) := by
              intro other member
              have different : ¬key? row = some other := by
                rintro isOther
                rw [isName, Option.some.injEq] at isOther
                exact distinct.1 (isOther ▸ member)
              rw [List.find?_cons_of_neg (by simpa using different)]
            rw [List.map_congr_left others, List.find?_cons_of_pos (by simpa using isName)]
            simp only [Option.map_some, Option.getD_some]
            omega
          · have later := ih distinct.2
            rw [List.find?_cons_of_neg (by simpa using isName)]
            omega

end Rows

end UtilityCss
