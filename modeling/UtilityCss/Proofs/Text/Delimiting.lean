import UtilityCss.Text.Basic

/-!
# Self-delimiting texts

Items that are written one after another can be read back when each of them tells where it ends. A
list of such items ends where no further item could start. Texts that are built from such lists are
then taken apart from the front, and no reader is needed to see that they determine what they were
written from.
-/

namespace UtilityCss

universe u

namespace Text

/-- A text in front of a character that it does not hold ends there. -/
theorem append_cons_inj_of_not_mem {c : Char} {first second rest other : Text}
    (notFirst : c ∉ first) (notSecond : c ∉ second)
    (equal : first ++ c :: rest = second ++ c :: other) : first = second ∧ rest = other := by
  induction first generalizing second with
  | nil =>
      cases second with
      | nil => exact ⟨rfl, (List.cons.inj equal).2⟩
      | cons d second =>
          have same : c = d := (List.cons.inj equal).1
          exact absurd (same ▸ List.mem_cons_self) notSecond
  | cons d first ih =>
      cases second with
      | nil =>
          have same : d = c := (List.cons.inj equal).1
          exact absurd (same ▸ List.mem_cons_self) notFirst
      | cons e second =>
          rcases List.cons.inj equal with ⟨rfl, later⟩
          have inFirst : c ∉ first := fun member => notFirst (List.mem_cons_of_mem d member)
          have inSecond : c ∉ second := fun member => notSecond (List.mem_cons_of_mem d member)
          rcases ih inFirst inSecond later with ⟨rfl, rests⟩
          exact ⟨rfl, rests⟩

/-- A text behind a character that it does not hold starts there. -/
theorem append_cons_inj_of_not_mem_behind {c : Char} {first second rest other : Text}
    (notRest : c ∉ rest) (notOther : c ∉ other)
    (equal : first ++ c :: rest = second ++ c :: other) : first = second ∧ rest = other := by
  have reversed : rest.reverse ++ c :: first.reverse = other.reverse ++ c :: second.reverse := by
    simpa using congrArg List.reverse equal
  have parts := append_cons_inj_of_not_mem (mt List.mem_reverse.mp notRest)
    (mt List.mem_reverse.mp notOther) reversed
  exact ⟨List.reverse_inj.mp parts.2, List.reverse_inj.mp parts.1⟩

/-- A separator behind the last text makes joining the same as ending each text with it. -/
theorem join_append_separator {separator : Text} {texts : List Text} (nonempty : texts ≠ []) :
    join separator texts ++ separator = texts.flatMap (· ++ separator) := by
  induction texts with
  | nil => exact absurd rfl nonempty
  | cons text more ih =>
      cases more with
      | nil => simp [join]
      | cons next rest =>
          rw [List.flatMap_cons, ← ih (by simp)]
          simp [join]

variable {α : Type u}

/-- A written item and the text behind it are determined by the two together. -/
def IsSelfDelimiting (IsItem : α → Prop) (write : α → Text) : Prop :=
  ∀ first second rest other, IsItem first → IsItem second →
    write first ++ rest = write second ++ other → first = second ∧ rest = other

/-- Written items and the text behind the last one are determined by all of it together, if no item
starts what may stand behind. -/
theorem IsSelfDelimiting.flatMap_append_inj {IsItem : α → Prop} {write : α → Text}
    (delimiting : IsSelfDelimiting IsItem write) (Ends : Text → Prop)
    (noItem : ∀ item, IsItem item → ∀ rest, ¬ Ends (write item ++ rest))
    {first second : List α} {tail other : Text} (areItems : ∀ item ∈ first, IsItem item)
    (alsoItems : ∀ item ∈ second, IsItem item) (tailEnds : Ends tail) (otherEnds : Ends other)
    (equal : first.flatMap write ++ tail = second.flatMap write ++ other) :
    first = second ∧ tail = other := by
  induction first generalizing second with
  | nil =>
      cases second with
      | nil => exact ⟨rfl, equal⟩
      | cons item second =>
          rw [List.flatMap_nil, List.nil_append, List.flatMap_cons, List.append_assoc] at equal
          rw [equal] at tailEnds
          exact absurd tailEnds (noItem item (alsoItems item List.mem_cons_self) _)
  | cons item first ih =>
      have isItem : IsItem item := areItems item List.mem_cons_self
      rw [List.flatMap_cons, List.append_assoc] at equal
      cases second with
      | nil =>
          rw [List.flatMap_nil, List.nil_append] at equal
          rw [← equal] at otherEnds
          exact absurd otherEnds (noItem item isItem _)
      | cons next second =>
          rw [List.flatMap_cons, List.append_assoc] at equal
          rcases delimiting item next _ _ isItem (alsoItems next List.mem_cons_self) equal with
            ⟨rfl, later⟩
          rcases ih (fun item member => areItems item (List.mem_cons_of_mem _ member))
            (fun item member => alsoItems item (List.mem_cons_of_mem _ member)) later with
            ⟨rfl, tails⟩
          exact ⟨rfl, tails⟩

end Text

end UtilityCss
