import Mathlib.Data.List.Basic
import Mathlib.Data.List.Induction
import UtilityCss.Ordered.Set

/-!
# First occurrences

Inserting the members of a list into a set keeps each member at its first occurrence. The same
list is what the library calls `List.eraseDups`, so statements about collected declarations speak
of lists without repeats and never of the order in which a set was filled.
-/

namespace UtilityCss

universe u v

namespace Distinct

variable {α : Type u} [BEq α] [LawfulBEq α]

/-- A last member that occurred before leaves the first occurrences alone. -/
theorem eraseDups_concat (members : List α) (last : α) :
    (members ++ [last]).eraseDups =
      if last ∈ members then members.eraseDups else members.eraseDups ++ [last] := by
  rw [List.eraseDups_append, List.cons_removeAll]
  by_cases known : last ∈ members <;> simp [known, List.eraseDups_cons]

theorem eraseDups_append_of_subset {members more : List α}
    (known : ∀ member ∈ more, member ∈ members) :
    (members ++ more).eraseDups = members.eraseDups := by
  have nothingNew : more.removeAll members = [] := by
    simpa [List.removeAll] using known
  simp [List.eraseDups_append, nothingNew]

/-- A function that keeps members apart maps first occurrences to first occurrences. -/
theorem eraseDups_map {β : Type v} [BEq β] [LawfulBEq β] {f : α → β} (members : List α)
    (apart : ∀ first second, f first = f second → first = second) :
    (members.map f).eraseDups = members.eraseDups.map f := by
  induction members using List.reverseRecOn with
  | nil => rfl
  | append_singleton members last ih =>
      have occurs : f last ∈ members.map f ↔ last ∈ members := by
        constructor
        · intro image
          rcases List.mem_map.mp image with ⟨member, isMember, equal⟩
          exact apart member last equal ▸ isMember
        · exact List.mem_map_of_mem
      rw [List.map_append, List.map_singleton, eraseDups_concat, eraseDups_concat, ih]
      by_cases known : last ∈ members
      · rw [if_pos known, if_pos (occurs.mpr known)]
      · rw [if_neg known, if_neg (mt occurs.mp known)]
        simp

theorem eraseDups_append_congr {first other : List α} (same : first.eraseDups = other.eraseDups)
    (more : List α) : (first ++ more).eraseDups = (other ++ more).eraseDups := by
  have members : ∀ member, member ∈ first ↔ member ∈ other := by
    intro member
    rw [← List.mem_eraseDups, same, List.mem_eraseDups]
  have nothingElse : more.removeAll first = more.removeAll other := by
    simp [List.removeAll, members]
  rw [List.eraseDups_append, List.eraseDups_append, same, nothingElse]

/-- Repeats that are left out early are left out anyway. -/
theorem eraseDups_append_eraseDups (first second : List α) :
    (first ++ second.eraseDups).eraseDups = (first ++ second).eraseDups := by
  induction second using List.reverseRecOn with
  | nil => rfl
  | append_singleton second last ih =>
      rw [eraseDups_concat second, ← List.append_assoc, eraseDups_concat (first ++ second)]
      by_cases known : last ∈ second
      · rw [if_pos known, if_pos (List.mem_append_right first known), ih]
      · rw [if_neg known, ← List.append_assoc, eraseDups_concat, ih]
        simp only [List.mem_append, List.mem_eraseDups]

theorem eraseDups_flatMap_eraseDups {β : Type v} (members : β → List α) (items : List β) :
    (items.flatMap fun item => (members item).eraseDups).eraseDups =
      (items.flatMap members).eraseDups := by
  induction items using List.reverseRecOn with
  | nil => rfl
  | append_singleton items item ih =>
      simp only [List.flatMap_append, List.flatMap_singleton]
      rw [eraseDups_append_eraseDups, eraseDups_append_congr ih]

/-- Members stand in the order in which they first occur. -/
theorem pairwise_idxOf_eraseDups (members : List α) :
    members.eraseDups.Pairwise fun first second =>
      members.idxOf first < members.idxOf second := by
  induction members using List.reverseRecOn with
  | nil => simp
  | append_singleton members last ih =>
      have isBefore : ∀ member ∈ members.eraseDups, member ∈ members :=
        fun _ => List.mem_eraseDups.mp
      have asBefore : members.eraseDups.Pairwise fun first second =>
          (members ++ [last]).idxOf first < (members ++ [last]).idxOf second := by
        apply ih.imp_of_mem
        intro first second isFirst isSecond earlier
        rwa [List.idxOf_append_of_mem (isBefore first isFirst),
          List.idxOf_append_of_mem (isBefore second isSecond)]
      rw [eraseDups_concat]
      split
      · exact asBefore
      · rename_i isNew
        refine List.pairwise_append.mpr ⟨asBefore, List.pairwise_singleton _ _, ?_⟩
        intro member isMember other isLast
        rw [List.mem_singleton.mp isLast, List.idxOf_append_of_mem (isBefore member isMember),
          List.idxOf_append_of_notMem isNew]
        exact Nat.lt_add_right _ (List.idxOf_lt_length_of_mem (isBefore member isMember))

omit [BEq α] [LawfulBEq α] in
/-- The last of some items in ascending order is the greatest. -/
theorem getLast?_eq_some_iff_of_pairwise {rank : α → Nat} {items : List α}
    (ascending : items.Pairwise fun first second => rank first < rank second) {item : α} :
    items.getLast? = some item ↔ item ∈ items ∧ ∀ other ∈ items, rank other ≤ rank item := by
  rcases List.eq_nil_or_concat items with rfl | ⟨before, last, rfl⟩
  · simp
  · rw [List.concat_eq_append] at ascending ⊢
    have below : ∀ other ∈ before, rank other < rank last :=
      fun other isBefore => (List.pairwise_append.mp ascending).2.2 other isBefore last (by simp)
    rw [List.getLast?_concat, Option.some.injEq]
    constructor
    · rintro rfl
      refine ⟨by simp, fun other member => ?_⟩
      rcases List.mem_append.mp member with isBefore | isLast
      · exact Nat.le_of_lt (below other isBefore)
      · exact Nat.le_of_eq (congrArg rank (List.mem_singleton.mp isLast))
    · rintro ⟨member, greatest⟩
      rcases List.mem_append.mp member with isBefore | isLast
      · exact absurd (greatest last (by simp)) (Nat.not_le_of_lt (below item isBefore))
      · exact (List.mem_singleton.mp isLast).symm

/-- When repeats are left out, the last member of a kind is the one that first occurs behind all
others of the kind. -/
theorem getLast?_filter_eraseDups (kind : α → Bool) {members : List α} {member : α} :
    (members.eraseDups.filter kind).getLast? = some member ↔
      (member ∈ members ∧ kind member = true) ∧
        ∀ other ∈ members, kind other = true → members.idxOf other ≤ members.idxOf member := by
  rw [getLast?_eq_some_iff_of_pairwise ((pairwise_idxOf_eraseDups members).filter kind)]
  simp only [List.mem_filter, List.mem_eraseDups, and_imp]

omit [LawfulBEq α] in
theorem eraseDups_eq_nil_iff {members : List α} : members.eraseDups = [] ↔ members = [] := by
  cases members with
  | nil => simp
  | cons first rest => simp [List.eraseDups_cons]

end Distinct

namespace OrderedSet

variable {α : Type u} [DecidableEq α]

omit [DecidableEq α] in
@[simp]
theorem toList_empty : (∅ : OrderedSet α).toList = [] := rfl

omit [DecidableEq α] in
theorem eq_of_toList_eq {first second : OrderedSet α} (equal : first.toList = second.toList) :
    first = second := by
  cases first
  cases second
  simpa using equal

theorem toList_insert (set : OrderedSet α) (member : α) :
    (set.insert member).toList =
      if member ∈ set.toList then set.toList else set.toList ++ [member] := by
  rw [insert]
  split <;> rfl

@[simp]
theorem insertAll_ofList (first second : List α) :
    (ofList first).insertAll second = ofList (first ++ second) := by
  simp [ofList, insertAll]

@[simp]
theorem insertAll_empty (members : List α) :
    (∅ : OrderedSet α).insertAll members = ofList members := rfl

theorem ofList_concat (members : List α) (last : α) :
    ofList (members ++ [last]) = (ofList members).insert last := by
  simp [ofList, insertAll]

/-- A set filled from a list holds the first occurrences of the list. -/
theorem toList_ofList [BEq α] [LawfulBEq α] (members : List α) :
    (ofList members).toList = members.eraseDups := by
  induction members using List.reverseRecOn with
  | nil => rfl
  | append_singleton members last ih =>
      rw [ofList_concat, toList_insert, Distinct.eraseDups_concat, ih]
      by_cases known : last ∈ members <;> simp [known]

theorem mem_ofList {members : List α} {member : α} :
    member ∈ (ofList members).toList ↔ member ∈ members := by
  rw [toList_ofList, List.mem_eraseDups]

theorem ofList_singleton_inj {first second : α} :
    ofList [first] = ofList [second] ↔ first = second := by
  constructor
  · intro equal
    have members := congrArg toList equal
    rw [toList_ofList, toList_ofList] at members
    simpa [List.eraseDups_cons] using members
  · rintro rfl
    rfl

theorem ofList_eq_of_eraseDups_eq {first second : List α}
    (equal : first.eraseDups = second.eraseDups) : ofList first = ofList second := by
  apply eq_of_toList_eq
  rw [toList_ofList, toList_ofList, equal]

end OrderedSet

end UtilityCss
