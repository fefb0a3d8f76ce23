import Mathlib
import UtilityCss.Proofs.Text.Character
import UtilityCss.Proofs.Text.Cutting
import UtilityCss.Style.PropertyName

/-!
# Camel case and hyphens

The hyphenated form of a name that is not a custom property holds no capital, and a name without
capitals is its own hyphenated form; so hyphenating a second time changes nothing.

A name in camel case is taken apart at its capitals. Its first word ends where the first capital
stands, so it is a vendor name only when it is one as a whole: `opacity` and `msx` begin like vendor
names and are none.
-/

namespace UtilityCss

namespace PropertyName

variable {name first second rest other : Text}

/-! ## Names without capitals -/

/-- The text holds no capital of ASCII. -/
def NoUpper (text : Text) : Prop :=
  ∀ c ∈ text, c.isUpper = false

theorem noUpper_of_mem_vendors {vendor : Text} (isVendor : vendor ∈ vendors) : NoUpper vendor := by
  have small : ∀ vendor ∈ vendors, vendor.any Char.isUpper = false := by decide
  exact Text.eq_false_of_any (small vendor isVendor)

theorem noUpper_hyphenate (c : Char) : NoUpper (hyphenate c) := by
  intro d member
  rw [hyphenate] at member
  split at member
  · have cases : d = '-' ∨ d = c.toLower := by simpa using member
    rcases cases with rfl | rfl
    · decide
    · exact c.isUpper_toLower_eq_false
  · rename_i noUpper
    rw [List.mem_singleton.mp member]
    simpa using noUpper

theorem noUpper_flatMap_hyphenate (text : Text) : NoUpper (text.flatMap hyphenate) := by
  intro d member
  rcases List.mem_flatMap.mp member with ⟨c, _, inHyphenated⟩
  exact noUpper_hyphenate c d inHyphenated

theorem flatMap_hyphenate_of_noUpper (noUpper : NoUpper name) : name.flatMap hyphenate = name := by
  induction name with
  | nil => rfl
  | cons c name ih =>
      have small : hyphenate c = [c] := by simp [hyphenate, noUpper c List.mem_cons_self]
      have later : name.flatMap hyphenate = name :=
        ih fun d member => noUpper d (List.mem_cons_of_mem c member)
      rw [List.flatMap_cons, small, later, List.singleton_append]

theorem startsUpper_iff :
    startsUpper rest = true ↔ ∃ c more, rest = c :: more ∧ c.isUpper = true := by
  cases rest with
  | nil => simp [startsUpper]
  | cons c more => simp [startsUpper]

theorem splitVendor?_sound (split : splitVendor? name = some (first, rest)) :
    first ∈ vendors ∧ name = first ++ rest ∧ startsUpper rest = true := by
  rcases List.exists_of_findSome?_eq_some split with ⟨vendor, isVendor, attempt⟩
  split at attempt
  · rename_i behind isAfter
    split at attempt
    · rename_i capital
      cases attempt
      exact ⟨isVendor, Text.after?_eq_some_iff.mp isAfter, capital⟩
    · cases attempt
  · cases attempt

theorem kebabCase_of_custom (custom : ['-', '-'] <+: name) : kebabCase name = name := by
  rw [kebabCase, if_pos (List.isPrefixOf_iff_prefix.mpr custom)]

theorem kebabCase_of_noUpper (noUpper : NoUpper name) : kebabCase name = name := by
  by_cases custom : ['-', '-'] <+: name
  · exact kebabCase_of_custom custom
  · have noVendor : splitVendor? name = none := by
      apply Option.eq_none_iff_forall_ne_some.mpr
      rintro ⟨vendor, rest⟩ split
      rcases splitVendor?_sound split with ⟨_, rfl, capital⟩
      rcases startsUpper_iff.mp capital with ⟨c, more, rfl, isUpper⟩
      rw [noUpper c (by simp)] at isUpper
      cases isUpper
    rw [kebabCase, if_neg (mt List.isPrefixOf_iff_prefix.mp custom), noVendor]
    exact flatMap_hyphenate_of_noUpper noUpper

/-- Only custom properties keep capitals. -/
theorem noUpper_kebabCase (noCustom : ¬ ['-', '-'] <+: name) : NoUpper (kebabCase name) := by
  rw [kebabCase, if_neg (mt List.isPrefixOf_iff_prefix.mp noCustom)]
  split
  · rename_i vendor rest split
    have noUpperVendor := noUpper_of_mem_vendors (splitVendor?_sound split).1
    intro c member
    rcases List.mem_append.mp member with isFront | isBehind
    · rcases List.mem_cons.mp isFront with rfl | inVendor
      · decide
      · exact noUpperVendor c inVendor
    · exact noUpper_flatMap_hyphenate rest c isBehind
  · exact noUpper_flatMap_hyphenate name

theorem kebabCase_kebabCase (name : Text) : kebabCase (kebabCase name) = kebabCase name := by
  by_cases custom : ['-', '-'] <+: name
  · rw [kebabCase_of_custom custom, kebabCase_of_custom custom]
  · exact kebabCase_of_noUpper (noUpper_kebabCase custom)

/-! ## Names in camel case -/

/-- A word of small letters and digits of ASCII. -/
structure IsWord (word : Text) : Prop where
  nonempty : word ≠ []
  small : ∀ c ∈ word, c.isLower = true ∨ c.isDigit = true

/-- A word that can follow another one in camel case: it begins with a letter. -/
structure IsLaterWord (word : Text) : Prop extends IsWord word where
  letter : ∀ c ∈ word.head?, c.isLower = true

-- The quantifiers range over all characters, so the instances decide them along the word.
instance (word : Text) : Decidable (IsWord word) :=
  decidable_of_iff (word ≠ [] ∧ (word.all fun c => c.isLower || c.isDigit) = true)
    ⟨fun ⟨nonempty, small⟩ => ⟨nonempty, by simpa using small⟩,
      fun isWord => ⟨isWord.nonempty, by simpa using isWord.small⟩⟩

instance (word : Text) : Decidable (IsLaterWord word) :=
  decidable_of_iff (IsWord word ∧ word.head?.all Char.isLower = true)
    ⟨fun ⟨isWord, letter⟩ => ⟨isWord, (Option.all_eq_true _ _).mp letter⟩,
      fun isLater => ⟨isLater.toIsWord, (Option.all_eq_true _ _).mpr isLater.letter⟩⟩

/-- A word with its first letter written as a capital. -/
def capitalize : Text → Text
  | [] => []
  | c :: rest => c.toUpper :: rest

/-- Words written without separators, all but the first with a capital. -/
def camelCase (first : Text) (later : List Text) : Text :=
  first ++ later.flatMap capitalize

theorem noUpper_of_small {c : Char} (small : c.isLower = true ∨ c.isDigit = true) :
    c.isUpper = false := by
  apply Bool.eq_false_iff.mpr
  intro isUpper
  rcases small with isLower | isDigit
  · exact Char.not_isUpper_of_isLower isLower isUpper
  · have isAlpha : c.isAlpha = true := by simp [Char.isAlpha, isUpper]
    rw [isDigit_of_isAlpha isAlpha] at isDigit
    cases isDigit

theorem IsWord.noUpper (isWord : IsWord name) : NoUpper name :=
  fun c member => noUpper_of_small (isWord.small c member)

/-- A capital with the rest of its word is written as a hyphen and the word. -/
theorem flatMap_hyphenate_capitalize {word : Text} (isLater : IsLaterWord word) :
    (capitalize word).flatMap hyphenate = '-' :: word := by
  rcases List.exists_cons_of_ne_nil isLater.nonempty with ⟨c, rest, rfl⟩
  have isLower : c.isLower = true := isLater.letter c rfl
  have capital : hyphenate c.toUpper = ['-', c] := by
    have isUpper : c.toUpper.isUpper = true := by simp [Char.isAlpha, isLower]
    have noUpper : ¬ c.isUpper = true := Char.not_isUpper_of_isLower isLower
    rw [hyphenate, if_pos isUpper, Char.toLower_toUpper_eq_toLower,
      Char.toLower_eq_of_not_isUpper noUpper]
  have small : NoUpper rest := fun d member => isLater.noUpper d (List.mem_cons_of_mem c member)
  rw [capitalize, List.flatMap_cons, capital, flatMap_hyphenate_of_noUpper small]
  rfl

theorem flatMap_hyphenate_later {later : List Text} (areLater : ∀ word ∈ later, IsLaterWord word) :
    (later.flatMap capitalize).flatMap hyphenate = later.flatMap ('-' :: ·) := by
  rw [List.flatMap_assoc]
  exact List.flatMap_congr fun word member => flatMap_hyphenate_capitalize (areLater word member)

/-- Behind the first word of a name in camel case stands a capital, if anything. -/
theorem isUpper_head?_later {later : List Text} (areLater : ∀ word ∈ later, IsLaterWord word) :
    ∀ c ∈ (later.flatMap capitalize).head?, c.isUpper = true := by
  cases later with
  | nil => simp
  | cons word later =>
      have isLater := areLater word List.mem_cons_self
      rcases List.exists_cons_of_ne_nil isLater.nonempty with ⟨c, rest, rfl⟩
      have isLower : c.isLower = true := isLater.letter c rfl
      simp [capitalize, Char.isAlpha, isLower]

/-- A text without capitals ends where the first capital stands. -/
theorem append_inj_of_noUpper (noUpperFirst : NoUpper first) (noUpperSecond : NoUpper second)
    (capital : ∀ c ∈ rest.head?, c.isUpper = true)
    (otherCapital : ∀ c ∈ other.head?, c.isUpper = true)
    (equal : first ++ rest = second ++ other) : first = second ∧ rest = other := by
  rcases List.append_eq_append_iff.mp equal with ⟨gap, rfl, rfl⟩ | ⟨gap, rfl, rfl⟩
  · cases gap with
    | nil => simp
    | cons c gap =>
        have isUpper : c.isUpper = true := capital c rfl
        rw [noUpperSecond c (by simp)] at isUpper
        cases isUpper
  · cases gap with
    | nil => simp
    | cons c gap =>
        have isUpper : c.isUpper = true := otherCapital c rfl
        rw [noUpperFirst c (by simp)] at isUpper
        cases isUpper

/-- A vendor name is split off exactly when it is all that stands in front of the first capital. -/
theorem splitVendor?_append (noUpper : NoUpper first)
    (capital : ∀ c ∈ rest.head?, c.isUpper = true) :
    splitVendor? (first ++ rest) =
      if rest ≠ [] ∧ first ∈ vendors then some (first, rest) else none := by
  have unique : ∀ vendor behind, splitVendor? (first ++ rest) = some (vendor, behind) →
      rest ≠ [] ∧ first ∈ vendors ∧ (vendor, behind) = (first, rest) := by
    intro vendor behind split
    rcases splitVendor?_sound split with ⟨isVendor, whole, startsBehind⟩
    rcases startsUpper_iff.mp startsBehind with ⟨c, more, rfl, isUpper⟩
    rcases append_inj_of_noUpper noUpper (noUpper_of_mem_vendors isVendor) capital
      (by simpa using isUpper) whole with ⟨rfl, rfl⟩
    exact ⟨List.cons_ne_nil c more, isVendor, rfl⟩
  split
  · rename_i splits
    have isSome : (splitVendor? (first ++ rest)).isSome := by
      rcases List.exists_cons_of_ne_nil splits.1 with ⟨c, more, rfl⟩
      refine List.findSome?_isSome_iff.mpr ⟨first, splits.2, ?_⟩
      simp [Text.after?_eq_some_iff.mpr rfl, startsUpper, capital c rfl]
    rcases Option.isSome_iff_exists.mp isSome with ⟨⟨vendor, behind⟩, split⟩
    rw [split, (unique vendor behind split).2.2]
  · rename_i noSplit
    apply Option.eq_none_iff_forall_ne_some.mpr
    rintro ⟨vendor, behind⟩ split
    have found := unique vendor behind split
    exact noSplit ⟨found.1, found.2.1⟩

theorem splitVendor?_camelCase {later : List Text} (isWord : IsWord first)
    (areLater : ∀ word ∈ later, IsLaterWord word) :
    splitVendor? (camelCase first later) =
      if later ≠ [] ∧ first ∈ vendors then some (first, later.flatMap capitalize) else none := by
  have isEmpty : later.flatMap capitalize = [] ↔ later = [] := by
    constructor
    · intro noLetter
      apply List.eq_nil_iff_forall_not_mem.mpr
      intro word member
      have hyphenated := flatMap_hyphenate_capitalize (areLater word member)
      rw [List.flatMap_eq_nil_iff.mp noLetter word member] at hyphenated
      cases hyphenated
    · rintro rfl
      rfl
  rw [camelCase, splitVendor?_append isWord.noUpper (isUpper_head?_later areLater)]
  simp only [ne_eq, isEmpty]

theorem noCustom_of_isWord (isWord : IsWord first) : ¬ ['-', '-'] <+: first ++ rest := by
  rcases List.exists_cons_of_ne_nil isWord.nonempty with ⟨c, more, rfl⟩
  rintro ⟨behind, whole⟩
  have isHyphen : '-' = c := (List.cons.inj whole).1
  subst c
  exact absurd (isWord.small '-' List.mem_cons_self) (by decide)

/-- Hyphenating takes a name in camel case apart into its words. -/
theorem kebabCase_camelCase {later : List Text} (isWord : IsWord first)
    (areLater : ∀ word ∈ later, IsLaterWord word) :
    kebabCase (camelCase first later) =
      (if later ≠ [] ∧ first ∈ vendors then ['-'] else []) ++ Text.join ['-'] (first :: later) := by
  have noCustom : ¬ ['-', '-'] <+: camelCase first later := noCustom_of_isWord isWord
  rw [kebabCase, if_neg (mt List.isPrefixOf_iff_prefix.mp noCustom),
    splitVendor?_camelCase isWord areLater, Text.join_cons]
  by_cases isVendor : later ≠ [] ∧ first ∈ vendors
  · rw [if_pos isVendor, if_pos isVendor]
    simp [flatMap_hyphenate_later areLater]
  · rw [if_neg isVendor, if_neg isVendor, List.nil_append, camelCase]
    simp only [List.flatMap_append, flatMap_hyphenate_of_noUpper isWord.noUpper,
      flatMap_hyphenate_later areLater]

/-- Hyphenating inverts camel case, with a hyphen in front exactly when a vendor name is followed by
another word; it changes nothing a second time; and only custom properties keep capitals. -/
theorem kebabCase_inverts :
    (∀ first later, IsWord first → (∀ word ∈ later, IsLaterWord word) →
        kebabCase (camelCase first later) =
          (if later ≠ [] ∧ first ∈ vendors then ['-'] else []) ++
            Text.join ['-'] (first :: later)) ∧
      (∀ name, kebabCase (kebabCase name) = kebabCase name) ∧
      ∀ name, (∃ c ∈ kebabCase name, c.isUpper = true) → ['-', '-'] <+: name := by
  refine ⟨fun _ _ => kebabCase_camelCase, kebabCase_kebabCase, ?_⟩
  rintro name ⟨c, member, isUpper⟩
  by_contra noCustom
  rw [noUpper_kebabCase noCustom c member] at isUpper
  cases isUpper

/-- A vendor name, a word that only begins like one, and a custom property. -/
theorem kebabCase_inverts_sample :
    (IsWord "ms".toList ∧ ∀ word ∈ ["grid".toList, "b2".toList], IsLaterWord word) ∧
      kebabCase "msGridB2".toList = "-ms-grid-b2".toList ∧
      kebabCase "msxGridB2".toList = "msx-grid-b2".toList ∧
      kebabCase (kebabCase "-Grid".toList) = kebabCase "-Grid".toList ∧
      (∃ c ∈ kebabCase "--Grid".toList, c.isUpper = true) ∧ ['-', '-'] <+: "--Grid".toList := by
  rcases kebabCase_inverts with ⟨inverts, again, onlyCustom⟩
  have areLater : ∀ word ∈ ["grid".toList, "b2".toList], IsLaterWord word := by decide
  have isVendor := inverts "ms".toList _ (by decide) areLater
  have isNone := inverts "msx".toList _ (by decide) areLater
  have keeps : ∃ c ∈ kebabCase "--Grid".toList, c.isUpper = true := ⟨'G', by decide, by decide⟩
  exact ⟨⟨by decide, areLater⟩, isVendor, isNone, again _, keeps, onlyCustom _ keeps⟩

end PropertyName

end UtilityCss
