import Mathlib.Data.List.TakeWhile
import UtilityCss.Text.Basic

/-!
# Cutting texts

A class list is read as its words. A separator cuts a text into two texts that are read on their
own, so the words of joined lists are the words of the lists one after another; and reading words
a second time changes nothing, since a word holds no blank character.

A literal start is cut off a text exactly when the text is the start and what is left, and brackets
are cut off a text that is written between them.
-/

namespace UtilityCss

namespace Text

theorem eq_false_of_any {isMember : Char → Bool} {text : Text}
    (noMember : text.any isMember = false) : ∀ c ∈ text, isMember c = false :=
  fun c member => Bool.eq_false_iff.mpr (List.any_eq_false.mp noMember c member)

theorem bne_of_not_mem {c : Char} {text : Text} (notIn : c ∉ text) :
    ∀ d ∈ text, (d != c) = true := by
  intro d member
  apply bne_iff_ne.mpr
  rintro rfl
  exact notIn member

theorem pieces_ne_nil (isSeparator : Char → Bool) (text : Text) :
    pieces isSeparator text ≠ [] := by
  cases text with
  | nil => simp [pieces]
  | cons c rest =>
      simp only [pieces]
      split
      · simp
      · split <;> simp

/-- A separator cuts a text into two texts with pieces of their own. -/
theorem pieces_append_cons {isSeparator : Char → Bool} {c : Char}
    (separates : isSeparator c = true) (first rest : Text) :
    pieces isSeparator (first ++ c :: rest) =
      pieces isSeparator first ++ pieces isSeparator rest := by
  induction first with
  | nil => simp [pieces, separates]
  | cons d first ih =>
      simp only [List.cons_append, pieces]
      by_cases also : isSeparator d = true
      · simp [also, ih]
      · rcases List.exists_cons_of_ne_nil (pieces_ne_nil isSeparator first) with
          ⟨piece, more, found⟩
        simp [also, ih, found]

theorem pieces_of_noSeparator {isSeparator : Char → Bool} {text : Text}
    (noSeparator : ∀ c ∈ text, isSeparator c = false) : pieces isSeparator text = [text] := by
  induction text with
  | nil => rfl
  | cons c rest ih =>
      have tail : pieces isSeparator rest = [rest] :=
        ih fun d member => noSeparator d (List.mem_cons_of_mem c member)
      simp [pieces, noSeparator c List.mem_cons_self, tail]

theorem noSeparator_of_mem_pieces {isSeparator : Char → Bool} {text piece : Text}
    (member : piece ∈ pieces isSeparator text) : ∀ c ∈ piece, isSeparator c = false := by
  induction text generalizing piece with
  | nil =>
      have empty : piece = [] := by simpa [pieces] using member
      simp [empty]
  | cons c rest ih =>
      rcases List.exists_cons_of_ne_nil (pieces_ne_nil isSeparator rest) with
        ⟨head, more, found⟩
      by_cases separates : isSeparator c = true
      · simp only [pieces, separates, if_true, List.mem_cons] at member
        rcases member with rfl | member
        · simp
        · exact ih member
      · simp only [pieces, separates, Bool.false_eq_true, if_false, found, List.mem_cons] at member
        rcases member with rfl | member
        · intro d inPiece
          rcases List.mem_cons.mp inPiece with rfl | inHead
          · simpa using separates
          · exact ih (found ▸ List.mem_cons_self) d inHead
        · exact ih (found ▸ List.mem_cons_of_mem head member)

@[simp]
theorem words_nil : words [] = [] := rfl

/-- A blank character cuts a text into two texts with words of their own. -/
theorem words_append_cons {c : Char} (blank : isBlank c = true) (first rest : Text) :
    words (first ++ c :: rest) = words first ++ words rest := by
  rw [words, pieces_append_cons blank, List.filter_append]
  rfl

/-- The words of lists joined by spaces are the words of the lists, in order. -/
theorem words_join_space (lists : List Text) : words (join [' '] lists) = lists.flatMap words := by
  induction lists with
  | nil => rfl
  | cons list more ih =>
      cases more with
      | nil => simp [join]
      | cons next rest =>
          have cut : join [' '] (list :: next :: rest) =
              list ++ ' ' :: join [' '] (next :: rest) := by
            simp [join]
          have blank : isBlank ' ' = true := by decide
          rw [cut, words_append_cons blank, ih]
          simp only [List.flatMap_cons]

/-- In joined texts a separator stands in front of every text but the first. -/
theorem join_cons (separator : Char) (first : Text) (more : List Text) :
    join [separator] (first :: more) = first ++ more.flatMap (separator :: ·) := by
  induction more generalizing first with
  | nil => simp [join]
  | cons next rest ih =>
      have cut : join [separator] (first :: next :: rest) =
          first ++ separator :: join [separator] (next :: rest) := by
        simp [join]
      rw [cut, ih, List.flatMap_cons, List.cons_append]

theorem not_mem_join {separator c : Char} {texts : List Text} (other : c ≠ separator)
    (notIn : ∀ text ∈ texts, c ∉ text) : c ∉ join [separator] texts := by
  cases texts with
  | nil => simp [join]
  | cons first more =>
      rw [join_cons]
      simp only [List.mem_append, List.mem_flatMap, List.mem_cons, not_or, not_exists, not_and]
      refine ⟨notIn first List.mem_cons_self, ?_⟩
      intro text later
      exact ⟨other, notIn text (List.mem_cons_of_mem first later)⟩

/-- Texts that hold no separator are the pieces of the texts joined by it. -/
theorem pieces_join {separator : Char} {texts : List Text} (nonempty : texts ≠ [])
    (noSeparator : ∀ text ∈ texts, separator ∉ text) :
    pieces (· == separator) (join [separator] texts) = texts := by
  have single : ∀ text ∈ texts, pieces (· == separator) text = [text] := by
    intro text member
    apply pieces_of_noSeparator
    intro c inText
    apply beq_eq_false_iff_ne.mpr
    rintro rfl
    exact noSeparator text member inText
  induction texts with
  | nil => exact absurd rfl nonempty
  | cons text more ih =>
      cases more with
      | nil => exact single text List.mem_cons_self
      | cons next rest =>
          have cut : pieces (· == separator) (join [separator] (text :: next :: rest)) =
              pieces (· == separator) text ++
                pieces (· == separator) (join [separator] (next :: rest)) := by
            rw [join, List.append_assoc, List.singleton_append]
            · exact pieces_append_cons (by simp) text _
            · exact List.cons_ne_nil next rest
          have later := ih (List.cons_ne_nil next rest)
            (fun other member => noSeparator other (List.mem_cons_of_mem text member))
            (fun other member => single other (List.mem_cons_of_mem text member))
          rw [cut, single text List.mem_cons_self, later]
          rfl

theorem noBlank_of_mem_words {text word : Text} (member : word ∈ words text) :
    word ≠ [] ∧ ∀ c ∈ word, isBlank c = false := by
  rcases List.mem_filter.mp member with ⟨inPieces, nonempty⟩
  exact ⟨by simpa using nonempty, noSeparator_of_mem_pieces inPieces⟩

theorem words_of_noBlank {text : Text} (nonempty : text ≠ [])
    (noBlank : ∀ c ∈ text, isBlank c = false) : words text = [text] := by
  rw [words, pieces_of_noSeparator noBlank]
  simp [nonempty]

/-- Two texts without blank characters and a character between them are one word. -/
theorem words_append_cons_of_noBlank {first rest : Text} {c : Char} (noBlank : isBlank c = false)
    (noBlankFirst : ∀ d ∈ first, isBlank d = false)
    (noBlankRest : ∀ d ∈ rest, isBlank d = false) :
    words (first ++ c :: rest) = [first ++ c :: rest] := by
  apply words_of_noBlank
  · simp
  · intro d member
    rcases List.mem_append.mp member with inFirst | later
    · exact noBlankFirst d inFirst
    · rcases List.mem_cons.mp later with rfl | inRest
      · exact noBlank
      · exact noBlankRest d inRest

/-- Only blank texts are trimmed to nothing. -/
theorem trim_eq_nil_iff {text : Text} : trim text = [] ↔ isAllBlank text = true := by
  rw [trim, List.reverse_eq_nil_iff, List.dropWhile_eq_nil_iff, isAllBlank, List.all_eq_true]
  constructor
  · intro blankRest c member
    rw [← List.takeWhile_append_dropWhile (p := isBlank) (l := text)] at member
    rcases List.mem_append.mp member with inFront | inRest
    · exact List.mem_takeWhile_imp inFront
    · exact blankRest c (List.mem_reverse.mpr inRest)
  · intro blank c member
    exact blank c ((List.dropWhile_sublist isBlank).subset (List.mem_reverse.mp member))

theorem isBetween_iff {first last : Char} {text : Text} :
    isBetween first last text = true ↔ ∃ inside, text = first :: inside ++ [last] := by
  constructor
  · intro between
    simp only [isBetween, Bool.and_eq_true, decide_eq_true_eq, beq_iff_eq] at between
    rcases between with ⟨⟨atLeastTwo, isFirst⟩, isLast⟩
    rcases List.head?_eq_some_iff.mp isFirst with ⟨rest, rfl⟩
    have nonempty : rest ≠ [] := by
      rintro rfl
      simp at atLeastTwo
    rw [List.getLast?_cons_of_ne_nil nonempty] at isLast
    rcases List.getLast?_eq_some_iff.mp isLast with ⟨inside, rfl⟩
    exact ⟨inside, rfl⟩
  · rintro ⟨inside, rfl⟩
    have isLast : (first :: inside ++ [last]).getLast? = some last := List.getLast?_concat
    rw [isBetween, isLast]
    simp

theorem inner_between (first last : Char) (inside : Text) :
    inner (first :: inside ++ [last]) = inside := by
  simp [inner]

theorem occursIn_iff {part text : Text} : occursIn part text = true ↔ part <:+: text := by
  induction text with
  | nil => simp [occursIn]
  | cons c rest ih => simp [occursIn, ih, List.infix_cons_iff]

theorem after?_eq_some_iff {start text rest : Text} :
    after? start text = some rest ↔ text = start ++ rest := by
  induction start generalizing text with
  | nil => simp [after?]
  | cons c start ih =>
      cases text with
      | nil => simp [after?]
      | cons d text =>
          by_cases same : c = d
          · simp [after?, same, ih]
          · simp [after?, same, Ne.symm same]

end Text

end UtilityCss
