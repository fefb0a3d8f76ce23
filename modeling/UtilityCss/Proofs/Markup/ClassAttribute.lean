import UtilityCss.Markup.ClassAttribute
import UtilityCss.Proofs.Text.Cutting

/-!
# Reading class attributes back

A source is written as class attributes with fillers between them. Reading it gives the values of
the attributes in order, whatever the values hold: an attribute is cut off as a whole, so no part
of a value is looked at again, and a filler hides no attribute, since a name that began in it would
have to run over the boundary at its end.
-/

namespace UtilityCss

namespace ClassAttribute

/-! ## Attributes as they are written -/

/-- Blank characters, or none. -/
abbrev Blanks :=
  { blanks : Text // Text.isAllBlank blanks = true }

inductive Quote where
  | double
  | single
  | grave
  deriving DecidableEq

def Quote.mark : Quote → Char
  | double => '"'
  | single => '\''
  | grave => '\x60'

/-- What encloses a value: quotes, or braces around quotes. A template needs braces. -/
inductive Enclosure where
  | quotes (quote : Quote) (noTemplate : quote ≠ .grave)
  | braces (front : Blanks) (quote : Quote) (behind : Blanks)

namespace Enclosure

def quote : Enclosure → Quote
  | quotes quote _ => quote
  | braces _ quote _ => quote

def enclose (enclosure : Enclosure) (value : Text) : Text :=
  let quoted := enclosure.quote.mark :: (value ++ [enclosure.quote.mark])
  match enclosure with
  | quotes _ _ => quoted
  | braces front _ behind => '{' :: (front.1 ++ quoted ++ behind.1 ++ ['}'])

end Enclosure

/-- A class attribute, whose value ends at its own quote only. -/
structure Attribute where
  isClassName : Bool
  beforeEquals : Blanks
  behindEquals : Blanks
  enclosure : Enclosure
  value : Text
  closes : enclosure.quote.mark ∉ value

namespace Attribute

def name (written : Attribute) : Text :=
  if written.isClassName then "className".toList else "class".toList

def text (written : Attribute) : Text :=
  written.name ++ written.beforeEquals.1 ++ ['='] ++ written.behindEquals.1 ++
    written.enclosure.enclose written.value

end Attribute

/-- A source: attributes, each one behind its filler, and a last filler. -/
def source (items : List (Text × Attribute)) (last : Text) : Text :=
  (items.flatMap fun item => item.1 ++ item.2.text) ++ last

/-- A filler that an attribute name may follow. -/
def EndsAtBoundary (filler : Text) : Prop :=
  ∃ start c, filler = start ++ [c] ∧ isBoundary c = true

/-! ## Cutting off an attribute -/

variable {c : Char} {value rest : Text}

theorem skipBlanks_append (blanks : Blanks) (noBlank : isBlank c = false) :
    skipBlanks (blanks.1 ++ c :: rest) = c :: rest := by
  rw [skipBlanks, List.dropWhile_append_of_pos (List.all_eq_true.mp blanks.2)]
  exact List.dropWhile_cons_of_neg (by simp [noBlank])

theorem cutQuoted?_append {quote : Char} (closes : quote ∉ value) :
    cutQuoted? quote (value ++ quote :: rest) = some (value, rest) := by
  have before : ∀ c ∈ value, (c != quote) = true := Text.bne_of_not_mem closes
  rw [cutQuoted?, List.dropWhile_append_of_pos before, List.takeWhile_append_of_pos before]
  simp

theorem cutStringValue?_quoted {quote : Quote} (closes : quote.mark ∉ value) :
    cutStringValue? (quote.mark :: (value ++ quote.mark :: rest)) = some (value, rest) := by
  cases quote with
  | double => exact cutQuoted?_append closes
  | single => exact cutQuoted?_append closes
  | grave => exact cutQuoted?_append closes

theorem noBlank_mark (quote : Quote) : isBlank quote.mark = false := by
  cases quote <;> decide

theorem cutValue?_enclose {enclosure : Enclosure} (closes : enclosure.quote.mark ∉ value) :
    cutValue? (enclosure.enclose value ++ rest) = some (value, rest) := by
  cases enclosure with
  | quotes quote noTemplate =>
      have isText : (Enclosure.quotes quote noTemplate).enclose value ++ rest =
          quote.mark :: (value ++ quote.mark :: rest) := by
        simp [Enclosure.enclose, Enclosure.quote]
      rw [isText]
      cases quote with
      | double => exact cutQuoted?_append closes
      | single => exact cutQuoted?_append closes
      | grave => exact absurd rfl noTemplate
  | braces front quote behind =>
      have isText : (Enclosure.braces front quote behind).enclose value ++ rest =
          '{' :: (front.1 ++ quote.mark ::
            (value ++ quote.mark :: (behind.1 ++ '}' :: rest))) := by
        simp [Enclosure.enclose, Enclosure.quote]
      have closesQuote : quote.mark ∉ value := closes
      have noBlank : isBlank '}' = false := by decide
      rw [isText, cutValue?, skipBlanks_append front (noBlank_mark quote),
        cutStringValue?_quoted closesQuote, Option.bind_some]
      simp only [skipBlanks_append behind noBlank]

theorem skipBlanks_enclose (blanks : Blanks) (enclosure : Enclosure) (value rest : Text) :
    skipBlanks (blanks.1 ++ (enclosure.enclose value ++ rest)) =
      enclosure.enclose value ++ rest := by
  cases enclosure with
  | quotes quote noTemplate => exact skipBlanks_append blanks (noBlank_mark quote)
  | braces front quote behind => exact skipBlanks_append blanks (by decide)

theorem afterName?_name (written : Attribute) (different : c ≠ 'N') :
    afterName? (written.name ++ c :: rest) = some (c :: rest) := by
  rw [Attribute.name]
  split
  · simp [afterName?, Text.after?]
  · simp [afterName?, Text.after?, Ne.symm different]

/-- Blanks and the equals sign do not continue the name. -/
theorem afterName?_equals (written : Attribute) (rest : Text) :
    afterName? (written.name ++ (written.beforeEquals.1 ++ '=' :: rest)) =
      some (written.beforeEquals.1 ++ '=' :: rest) := by
  rcases written.beforeEquals with ⟨_ | ⟨c, blanks⟩, areBlank⟩
  · exact afterName?_name written (by decide)
  · apply afterName?_name written
    rintro rfl
    have blank := List.all_eq_true.mp areBlank 'N' List.mem_cons_self
    cases blank

/-- A written attribute is cut off with its value, whatever follows. -/
theorem cut?_text (written : Attribute) (rest : Text) :
    cut? (written.text ++ rest) = some (written.value, rest) := by
  have isText : written.text ++ rest =
      written.name ++ (written.beforeEquals.1 ++ '=' ::
        (written.behindEquals.1 ++ (written.enclosure.enclose written.value ++ rest))) := by
    simp [Attribute.text]
  have noBlank : isBlank '=' = false := by decide
  rw [isText, cut?, afterName?_equals, Option.bind_some, skipBlanks_append _ noBlank]
  simp only [skipBlanks_enclose, cutValue?_enclose written.closes]

/-! ## Passing over fillers -/

theorem cut?_eq_none {text : Text} (noName : ¬"class".toList <+: text) : cut? text = none := by
  have noStart : Text.after? "class".toList text = none := by
    apply Option.eq_none_iff_forall_ne_some.mpr
    intro rest found
    exact noName ⟨rest, (Text.after?_eq_some_iff.mp found).symm⟩
  rw [cut?, afterName?, noStart]
  rfl

/-- A name does not run over a boundary. -/
theorem not_startsClass {start : Text} (boundary : isBoundary c = true)
    (noClass : ¬"class".toList <:+: start ++ [c]) : ¬"class".toList <+: start ++ c :: rest := by
  intro starts
  rw [List.append_cons] at starts
  have noBoundary : ∀ d ∈ "class".toList, isBoundary d = false := Text.eq_false_of_any (by decide)
  rcases List.prefix_or_prefix_of_prefix starts (List.prefix_append (start ++ [c]) rest) with
    inside | runsOver
  · exact noClass inside.isInfix
  · rw [noBoundary c (runsOver.subset (by simp))] at boundary
    cases boundary

theorem valuesFrom_length_append (skipped rest : Text) :
    valuesFrom skipped.length (skipped ++ rest) = valuesFrom 0 rest := by
  induction skipped with
  | nil => rfl
  | cons c skipped ih => exact ih

/-- No value is found in a text that no attribute starts in. -/
theorem valuesFrom_append {passed : Text}
    (noName : ∀ start c later, passed = start ++ c :: later → ¬"class".toList <+: later ++ rest) :
    valuesFrom 0 (passed ++ rest) = valuesFrom 0 rest := by
  induction passed with
  | nil => rfl
  | cons c passed ih =>
      have noCut : cut? (passed ++ rest) = none := cut?_eq_none (noName [] c passed rfl)
      rw [List.cons_append, valuesFrom, noCut, ite_self]
      apply ih
      rintro start d later rfl
      exact noName (c :: start) d later rfl

theorem valuesFrom_of_noClass {last : Text} (noClass : ¬"class".toList <:+: last) :
    valuesFrom 0 last = [] := by
  have passed : valuesFrom 0 (last ++ []) = valuesFrom 0 [] := by
    apply valuesFrom_append
    rintro start c later rfl starts
    rw [List.append_nil] at starts
    exact noClass (starts.isInfix.trans ⟨start ++ [c], [], by simp⟩)
  rwa [List.append_nil] at passed

/-- The next value is that of the attribute behind the filler, and reading goes on behind it. -/
theorem valuesFrom_filler {filler : Text} (boundary : EndsAtBoundary filler)
    (noClass : ¬"class".toList <:+: filler) (written : Attribute) (rest : Text) :
    valuesFrom 0 (filler ++ (written.text ++ rest)) = written.value :: valuesFrom 0 rest := by
  rcases boundary with ⟨start, c, rfl, isBoundary⟩
  have passed : valuesFrom 0 (start ++ c :: (written.text ++ rest)) =
      valuesFrom 0 (c :: (written.text ++ rest)) := by
    apply valuesFrom_append
    rintro before d later rfl
    apply not_startsClass isBoundary
    intro inside
    exact noClass (inside.trans ⟨before ++ [d], [], by simp⟩)
  rw [← List.append_cons, passed, valuesFrom, if_pos isBoundary, cut?_text]
  simp only [List.length_append, Nat.add_sub_cancel, valuesFrom_length_append]

theorem valuesFrom_source {items : List (Text × Attribute)} {last : Text}
    (noClass : ∀ item ∈ items, ¬"class".toList <:+: item.1)
    (noClassBehind : ¬"class".toList <:+: last)
    (boundaries : ∀ item ∈ items, EndsAtBoundary item.1) :
    valuesFrom 0 (source items last) = items.map fun item => item.2.value := by
  induction items with
  | nil => exact valuesFrom_of_noClass noClassBehind
  | cons item items ih =>
      have isSource : source (item :: items) last =
          item.1 ++ (item.2.text ++ source items last) := by
        simp [source]
      rw [isSource, valuesFrom_filler (boundaries item List.mem_cons_self)
        (noClass item List.mem_cons_self), ih, List.map_cons]
      · intro other member
        exact noClass other (List.mem_cons_of_mem item member)
      · intro other member
        exact boundaries other (List.mem_cons_of_mem item member)

/-- At the very start of a source an attribute needs no filler. -/
theorem values_source {items : List (Text × Attribute)} {last : Text}
    (noClass : ∀ item ∈ items, ¬"class".toList <:+: item.1)
    (noClassBehind : ¬"class".toList <:+: last)
    (firstBoundary : ∀ item ∈ items.head?, item.1 = [] ∨ EndsAtBoundary item.1)
    (laterBoundaries : ∀ item ∈ items.tail, EndsAtBoundary item.1) :
    values (source items last) = items.map fun item => item.2.value := by
  cases items with
  | nil =>
      have noCut : cut? last = none := cut?_eq_none fun starts => noClassBehind starts.isInfix
      change values last = []
      rw [values, noCut]
      exact valuesFrom_of_noClass noClassBehind
  | cons item items =>
      have noClassFirst := noClass item List.mem_cons_self
      have noClassLater : ∀ other ∈ items, ¬"class".toList <:+: other.1 :=
        fun other member => noClass other (List.mem_cons_of_mem item member)
      rcases firstBoundary item rfl with noFiller | boundary
      · have isSource : source (item :: items) last = item.2.text ++ source items last := by
          simp [source, noFiller]
        rw [isSource, values, cut?_text]
        simp only [valuesFrom_source noClassLater noClassBehind laterBoundaries, List.map_cons]
      · have noCut : cut? (source (item :: items) last) = none := by
          rcases boundary with ⟨start, c, isFiller, isBoundary⟩
          have isSource : source (item :: items) last =
              start ++ c :: (item.2.text ++ source items last) := by
            simp [source, isFiller]
          rw [isSource]
          exact cut?_eq_none (not_startsClass isBoundary (isFiller ▸ noClassFirst))
        rw [values, noCut]
        apply valuesFrom_source noClass noClassBehind
        intro other member
        rcases List.mem_cons.mp member with rfl | later
        · exact boundary
        · exact laterBoundaries other later

/-! ## Class lists -/

/-- The class lists of a source are the trimmed values of its attributes that are not blank. -/
theorem classLists_source {items : List (Text × Attribute)} {last : Text}
    (noClass : ∀ item ∈ items, ¬"class".toList <:+: item.1)
    (noClassBehind : ¬"class".toList <:+: last)
    (firstBoundary : ∀ item ∈ items.head?, item.1 = [] ∨ EndsAtBoundary item.1)
    (laterBoundaries : ∀ item ∈ items.tail, EndsAtBoundary item.1) :
    classLists (source items last) =
      ((items.map fun item => item.2.value).filter fun value => !Text.isAllBlank value).map
        Text.trim := by
  rw [classLists, values_source noClass noClassBehind firstBoundary laterBoundaries,
    List.filter_map]
  congr 1
  apply List.filter_congr
  intro value _
  have sameTest : (Text.trim value).isEmpty = Text.isAllBlank value := by
    rw [Bool.eq_iff_iff, List.isEmpty_iff, Text.trim_eq_nil_iff]
  rw [Function.comp_apply, sameTest]

/-- Values with quotes, braces, line breaks and attributes in them, in four ways of writing. -/
theorem classLists_source_sample :
    let items : List (Text × Attribute) :=
      [([], ⟨false, ⟨[], by decide⟩, ⟨[], by decide⟩, .quotes .double (by decide),
        " class='x'\n y ".toList, by decide⟩),
      (">\n<p ".toList, ⟨true, ⟨[' '], by decide⟩, ⟨['\n'], by decide⟩,
        .braces ⟨[' '], by decide⟩ .grave ⟨[], by decide⟩, "\x7b\"a\"\x7d".toList, by decide⟩),
      ("/".toList, ⟨false, ⟨[], by decide⟩, ⟨['\t'], by decide⟩, .quotes .single (by decide),
        " \n".toList, by decide⟩),
      (" id=".toList, ⟨true, ⟨[], by decide⟩, ⟨[], by decide⟩,
        .braces ⟨[], by decide⟩ .single ⟨['\n'], by decide⟩, "b".toList, by decide⟩)]
    classLists (source items "lassName>".toList) =
      ["class='x'\n y".toList, "\x7b\"a\"\x7d".toList, "b".toList] := by
  intro items
  have noClass : ∀ item ∈ items, ¬"class".toList <:+: item.1 := by decide +kernel
  have noClassBehind : ¬"class".toList <:+: "lassName>".toList := by decide +kernel
  have firstBoundary : ∀ item ∈ items.head?, item.1 = [] ∨ EndsAtBoundary item.1 := by
    rintro item ⟨⟩
    exact Or.inl rfl
  have laterBoundaries : ∀ item ∈ items.tail, EndsAtBoundary item.1 := by
    simp only [items, List.tail_cons, List.forall_mem_cons]
    refine ⟨⟨">\n<p".toList, ' ', ?_⟩, ⟨[], '/', ?_⟩, ⟨" id".toList, '=', ?_⟩, by simp⟩ <;>
      decide +kernel
  rw [classLists_source noClass noClassBehind firstBoundary laterBoundaries]
  decide +kernel

end ClassAttribute

end UtilityCss
