import UtilityCss.Proofs.ClassName.Derivation
import UtilityCss.Proofs.Text.Bytes

/-!
# Priority of type tokens

Type tokens are tried longest first, and tokens of equal length in the order of their registration.
That order is seen in the list of tokens only. A class name can start with at most one token of each
length, so the token that a class name is read with is the longest one behind which a complete value
stands, whatever the order of registration was.
-/

namespace UtilityCss

namespace Text

theorem eq_nil_of_byteLength_append {text gap : Text}
    (sameLength : byteLength text = byteLength (text ++ gap)) : gap = [] := by
  rw [byteLength_append] at sameLength
  cases gap with
  | nil => rfl
  | cons c rest =>
      have positive : 0 < c.utf8Size := c.utf8Size_pos
      rw [byteLength] at sameLength
      omega

/-- A text has one start of each length. -/
theorem eq_of_append_of_byteLength_eq {first second rest other : Text}
    (whole : first ++ rest = second ++ other)
    (sameLength : byteLength first = byteLength second) : first = second := by
  rcases List.append_eq_append_iff.mp whole with ⟨gap, longer, _⟩ | ⟨gap, longer, _⟩
  · have noGap : gap = [] := eq_nil_of_byteLength_append (longer ▸ sameLength)
    rw [longer, noGap, List.append_nil]
  · have noGap : gap = [] := eq_nil_of_byteLength_append (longer ▸ sameLength.symm)
    rw [longer, noGap, List.append_nil]

end Text

/-- A text is a complete value when the grammar derives it from a quantity and an optional second
one behind a slash. -/
def Grammar.IsCompleteValue (text : Text) : Prop :=
  ∃ (primary : Quantity) (secondary : Option Quantity), primary.IsDerived ∧
    (∀ quantity ∈ secondary, quantity.IsDerived) ∧
    text = primary.render ++ ClassToken.renderSecondary secondary

namespace Grammar

/-! ## The order of the tokens -/

/-- Longer tokens come first. -/
def LongestFirst (types : List Text) : Prop :=
  types.Pairwise fun first second => second.byteLength ≤ first.byteLength

theorem longestFirst_insertType {types : List Text} (sorted : LongestFirst types) (token : Text) :
    LongestFirst (insertType token types) := by
  induction types with
  | nil => exact List.pairwise_singleton ..
  | cons first rest ih =>
      rcases List.pairwise_cons.mp sorted with ⟨notLonger, later⟩
      rw [insertType]
      split
      · rename_i short
        refine List.pairwise_cons.mpr ⟨?_, sorted⟩
        intro other member
        rcases List.mem_cons.mp member with rfl | inRest
        · exact short
        · exact le_trans (notLonger other inRest) short
      · rename_i long
        refine List.pairwise_cons.mpr ⟨?_, ih later⟩
        intro other member
        rcases mem_insertType.mp member with rfl | inRest
        · exact Nat.le_of_not_le long
        · exact notLonger other inRest

theorem longestFirst_ofTypes (types : List Text) : LongestFirst (ofTypes types).types := by
  induction types with
  | nil => exact List.Pairwise.nil
  | cons first rest ih => exact longestFirst_insertType ih first

/-- A token goes in front of all tokens of its length. -/
theorem filter_insertType (length : Nat) (token : Text) (types : List Text) :
    (insertType token types).filter (fun type => type.byteLength = length) =
      (token :: types).filter fun type => type.byteLength = length := by
  induction types with
  | nil => rfl
  | cons first rest ih =>
      rw [insertType]
      split
      · rfl
      · rename_i long
        rw [List.filter_cons, ih]
        by_cases same : token.byteLength = length
        · have longer : first.byteLength ≠ length := by omega
          simp [same, longer]
        · simp [same, List.filter_cons]

/-- Tokens of one length stand in the order of their registration. -/
theorem filter_ofTypes (length : Nat) (types : List Text) :
    (ofTypes types).types.filter (fun type => type.byteLength = length) =
      types.filter fun type => type.byteLength = length := by
  induction types with
  | nil => rfl
  | cons first rest ih =>
      have step : (ofTypes (first :: rest)).types = insertType first (ofTypes rest).types := rfl
      rw [step, filter_insertType, List.filter_cons, ih, List.filter_cons]

/-! ## The token that a class name is read with -/

/-- A registered token reads a bare class name, and no longer one does. -/
structure IsLongestReader (types : List Text) (bare type : Text) : Prop where
  registered : type ∈ types
  reads : readWithType? bare type ≠ none
  longest : ∀ other ∈ types, type.byteLength < other.byteLength → readWithType? bare other = none

theorem IsLongestReader.mono {types others : List Text} {bare type : Text}
    (among : ∀ type, type ∈ others ↔ type ∈ types) (longest : IsLongestReader types bare type) :
    IsLongestReader others bare type :=
  ⟨(among type).mpr longest.registered, longest.reads,
    fun other member => longest.longest other ((among other).mp member)⟩

theorem eq_of_reads_of_byteLength_eq {bare first second : Text}
    (readsFirst : readWithType? bare first ≠ none) (readsSecond : readWithType? bare second ≠ none)
    (sameLength : first.byteLength = second.byteLength) : first = second := by
  rcases Option.ne_none_iff_exists'.mp readsFirst with ⟨_, foundFirst⟩
  rcases Option.ne_none_iff_exists'.mp readsSecond with ⟨_, foundSecond⟩
  rcases readWithType?_eq_some foundFirst with ⟨rest, whole, _⟩
  rcases readWithType?_eq_some foundSecond with ⟨other, again, _⟩
  exact Text.eq_of_append_of_byteLength_eq (whole.symm.trans again) sameLength

theorem IsLongestReader.unique {types : List Text} {bare first second : Text}
    (isFirst : IsLongestReader types bare first) (isSecond : IsLongestReader types bare second) :
    first = second := by
  apply eq_of_reads_of_byteLength_eq isFirst.reads isSecond.reads
  apply le_antisymm
  · apply Nat.le_of_not_lt
    intro longer
    exact isFirst.reads (isSecond.longest first isFirst.registered longer)
  · apply Nat.le_of_not_lt
    intro longer
    exact isSecond.reads (isFirst.longest second isSecond.registered longer)

/-- The first token that reads a class name is the longest one. -/
theorem exists_isLongestReader {types : List Text} {bare : Text} {token : ClassToken}
    (found : (ofTypes types).types.findSome? (readWithType? bare) = some token) :
    ∃ type, IsLongestReader types bare type ∧ readWithType? bare type = some token := by
  rcases List.findSome?_eq_some_iff.mp found with ⟨before, type, behind, order, reads, failed⟩
  have sorted := longestFirst_ofTypes types
  rw [order] at sorted
  have notLonger : ∀ other ∈ behind, other.byteLength ≤ type.byteLength :=
    (List.pairwise_cons.mp (List.pairwise_append.mp sorted).2.1).1
  refine ⟨type, ⟨mem_ofTypes.mp (by simp [order]), by simp [reads], ?_⟩, reads⟩
  intro other member longer
  -- tokens in front of the one that reads have failed; those behind it are no longer
  have present : other ∈ before ++ type :: behind := order ▸ mem_ofTypes.mpr member
  rcases List.mem_append.mp present with isBefore | isBehind
  · exact failed other isBefore
  · rcases List.mem_cons.mp isBehind with rfl | later
    · omega
    · have := notLonger other later
      omega

theorem findSome?_readWithType?_eq_some_iff {types : List Text} {bare : Text}
    {token : ClassToken} :
    (ofTypes types).types.findSome? (readWithType? bare) = some token ↔
      ∃ type, IsLongestReader types bare type ∧ readWithType? bare type = some token := by
  constructor
  · exact exists_isLongestReader
  · rintro ⟨type, longest, reads⟩
    have isSome : ((ofTypes types).types.findSome? (readWithType? bare)).isSome :=
      List.findSome?_isSome_iff.mpr
        ⟨type, mem_ofTypes.mpr longest.registered, by simp [reads]⟩
    rcases Option.isSome_iff_exists.mp isSome with ⟨other, found⟩
    rcases exists_isLongestReader found with ⟨first, isFirst, readsFirst⟩
    rw [isFirst.unique longest, reads] at readsFirst
    rw [found, ← readsFirst]

theorem readBare?_congr {types others : List Text} (among : ∀ type, type ∈ others ↔ type ∈ types)
    (bare : Text) : (ofTypes others).readBare? bare = (ofTypes types).readBare? bare := by
  have sameTokens : (ofTypes others).types.findSome? (readWithType? bare) =
      (ofTypes types).types.findSome? (readWithType? bare) := by
    apply Option.ext
    intro token
    rw [findSome?_readWithType?_eq_some_iff, findSome?_readWithType?_eq_some_iff]
    constructor
    · rintro ⟨type, longest, reads⟩
      exact ⟨type, longest.mono fun type => (among type).symm, reads⟩
    · rintro ⟨type, longest, reads⟩
      exact ⟨type, longest.mono among, reads⟩
  rw [readBare?, readBare?, sameTokens]

theorem read?_congr {types others : List Text} (among : ∀ type, type ∈ others ↔ type ∈ types)
    (className : Text) : (ofTypes others).read? className = (ofTypes types).read? className := by
  rw [read?, read?, readBehindScope?, readBehindScope?, readBare?_congr among]
  simp only [readBare?_congr among]

/-! ## Longer tokens that do not read -/

theorem readWithType?_append (type values : Text) :
    readWithType? (type ++ '-' :: values) type =
      (readValues? values).map fun (primary, secondary) => ⟨none, type, primary, secondary⟩ := by
  rw [readWithType?, Text.after?_eq_some_iff.mpr rfl]
  rfl

/-- A longer token would end at a hyphen inside the values, so a token behind which there is no such
token is the longest one. -/
theorem isLongestReader_of_noSplit {types : List Text} {type values : Text}
    (registered : type ∈ types) (isValue : readValues? values ≠ none)
    (noSplit : ∀ front behind, type ++ '-' :: front ∈ types → values ≠ front ++ '-' :: behind) :
    IsLongestReader types (type ++ '-' :: values) type := by
  refine ⟨registered, ?_, ?_⟩
  · rw [readWithType?_append]
    simpa using isValue
  · intro other isOther longer
    apply Option.eq_none_iff_forall_ne_some.mpr
    intro token found
    rcases readWithType?_eq_some found with ⟨rest, whole, after⟩
    rcases (readAfterKind?_eq_some after).2.2 with ⟨more, rfl, _⟩
    rcases List.append_eq_append_iff.mp whole with ⟨gap, rfl, behind⟩ | ⟨gap, isType, _⟩
    · cases gap with
      | nil => simp at longer
      | cons c front =>
          rcases List.cons.inj behind with ⟨rfl, split⟩
          exact noSplit front more isOther split
    · rw [isType, Text.byteLength_append] at longer
      omega

theorem isCompleteValue_iff {text : Text} (noBlank : ∀ c ∈ text, isAsciiBlank c = false) :
    IsCompleteValue text ↔ readValues? text ≠ none := by
  constructor
  · rintro ⟨primary, secondary, isPrimary, isSecondary, rfl⟩
    exact Option.isSome_iff_ne_none.mp (isSome_readValues? isPrimary isSecondary noBlank)
  · intro found
    rcases Option.ne_none_iff_exists'.mp found with ⟨⟨primary, secondary⟩, read⟩
    exact ⟨primary, secondary, readValues?_sound read⟩

/-- No token longer than the one that a bare class name is read with reads it; and none reads a
class name that is read as a bracketed list. -/
theorem readWithType?_eq_none_of_readBare? {types : List Text} {bare other : Text}
    {token : ClassToken} (found : (ofTypes types).readBare? bare = some token)
    (registered : other ∈ types) (longer : token.kind.byteLength < other.byteLength) :
    readWithType? bare other = none := by
  rcases Option.or_eq_some_iff.mp found with byType | ⟨noType, _⟩
  · rcases exists_isLongestReader byType with ⟨type, longest, reads⟩
    rcases readWithType?_eq_some reads with ⟨rest, _, after⟩
    have isKind : token.kind = type := (readAfterKind?_eq_some after).2.1
    exact longest.longest other registered (isKind ▸ longer)
  · exact List.findSome?_eq_none_iff.mp noType other (mem_ofTypes.mpr registered)

theorem readBare?_bareName {grammar : Grammar} {className : Text} {token : ClassToken}
    (found : grammar.read? className = some token) :
    ∃ inner, grammar.readBare? (token.bareName className) = some inner ∧
      inner.kind = token.kind := by
  rcases Option.or_eq_some_iff.mp found with behindScope | ⟨_, bare⟩
  · rcases Option.bind_eq_some_iff.mp behindScope with ⟨⟨scope, bare⟩, parts, read⟩
    rcases Option.map_eq_some_iff.mp read with ⟨inner, readBare, rfl⟩
    rcases splitScope?_eq_some_iff.mp parts with ⟨rfl, _⟩
    exact ⟨inner, by simpa [ClassToken.bareName] using readBare, rfl⟩
  · have noScope : token.scope = none := (readBare?_sound bare).1
    exact ⟨token, by simpa [ClassToken.bareName, noScope] using bare, rfl⟩

/-- The longest usable token wins. Behind no longer registered token stands a complete value, be it
as the reader cuts values or, in a name without blank characters, as the grammar derives them. So
the order of registration never matters to what is read, although it orders tokens of one length. -/
theorem read?_by_longest_type (types : List Text) (className : Text) :
    (∀ token, (ofTypes types).read? className = some token →
        ∀ longer ∈ types, token.kind.byteLength < longer.byteLength →
          ∀ values, token.bareName className = longer ++ '-' :: values →
            readValues? values = none ∧
              ((∀ c ∈ values, isAsciiBlank c = false) → ¬ IsCompleteValue values)) ∧
      (∀ others : List Text, (∀ type, type ∈ others ↔ type ∈ types) →
        (ofTypes others).read? className = (ofTypes types).read? className) ∧
      LongestFirst (ofTypes types).types ∧
      ∀ length, (ofTypes types).types.filter (fun type => type.byteLength = length) =
        types.filter fun type => type.byteLength = length := by
  refine ⟨?_, fun others among => read?_congr among className, longestFirst_ofTypes types,
    fun length => filter_ofTypes length types⟩
  intro token found longer registered isLonger values whole
  rcases readBare?_bareName found with ⟨inner, read, sameKind⟩
  have fails := readWithType?_eq_none_of_readBare? read registered (sameKind ▸ isLonger)
  rw [whole, readWithType?_append] at fails
  have noValues : readValues? values = none := Option.map_eq_none_iff.mp fails
  refine ⟨noValues, fun noBlank complete => ?_⟩
  exact (isCompleteValue_iff noBlank).mp complete noValues

/-- The longer token is followed by a hyphen, but what stands behind is no value; so the shorter one
reads the class name, in either order of registration. -/
theorem read?_by_longest_type_sample :
    let token : ClassToken := ⟨some "sm".toList, "bg".toList, ⟨"$a-!".toList, []⟩, none⟩
    (ofTypes ["bg".toList, "bg-$a".toList]).read? "sm:bg-$a-!".toList = some token ∧
      ¬ IsCompleteValue "!".toList ∧
      (ofTypes ["bg-$a".toList, "bg".toList]).read? "sm:bg-$a-!".toList = some token := by
  intro token
  have read : (ofTypes ["bg".toList, "bg-$a".toList]).read? "sm:bg-$a-!".toList = some token := by
    decide
  rcases read?_by_longest_type ["bg".toList, "bg-$a".toList] "sm:bg-$a-!".toList with
    ⟨longest, sameSet, _⟩
  have noValue := longest token read "bg-$a".toList (by decide) (by decide) "!".toList
    (by decide)
  have swapped := sameSet ["bg-$a".toList, "bg".toList] fun type => by simp [or_comm]
  exact ⟨read, noValue.2 (Text.eq_false_of_any (by decide)), swapped.trans read⟩

end Grammar

end UtilityCss
