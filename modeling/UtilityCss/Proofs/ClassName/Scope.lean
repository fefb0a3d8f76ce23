import UtilityCss.Proofs.ClassName.Derivation

/-!
# Scopes of class names

The scope of a class name is decided twice: by the split at the first colon, and by the grammar,
which falls back to reading the whole name when what stands behind the scope cannot be read. The two
agree because the fallback always fails. A type has no colon, so it ends inside the scope; the value
behind it then begins with a character of the scope or with the colon, and a quantity that begins so
holds no colon, while the quantities of a class name are separated by slashes.
-/

namespace UtilityCss

namespace ValueForm

/-- A character that begins a value which may hold any character. -/
def isMarker (c : Char) : Bool :=
  c == '#' || c == '[' || c == '$'

theorem Shape.not_mem_colon {form : ValueForm} {value : Text} (shape : Shape form value)
    (noMarker : ∀ c ∈ value.head?, isMarker c = false) : ':' ∉ value := by
  cases shape with
  | decimal isDecimal => exact isDecimal.not_mem (by decide) (by decide)
  | negative isDecimal =>
      have inDecimal := isDecimal.not_mem (c := ':') (by decide) (by decide)
      simpa using inDecimal
  | ident isIdent => exact isIdent.not_mem (by decide) (by decide)
  | hex isRun => exact absurd (noMarker '#' rfl) (by decide)
  | bracket isRun => exact absurd (noMarker '[' rfl) (by decide)
  | reference isRun => exact absurd (noMarker '$' rfl) (by decide)

end ValueForm

namespace Quantity

theorem IsDerived.not_mem_colon {quantity : Quantity} (derived : quantity.IsDerived)
    (noMarker : ∀ c ∈ quantity.render.head?, ValueForm.isMarker c = false) :
    ':' ∉ quantity.render := by
  rcases derived.value with ⟨form, shape⟩
  rcases List.exists_cons_of_ne_nil shape.ne_nil with ⟨first, rest, value⟩
  have inValue : ':' ∉ quantity.value := by
    apply shape.not_mem_colon
    intro c isHead
    exact noMarker c (by simpa [render, value] using isHead)
  have inUnit : ':' ∉ quantity.unit := by
    intro member
    exact absurd (derived.unit ':' member) (by decide)
  simp [render, inValue, inUnit]

end Quantity

namespace Grammar

theorem noBlank_of_isScopeChar {c : Char} (isScope : isScopeChar c = true) :
    isBlank c = false := by
  simp only [isScopeChar, Bool.or_eq_true, beq_iff_eq] at isScope
  rcases isScope with isAlphanum | rfl
  · exact noBlank_of_isAlphanum isAlphanum
  · decide

theorem isMarker_of_isScopeChar {c : Char} (isScope : isScopeChar c = true) :
    ValueForm.isMarker c = false := by
  cases marker : ValueForm.isMarker c with
  | false => rfl
  | true =>
      simp only [ValueForm.isMarker, Bool.or_eq_true, beq_iff_eq] at marker
      rcases marker with (rfl | rfl) | rfl <;> cases isScope

theorem eq_slash_of_renderSecondary {secondary : Option Quantity} {c : Char} {rest : Text}
    (equal : ClassToken.renderSecondary secondary = c :: rest) : c = '/' := by
  cases secondary with
  | none => cases equal
  | some quantity =>
      cases equal
      rfl

/-- Characters of a scope and a colon begin no quantities. -/
theorem readValues?_eq_none_of_colon {start bare : Text}
    (inScope : ∀ c ∈ start, isScopeChar c = true) :
    readValues? (start ++ ':' :: bare) = none := by
  apply Option.eq_none_iff_forall_ne_some.mpr
  rintro ⟨primary, secondary⟩ found
  rcases readValues?_sound found with ⟨isPrimary, _, whole⟩
  have noColon : ':' ∉ primary.render := by
    apply isPrimary.not_mem_colon
    intro c isHead
    rcases List.head?_eq_some_iff.mp isHead with ⟨tail, primaryText⟩
    rw [primaryText] at whole
    cases start with
    | nil =>
        cases whole
        decide
    | cons d start =>
        have same : d = c := (List.cons.inj whole).1
        subst d
        exact isMarker_of_isScopeChar (inScope c List.mem_cons_self)
  -- The colon stands behind the primary quantity, where a slash would have to be.
  rcases List.append_eq_append_iff.mp whole with ⟨more, before, after⟩ | ⟨more, before, after⟩
  · cases more with
    | nil => exact absurd (eq_slash_of_renderSecondary after.symm) (by decide)
    | cons c more =>
        have isColon : ':' = c := (List.cons.inj after).1
        subst c
        exact noColon (by simp [before])
  · cases more with
    | nil => exact absurd (eq_slash_of_renderSecondary after) (by decide)
    | cons c more =>
        have isSlash : c = '/' := eq_slash_of_renderSecondary after
        subst c
        exact absurd (inScope '/' (by simp [before])) (by decide)

theorem readAfterKind?_eq_none_of_colon {kind start bare : Text}
    (inScope : ∀ c ∈ start, isScopeChar c = true) :
    readAfterKind? kind (start ++ ':' :: bare) = none := by
  cases start with
  | nil => rfl
  | cons c start =>
      have later : ∀ d ∈ start, isScopeChar d = true :=
        fun d member => inScope d (List.mem_cons_of_mem c member)
      rw [List.cons_append]
      simp only [readAfterKind?]
      split
      · rename_i values cut
        rw [← (List.cons.inj cut).2, readValues?_eq_none_of_colon later]
        rfl
      · rfl

/-- A class name with a scope is not read as a whole: the type would end inside the scope. -/
theorem readBare?_eq_none_of_scope {types : List Text} {scope bare : Text}
    (noColon : ∀ type ∈ types, ':' ∉ type) (isScope : Text.IsRun isScopeChar scope) :
    (ofTypes types).readBare? (scope ++ ':' :: bare) = none := by
  rw [readBare?, Option.or_eq_none_iff]
  constructor
  · apply List.findSome?_eq_none_iff.mpr
    intro type registered
    apply Option.eq_none_iff_forall_ne_some.mpr
    intro token found
    rcases readWithType?_eq_some found with ⟨rest, whole, read⟩
    rcases List.append_eq_append_iff.mp whole with ⟨more, before, after⟩ | ⟨more, before, rfl⟩
    · cases more with
      | nil =>
          rw [← List.nil_append rest, ← after] at read
          cases read
      | cons c more =>
          have isColon : ':' = c := (List.cons.inj after).1
          subst c
          exact noColon type (mem_ofTypes.mp registered) (by simp [before])
    · have inScope : ∀ c ∈ more, isScopeChar c = true :=
        fun c member => isScope.2 c (by simp [before, member])
      rw [readAfterKind?_eq_none_of_colon inScope] at read
      cases read
  · apply Option.eq_none_iff_forall_ne_some.mpr
    intro token found
    rcases readBracketKind?_eq_some found with ⟨kind, rest, shape, whole, _⟩
    rcases List.exists_cons_of_ne_nil isScope.1 with ⟨first, others, rfl⟩
    cases shape with
    | bracket isRun =>
        have isBracket : first = '[' := (List.cons.inj whole).1
        subst first
        exact absurd (isScope.2 '[' List.mem_cons_self) (by decide)

theorem read?_of_scope {types : List Text} {scope bare : Text}
    (noColon : ∀ type ∈ types, ':' ∉ type) (isScope : Text.IsRun isScopeChar scope) :
    (ofTypes types).read? (scope ++ ':' :: bare) =
      ((ofTypes types).readBare? bare).map fun token => { token with scope := some scope } := by
  have parts : splitScope? (scope ++ ':' :: bare) = some (scope, bare) :=
    splitScope?_eq_some_iff.mpr ⟨rfl, isScope⟩
  rw [read?, readBehindScope?, parts, readBare?_eq_none_of_scope noColon isScope, Option.or_none]
  rfl

theorem read?_of_noScope {grammar : Grammar} {className : Text}
    (noScope : splitScope? className = none) :
    grammar.read? className = grammar.readBare? className := by
  rw [read?, readBehindScope?, noScope]
  rfl

theorem splitScope?_of_noColon {className : Text} (noColon : ':' ∉ className) :
    splitScope? className = none := by
  apply Option.eq_none_iff_forall_ne_some.mpr
  rintro ⟨scope, bare⟩ split
  apply noColon
  rw [(splitScope?_eq_some_iff.mp split).1]
  simp

/-! ## Lists of properties -/

theorem splitScope?_cons_bracket (rest : Text) : splitScope? ('[' :: rest) = none := by
  apply Option.eq_none_iff_forall_ne_some.mpr
  rintro ⟨scope, bare⟩ split
  rcases splitScope?_eq_some_iff.mp split with ⟨whole, isScope⟩
  rcases List.exists_cons_of_ne_nil isScope.1 with ⟨c, others, rfl⟩
  have isBracket : '[' = c := (List.cons.inj whole).1
  exact absurd (isScope.2 '[' (isBracket ▸ List.mem_cons_self)) (by decide)

/-- A class name with a bracketed list for its type is read by what stands behind the list. -/
theorem read?_of_list {types : List Text} {kind : Text}
    (noBracket : ∀ type ∈ types, type ≠ [] ∧ '[' ∉ type) (shape : ValueForm.Shape .bracket kind)
    (values : Text) :
    (ofTypes types).read? (kind ++ '-' :: values) =
      (readValues? values).map fun (primary, secondary) => ⟨none, kind, primary, secondary⟩ := by
  have cut := ValueForm.cutBracket?_append shape ('-' :: values)
  cases shape with
  | @bracket list isRun =>
      have noType : (ofTypes types).types.findSome?
          (readWithType? ('[' :: list ++ [']'] ++ '-' :: values)) = none := by
        apply List.findSome?_eq_none_iff.mpr
        intro type member
        rcases noBracket type (mem_ofTypes.mp member) with ⟨nonempty, notIn⟩
        apply Option.eq_none_iff_forall_ne_some.mpr
        intro token found
        rcases readWithType?_eq_some found with ⟨rest, whole, _⟩
        -- A type token in front would begin with the bracket.
        rcases List.exists_cons_of_ne_nil nonempty with ⟨c, others, rfl⟩
        have isBracket : '[' = c := (List.cons.inj whole).1
        exact notIn (isBracket ▸ List.mem_cons_self)
      have noScope : splitScope? ('[' :: list ++ [']'] ++ '-' :: values) = none :=
        splitScope?_cons_bracket _
      rw [read?_of_noScope noScope, readBare?, noType, Option.none_or, readBracketKind?, cut]
      rfl

/-! ## Class names that are read -/

/-- The scope of a token is the scope that its class name is split at. -/
theorem scope_of_read? {types : List Text} {className : Text} {token : ClassToken}
    (noColon : ∀ type ∈ types, ':' ∉ type)
    (found : (ofTypes types).read? className = some token) :
    token.scope = (splitScope? className).map Prod.fst := by
  cases parts : splitScope? className with
  | none =>
      rw [read?_of_noScope parts] at found
      exact (readBare?_sound found).1
  | some split =>
      rcases split with ⟨scope, bare⟩
      rcases splitScope?_eq_some_iff.mp parts with ⟨rfl, isScope⟩
      rw [read?_of_scope noColon isScope] at found
      rcases Option.map_eq_some_iff.mp found with ⟨inner, _, rfl⟩
      rfl

theorem splitScope?_eq_none_of_read? {types : List Text} {className : Text} {token : ClassToken}
    (noColon : ∀ type ∈ types, ':' ∉ type)
    (found : (ofTypes types).read? className = some token) (noScope : token.scope = none) :
    splitScope? className = none := by
  have sameScope := scope_of_read? noColon found
  rw [noScope] at sameScope
  exact Option.map_eq_none_iff.mp sameScope.symm

end Grammar

end UtilityCss
