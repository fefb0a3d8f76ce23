import UtilityCss.Proofs.ClassName.Shape
import UtilityCss.Proofs.Text.Cutting

/-!
# Derivations of class names

A token is derived by the grammar when its parts have the shapes that the grammar allows; the class
name of a derived token is its parts in order. Nothing is said about which reading is preferred, so
a class name may have several derived tokens.

The reader is greedy: it tries the forms in a fixed order and never gives a character back. It
nevertheless accepts every class name of a derived token, and what it gives is itself derived and
loses no character.
-/

namespace UtilityCss

/-- A value of some form and a unit. -/
structure Quantity.IsDerived (quantity : Quantity) : Prop where
  value : ∃ form, ValueForm.Shape form quantity.value
  unit : ValueForm.IsUnit quantity.unit

/-- The parts of a token have the shapes that the grammar allows for the registered types. -/
structure ClassToken.IsDerived (types : List Text) (token : ClassToken) : Prop where
  scope : ∀ scope ∈ token.scope, Text.IsRun Grammar.isScopeChar scope
  kind : token.kind ∈ types ∨ ValueForm.Shape .bracket token.kind
  primary : token.primary.IsDerived
  secondary : ∀ quantity ∈ token.secondary, quantity.IsDerived

theorem ClassToken.IsDerived.mono {types others : List Text} {token : ClassToken}
    (among : ∀ type ∈ types, type ∈ others) (derived : token.IsDerived types) :
    token.IsDerived others :=
  ⟨derived.scope, derived.kind.imp_left (among token.kind), derived.primary, derived.secondary⟩

namespace ClassToken

/-- What stands in front of the bare name of a class. -/
def renderScope : Option Text → Text
  | some scope => scope ++ [':']
  | none => []

/-- What stands behind the primary quantity. -/
def renderSecondary : Option Quantity → Text
  | some secondary => '/' :: secondary.render
  | none => []

theorem endsQuantity_renderSecondary (secondary : Option Quantity) :
    ValueForm.EndsQuantity (renderSecondary secondary) := by
  cases secondary <;> simp [ValueForm.EndsQuantity, renderSecondary]

theorem render_eq (token : ClassToken) :
    token.render = renderScope token.scope ++
      (token.kind ++ '-' :: (token.primary.render ++ renderSecondary token.secondary)) := by
  rcases token with ⟨scope, kind, primary, secondary⟩
  cases scope <;> cases secondary <;> simp [render, renderScope, renderSecondary]

theorem renderScope_append_bareName {token : ClassToken} {className bare : Text}
    (whole : className = renderScope token.scope ++ bare) :
    renderScope token.scope ++ token.bareName className = className := by
  subst className
  cases found : token.scope with
  | none => simp [renderScope, bareName, found]
  | some scope =>
      simp [renderScope, bareName, found]

end ClassToken

namespace Grammar

theorem mem_insertType {token other : Text} {types : List Text} :
    other ∈ insertType token types ↔ other = token ∨ other ∈ types := by
  induction types with
  | nil => simp [insertType]
  | cons first rest ih =>
      rw [insertType]
      split
      · simp
      · rw [List.mem_cons, ih, List.mem_cons]
        exact or_left_comm

theorem mem_ofTypes {token : Text} {types : List Text} :
    token ∈ (ofTypes types).types ↔ token ∈ types := by
  rw [ofTypes]
  induction types with
  | nil => simp
  | cons first rest ih => simp [mem_insertType, ih]

/-! ## What is read is derived -/

theorem cutQuantity?_eq_some {form : ValueForm} {text tail : Text} {quantity : Quantity}
    (cut : cutQuantity? form text = some (quantity, tail)) :
    ∃ rest, form.cut? text = some (quantity.value, rest) ∧
      ValueForm.cutWhile isUnitChar rest = (quantity.unit, tail) := by
  rcases Option.map_eq_some_iff.mp cut with ⟨⟨value, rest⟩, found, equal⟩
  cases equal
  exact ⟨rest, found, rfl⟩

theorem cutQuantity?_sound {form : ValueForm} {text tail : Text} {quantity : Quantity}
    (cut : cutQuantity? form text = some (quantity, tail)) :
    ValueForm.Shape form quantity.value ∧ ValueForm.IsUnit quantity.unit ∧
      text = quantity.render ++ tail := by
  rcases cutQuantity?_eq_some cut with ⟨rest, found, unitCut⟩
  rcases ValueForm.cut?_sound found with ⟨shape, rfl⟩
  rcases ValueForm.cutWhile_sound unitCut with ⟨rfl, isUnit⟩
  exact ⟨shape, isUnit, by simp [Quantity.render]⟩

/-- No unit stands behind a reference. -/
theorem unit_eq_nil_of_reference {form : ValueForm} {text tail : Text} {quantity : Quantity}
    (cut : cutQuantity? form text = some (quantity, tail))
    (starts : quantity.value.head? = some '$') : quantity.unit = [] := by
  rcases cutQuantity?_eq_some cut with ⟨rest, found, unitCut⟩
  have isReference := (ValueForm.cut?_sound found).1.eq_reference starts
  subst form
  have stops : ∀ c ∈ rest.head?, isUnitChar c = false := by
    intro c isHead
    have blank := ValueForm.cutReference?_stops found c isHead
    simp only [isAsciiBlank, Bool.or_eq_true, beq_iff_eq] at blank
    rcases blank with (((rfl | rfl) | rfl) | rfl) | rfl <;> rfl
  rw [ValueForm.cutWhile, ValueForm.takeWhile_of_head stops] at unitCut
  exact (Prod.mk.inj unitCut).1.symm

theorem readQuantity?_sound {text : Text} {quantity : Quantity}
    (found : readQuantity? text = some quantity) :
    quantity.IsDerived ∧ text = quantity.render := by
  rcases List.exists_of_findSome?_eq_some found with ⟨form, _, attempt⟩
  split at attempt
  · rename_i cut
    rcases cutQuantity?_sound cut with ⟨shape, isUnit, whole⟩
    cases attempt
    exact ⟨⟨⟨form, shape⟩, isUnit⟩, by simpa using whole⟩
  · cases attempt

theorem readValuesAs?_sound {form : ValueForm} {text : Text} {primary : Quantity}
    {secondary : Option Quantity} (found : readValuesAs? form text = some (primary, secondary)) :
    (ValueForm.Shape form primary.value ∧ ValueForm.IsUnit primary.unit) ∧
      (∀ quantity ∈ secondary, quantity.IsDerived) ∧
      text = primary.render ++ ClassToken.renderSecondary secondary := by
  rw [readValuesAs?] at found
  split at found
  · rename_i cut
    rcases cutQuantity?_sound cut with ⟨shape, isUnit, whole⟩
    cases found
    exact ⟨⟨shape, isUnit⟩, by simp, by simpa [ClassToken.renderSecondary] using whole⟩
  · rename_i rest cut
    rcases cutQuantity?_sound cut with ⟨shape, isUnit, whole⟩
    rcases Option.map_eq_some_iff.mp found with ⟨second, foundSecond, equal⟩
    rcases readQuantity?_sound foundSecond with ⟨derived, rfl⟩
    cases equal
    exact ⟨⟨shape, isUnit⟩, by simpa using derived, whole⟩
  · cases found

theorem readValues?_sound {text : Text} {primary : Quantity} {secondary : Option Quantity}
    (found : readValues? text = some (primary, secondary)) :
    primary.IsDerived ∧ (∀ quantity ∈ secondary, quantity.IsDerived) ∧
      text = primary.render ++ ClassToken.renderSecondary secondary := by
  rcases List.exists_of_findSome?_eq_some found with ⟨form, _, attempt⟩
  rcases readValuesAs?_sound attempt with ⟨⟨shape, isUnit⟩, derived, whole⟩
  exact ⟨⟨⟨form, shape⟩, isUnit⟩, derived, whole⟩

theorem readAfterKind?_eq_some {kind rest : Text} {token : ClassToken}
    (found : readAfterKind? kind rest = some token) :
    token.scope = none ∧ token.kind = kind ∧ ∃ values, rest = '-' :: values ∧
      readValues? values = some (token.primary, token.secondary) := by
  simp only [readAfterKind?] at found
  split at found
  · rename_i values
    rcases Option.map_eq_some_iff.mp found with ⟨⟨primary, secondary⟩, read, equal⟩
    cases equal
    exact ⟨rfl, rfl, values, rfl, read⟩
  · cases found

theorem readWithType?_eq_some {bare type : Text} {token : ClassToken}
    (found : readWithType? bare type = some token) :
    ∃ rest, bare = type ++ rest ∧ readAfterKind? type rest = some token := by
  rcases Option.bind_eq_some_iff.mp found with ⟨rest, behind, read⟩
  exact ⟨rest, Text.after?_eq_some_iff.mp behind, read⟩

theorem readBracketKind?_eq_some {bare : Text} {token : ClassToken}
    (found : readBracketKind? bare = some token) :
    ∃ kind rest, ValueForm.Shape .bracket kind ∧ bare = kind ++ rest ∧
      readAfterKind? kind rest = some token := by
  rcases Option.bind_eq_some_iff.mp found with ⟨⟨kind, rest⟩, cut, read⟩
  rcases ValueForm.cutBracket?_sound cut with ⟨shape, whole⟩
  exact ⟨kind, rest, shape, whole, read⟩

/-- What is read from a bare class name has no scope and an allowed type, and its quantities are
read from what stands behind the type. -/
theorem readBare?_eq_some {grammar : Grammar} {bare : Text} {token : ClassToken}
    (found : grammar.readBare? bare = some token) :
    token.scope = none ∧ (token.kind ∈ grammar.types ∨ ValueForm.Shape .bracket token.kind) ∧
      ∃ values, bare = token.kind ++ '-' :: values ∧
        readValues? values = some (token.primary, token.secondary) := by
  have reading : ∃ kind rest, (kind ∈ grammar.types ∨ ValueForm.Shape .bracket kind) ∧
      bare = kind ++ rest ∧ readAfterKind? kind rest = some token := by
    rcases Option.or_eq_some_iff.mp found with byType | ⟨_, byBracket⟩
    · rcases List.exists_of_findSome?_eq_some byType with ⟨type, registered, read⟩
      rcases readWithType?_eq_some read with ⟨rest, whole, after⟩
      exact ⟨type, rest, Or.inl registered, whole, after⟩
    · rcases readBracketKind?_eq_some byBracket with ⟨kind, rest, shape, whole, after⟩
      exact ⟨kind, rest, Or.inr shape, whole, after⟩
  rcases reading with ⟨kind, rest, allowed, rfl, after⟩
  rcases readAfterKind?_eq_some after with ⟨noScope, rfl, values, rfl, read⟩
  exact ⟨noScope, allowed, values, rfl, read⟩

theorem readBare?_sound {grammar : Grammar} {bare : Text} {token : ClassToken}
    (found : grammar.readBare? bare = some token) :
    token.scope = none ∧ token.IsDerived grammar.types ∧ token.render = bare := by
  rcases readBare?_eq_some found with ⟨noScope, allowed, values, rfl, read⟩
  rcases readValues?_sound read with ⟨isPrimary, isSecondary, rfl⟩
  refine ⟨noScope, ⟨by simp [noScope], allowed, isPrimary, isSecondary⟩, ?_⟩
  simp [ClassToken.render_eq, noScope, ClassToken.renderScope]

theorem isScopeChar_colon : isScopeChar ':' = false := by decide

/-- A class name is split exactly at a colon behind a scope. -/
theorem splitScope?_eq_some_iff {className scope bare : Text} :
    splitScope? className = some (scope, bare) ↔
      className = scope ++ ':' :: bare ∧ Text.IsRun isScopeChar scope := by
  constructor
  · intro found
    rw [splitScope?] at found
    split at found
    · rename_i first rest cut
      rcases ValueForm.cutWhile_sound cut with ⟨rfl, _⟩
      split at found
      · rename_i valid
        cases found
        simp only [Bool.and_eq_true, Bool.not_eq_true', List.isEmpty_eq_false_iff,
          List.all_eq_true] at valid
        exact ⟨rfl, valid⟩
      · cases found
    · cases found
  · rintro ⟨rfl, isScope⟩
    have noColon : ∀ c ∈ scope, (c != ':') = true :=
      Text.bne_of_not_mem (isScope.not_mem isScopeChar_colon)
    have stops : ∀ c ∈ (':' :: bare).head?, (c != ':') = false := by simp
    have allowed : (!scope.isEmpty && scope.all isScopeChar) = true := by
      simp only [Bool.and_eq_true, Bool.not_eq_true', List.isEmpty_eq_false_iff,
        List.all_eq_true]
      exact isScope
    rw [splitScope?, ValueForm.cutWhile_append_of_head noColon stops]
    simp only [allowed, if_true]

theorem read?_sound {grammar : Grammar} {className : Text} {token : ClassToken}
    (found : grammar.read? className = some token) :
    token.IsDerived grammar.types ∧ token.render = className := by
  rcases Option.or_eq_some_iff.mp found with behindScope | ⟨_, bare⟩
  · rcases Option.bind_eq_some_iff.mp behindScope with ⟨⟨scope, bare⟩, parts, read⟩
    rcases Option.map_eq_some_iff.mp read with ⟨inner, readBare, rfl⟩
    rcases splitScope?_eq_some_iff.mp parts with ⟨rfl, isScope⟩
    rcases readBare?_sound readBare with ⟨noScope, derived, rfl⟩
    refine ⟨⟨by simpa using isScope, derived.kind, derived.primary, derived.secondary⟩, ?_⟩
    simp [ClassToken.render_eq, noScope, ClassToken.renderScope]
  · exact (readBare?_sound bare).2

/-! ## What is derived is read -/

theorem mem_all (form : ValueForm) : form ∈ ValueForm.all := by
  cases form <;> decide

theorem exists_cutQuantity? {form : ValueForm} {value unit tail : Text}
    (shape : ValueForm.Shape form value) (noReference : form ≠ .reference)
    (isUnit : ValueForm.IsUnit unit) (ends : ValueForm.EndsQuantity tail) :
    ∃ quantity, cutQuantity? form (value ++ unit ++ tail) = some (quantity, tail) := by
  rcases ValueForm.exists_cut?_of_shape shape noReference isUnit ends with
    ⟨cutValue, rest, cut, left⟩
  refine ⟨⟨cutValue, rest.takeWhile isUnitChar⟩, ?_⟩
  rw [cutQuantity?, List.append_assoc, cut]
  simp [ValueForm.cutWhile, left]

/-- A reference takes all that is behind it, the unit and a second quantity included. -/
theorem cutQuantity?_reference {value rest : Text} (shape : ValueForm.Shape .reference value)
    (noBlank : ∀ c ∈ value ++ rest, isAsciiBlank c = false) :
    cutQuantity? .reference (value ++ rest) = some (⟨value ++ rest, []⟩, []) := by
  cases shape with
  | @reference name isRun =>
      have inside : ∀ c ∈ name ++ rest, isAsciiBlank c = false :=
        fun c member => noBlank c (List.mem_cons_of_mem '$' member)
      have whole := ValueForm.cutReference?_of_noBlank (by simp [isRun.1]) inside
      rw [cutQuantity?, ValueForm.cut?, List.cons_append, whole]
      rfl

theorem isSome_readQuantity? {quantity : Quantity} (derived : quantity.IsDerived)
    (noBlank : ∀ c ∈ quantity.render, isAsciiBlank c = false) :
    (readQuantity? quantity.render).isSome := by
  rcases derived.value with ⟨form, shape⟩
  refine List.findSome?_isSome_iff.mpr ⟨form, mem_all form, ?_⟩
  by_cases isReference : form = .reference
  · subst form
    rw [Quantity.render, cutQuantity?_reference shape noBlank]
    rfl
  · have noTail : ValueForm.EndsQuantity [] := by simp [ValueForm.EndsQuantity]
    rcases exists_cutQuantity? shape isReference derived.unit noTail with ⟨found, cut⟩
    rw [List.append_nil] at cut
    rw [Quantity.render, cut]
    rfl

theorem isSome_readValues? {primary : Quantity} {secondary : Option Quantity}
    (isPrimary : primary.IsDerived) (isSecondary : ∀ quantity ∈ secondary, quantity.IsDerived)
    (noBlank : ∀ c ∈ primary.render ++ ClassToken.renderSecondary secondary,
      isAsciiBlank c = false) :
    (readValues? (primary.render ++ ClassToken.renderSecondary secondary)).isSome := by
  rcases isPrimary.value with ⟨form, shape⟩
  refine List.findSome?_isSome_iff.mpr ⟨form, mem_all form, ?_⟩
  by_cases isReference : form = .reference
  · subst form
    rw [Quantity.render, List.append_assoc] at noBlank ⊢
    rw [readValuesAs?, cutQuantity?_reference shape noBlank]
    rfl
  · rcases exists_cutQuantity? shape isReference isPrimary.unit
      (ClassToken.endsQuantity_renderSecondary secondary) with ⟨found, cut⟩
    rw [Quantity.render, readValuesAs?, cut]
    cases secondary with
    | none => rfl
    | some quantity =>
        have rest : ∀ c ∈ quantity.render, isAsciiBlank c = false := by
          intro c member
          exact noBlank c (by simp [ClassToken.renderSecondary, member])
        simpa [ClassToken.renderSecondary] using
          isSome_readQuantity? (isSecondary quantity rfl) rest

theorem isSome_readBare? {types : List Text} {token : ClassToken}
    (derived : token.IsDerived types)
    (noBlank : ∀ c ∈ token.primary.render ++ ClassToken.renderSecondary token.secondary,
      isAsciiBlank c = false) :
    ((ofTypes types).readBare? (token.kind ++ '-' ::
      (token.primary.render ++ ClassToken.renderSecondary token.secondary))).isSome := by
  have values := isSome_readValues? derived.primary derived.secondary noBlank
  rw [readBare?, Option.isSome_or, Bool.or_eq_true]
  rcases derived.kind with registered | bracketed
  · left
    refine List.findSome?_isSome_iff.mpr ⟨token.kind, mem_ofTypes.mpr registered, ?_⟩
    rw [readWithType?, Text.after?_eq_some_iff.mpr rfl]
    simpa [readAfterKind?] using values
  · right
    rw [readBracketKind?, ValueForm.cutBracket?_append bracketed]
    simpa [readAfterKind?] using values

/-- Every class name of a derived token is read: behind its scope if it has one, for the scope has
no colon, and else as a whole. -/
theorem isSome_read? {types : List Text} {token : ClassToken} (derived : token.IsDerived types)
    (noBlank : ∀ c ∈ token.render, isAsciiBlank c = false) :
    ((ofTypes types).read? token.render).isSome := by
  rw [ClassToken.render_eq] at noBlank ⊢
  have bare := isSome_readBare? derived fun c member => noBlank c (by
    rcases List.mem_append.mp member with inPrimary | inSecondary <;> simp [*])
  rw [read?, Option.isSome_or, Bool.or_eq_true]
  cases found : token.scope with
  | none =>
      right
      simpa [ClassToken.renderScope] using bare
  | some scope =>
      left
      have parts {rest : Text} : splitScope? (scope ++ ':' :: rest) = some (scope, rest) :=
        splitScope?_eq_some_iff.mpr ⟨rfl, derived.scope scope found⟩
      rw [readBehindScope?, ClassToken.renderScope, List.append_assoc, List.singleton_append,
        parts]
      simpa using bare

/-- The reader accepts exactly the class names of derived tokens. What it gives is derived and holds
every character of the class name, and its bare name is the class name behind the scope. -/
theorem read?_iff_isDerived (types : List Text) {className : Text}
    (noBlank : ∀ c ∈ className, isAsciiBlank c = false) :
    ((∃ token, (ofTypes types).read? className = some token) ↔
        ∃ token : ClassToken, token.IsDerived types ∧ token.render = className) ∧
      ∀ token, (ofTypes types).read? className = some token →
        token.IsDerived types ∧ token.render = className ∧
          ClassToken.renderScope token.scope ++ token.bareName className = className := by
  have sound : ∀ token, (ofTypes types).read? className = some token →
      token.IsDerived types ∧ token.render = className := by
    intro token found
    rcases read?_sound found with ⟨derived, whole⟩
    exact ⟨derived.mono fun _ => mem_ofTypes.mp, whole⟩
  refine ⟨⟨?_, ?_⟩, ?_⟩
  · rintro ⟨token, found⟩
    exact ⟨token, sound token found⟩
  · rintro ⟨token, derived, rfl⟩
    exact Option.isSome_iff_exists.mp (isSome_read? derived noBlank)
  · intro token found
    rcases sound token found with ⟨derived, whole⟩
    have parts := whole.symm.trans token.render_eq
    exact ⟨derived, whole, ClassToken.renderScope_append_bareName parts⟩

/-- The scope ends at the first colon although the values hold a second one, and the unit of the
second quantity stands behind its bracket. -/
theorem read?_iff_isDerived_sample :
    (∀ c ∈ "hover:bg-im-10px/[a:b]%".toList, isAsciiBlank c = false) ∧
      ∃ token : ClassToken, token.IsDerived ["bg".toList, "bg-im".toList] ∧
        token.render = "hover:bg-im-10px/[a:b]%".toList := by
  have noBlank : ∀ c ∈ "hover:bg-im-10px/[a:b]%".toList, isAsciiBlank c = false :=
    Text.eq_false_of_any (by decide)
  refine ⟨noBlank, (read?_iff_isDerived ["bg".toList, "bg-im".toList] noBlank).1.mp ?_⟩
  refine ⟨⟨some "hover".toList, "bg-im".toList, ⟨"10".toList, "px".toList⟩,
    some ⟨"[a:b]".toList, "%".toList⟩⟩, ?_⟩
  decide

end Grammar

end UtilityCss
