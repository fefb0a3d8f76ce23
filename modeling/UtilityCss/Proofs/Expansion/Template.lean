import UtilityCss.Proofs.Engine.NamedValue

/-!
# Filling templates

The two slots of a template are filled one after the other, so the slot of the secondary value is
looked for in a text that already holds the primary value. That is the same as filling both slots
at once as long as the primary value completes no further slot, neither alone nor together with the
text around it.

Both results come from one text by filling some of its slots: one fills all of them, the other those
that the template has. Slots cannot overlap, so the two differ as soon as their numbers do, unless a
slot is filled with itself.
-/

namespace UtilityCss

namespace Text

/-- The number of positions at which a text that is not empty occurs in another. -/
def occurrences (part : Text) : Text → Nat
  | [] => 0
  | c :: rest => (if part.isPrefixOf (c :: rest) then 1 else 0) + occurrences part rest

end Text

namespace Template

def secondSlot : Text :=
  ['{', '1', '}']

/-- Fills both slots in one pass, so that no filling is read. -/
def fillTogether (primary secondary : Text) : Text → Text
  | '{' :: '0' :: '}' :: rest => primary ++ fillTogether primary secondary rest
  | '{' :: '1' :: '}' :: rest => secondary ++ fillTogether primary secondary rest
  | c :: rest => c :: fillTogether primary secondary rest
  | [] => []

/-- A text in which some of the slots of the secondary value are filled, and their number. -/
inductive PartlyFilled (filling : Text) : Nat → Text → Text → Prop where
  | nil : PartlyFilled filling 0 [] []
  | keep {count : Nat} {before after : Text} (c : Char)
      (rest : PartlyFilled filling count before after) :
      PartlyFilled filling count (c :: before) (c :: after)
  | fill {count : Nat} {before after : Text} (rest : PartlyFilled filling count before after) :
      PartlyFilled filling (count + 1) ('{' :: '1' :: '}' :: before) (filling ++ after)

/-! ## One slot -/

variable {filling : Text}

theorem fillSlot_cons {digit c : Char} {rest : Text}
    (noSlot : ∀ more, c :: rest ≠ '{' :: digit :: '}' :: more) :
    fillSlot digit filling (c :: rest) = c :: fillSlot digit filling rest := by
  rw [fillSlot.eq_def]
  split
  · rename_i d more whole
    have different : d ≠ digit := by
      rintro rfl
      exact noSlot more whole
    rcases List.cons.inj whole with ⟨rfl, rfl⟩
    rw [if_neg different]
  · rename_i whole
    rcases List.cons.inj whole with ⟨rfl, rfl⟩
    rfl
  · rename_i whole
    cases whole

theorem occurrences_cons {c : Char} {rest : Text}
    (noSlot : ∀ more, c :: rest ≠ '{' :: '1' :: '}' :: more) :
    Text.occurrences secondSlot (c :: rest) = Text.occurrences secondSlot rest := by
  have notStarting : secondSlot.isPrefixOf (c :: rest) = false := by
    apply Bool.eq_false_iff.mpr
    intro starts
    rcases List.isPrefixOf_iff_prefix.mp starts with ⟨more, whole⟩
    exact noSlot more whole.symm
  simp [Text.occurrences, notStarting]

theorem occurrences_secondSlot (rest : Text) :
    Text.occurrences secondSlot ('{' :: '1' :: '}' :: rest) =
      Text.occurrences secondSlot rest + 1 := by
  simp [Text.occurrences, secondSlot, Nat.add_comm]

namespace PartlyFilled

variable {count : Nat} {before after : Text}

theorem prepend (kept : Text) (rest : PartlyFilled filling count before after) :
    PartlyFilled filling count (kept ++ before) (kept ++ after) := by
  induction kept with
  | nil => exact rest
  | cons c kept ih => exact ih.keep c

theorem length_add (filled : PartlyFilled filling count before after) :
    after.length + count * 3 = before.length + count * filling.length := by
  induction filled with
  | nil => simp
  | keep c rest ih =>
      simp only [List.length_cons]
      omega
  | fill rest ih =>
      simp only [List.length_cons, List.length_append, Nat.add_mul]
      omega

theorem le_occurrences (filled : PartlyFilled filling count before after) :
    count ≤ Text.occurrences secondSlot before := by
  induction filled with
  | nil => exact Nat.le_refl 0
  | keep c rest ih =>
      rw [Text.occurrences]
      omega
  | fill rest ih =>
      rw [occurrences_secondSlot]
      omega

theorem eq_of_secondSlot (filled : PartlyFilled secondSlot count before after) :
    after = before := by
  induction filled with
  | nil => rfl
  | keep c rest ih => rw [ih]
  | fill rest ih => rw [ih]; rfl

/-- A slot of which the brace is kept is kept. -/
theorem exists_of_slot (filled : PartlyFilled filling count ('1' :: '}' :: before) after) :
    ∃ rest, after = '1' :: '}' :: rest ∧ PartlyFilled filling count before rest := by
  cases filled with
  | keep c rest =>
      cases rest with
      | keep c rest => exact ⟨_, rfl, rest⟩

end PartlyFilled

theorem partlyFilled_fillSlot (filling text : Text) :
    PartlyFilled filling (Text.occurrences secondSlot text) text
      (fillSlot '1' filling text) := by
  fun_induction fillSlot '1' filling text with
  | case1 rest ih =>
      rw [occurrences_secondSlot]
      exact ih.fill
  | case2 d rest different ih =>
      have noSlot : ∀ more, '{' :: d :: '}' :: rest ≠ '{' :: '1' :: '}' :: more := by
        intro more whole
        exact different (List.cons.inj (List.cons.inj whole).2).1
      rw [occurrences_cons noSlot]
      exact ih.keep '{'
  | case3 c rest noSlot ih =>
      have otherwise : ∀ more, c :: rest ≠ '{' :: '1' :: '}' :: more := by
        intro more whole
        rcases List.cons.inj whole with ⟨isBrace, isRest⟩
        exact noSlot '1' more isBrace isRest
      rw [occurrences_cons otherwise]
      exact ih.keep c
  | case4 => exact .nil

/-- Filling all slots of a text that begins with one keeps that one only by filling it with itself.
-/
theorem PartlyFilled.fillSlot_ne {count : Nat} {before after : Text}
    (filled : PartlyFilled filling count before after) (notSame : filling ≠ secondSlot) :
    fillSlot '1' filling ('{' :: '1' :: '}' :: before) ≠ '{' :: '1' :: '}' :: after := by
  intro equal
  rw [fillSlot, if_pos rfl] at equal
  rcases Nat.exists_eq_add_of_le filled.le_occurrences with ⟨more, isMore⟩
  -- both sides come from one text, so by their lengths the filling is as long as the slot
  have wholeLength := (partlyFilled_fillSlot filling before).length_add
  have partLength := filled.length_add
  have equalLength := congrArg List.length equal
  simp only [List.length_append, List.length_cons] at equalLength
  rw [isMore, Nat.add_mul, Nat.add_mul] at wholeLength
  have balance : (1 + more) * filling.length = (1 + more) * 3 := by
    rw [Nat.add_mul, Nat.add_mul]
    omega
  have sameLength : filling.length = secondSlot.length :=
    Nat.eq_of_mul_eq_mul_left (by omega) balance
  exact notSame (List.append_inj_left equal sameLength)

/-- A text in which some slots are filled is the wholly filled one when all of them are, or when
filling them changes nothing. -/
theorem PartlyFilled.fillSlot_eq_iff {count : Nat} {before after : Text}
    (filled : PartlyFilled filling count before after) :
    fillSlot '1' filling before = after ↔
      filling = secondSlot ∨ count = Text.occurrences secondSlot before := by
  by_cases same : filling = secondSlot
  · subst same
    have unchanged := (partlyFilled_fillSlot secondSlot before).eq_of_secondSlot
    simp [unchanged, filled.eq_of_secondSlot]
  · simp only [same, false_or]
    induction filled with
    | nil => simp [fillSlot, Text.occurrences]
    | fill rest ih =>
        rw [occurrences_secondSlot, fillSlot, if_pos rfl, List.append_cancel_left_eq, ih]
        simp
    | @keep count before after c rest ih =>
        by_cases starts : ∃ more, c :: before = '{' :: '1' :: '}' :: more
        · rcases starts with ⟨more, whole⟩
          rcases List.cons.inj whole with ⟨rfl, rfl⟩
          rcases rest.exists_of_slot with ⟨behind, rfl, inner⟩
          have tooFew := inner.le_occurrences
          rw [occurrences_secondSlot]
          constructor
          · exact fun equal => absurd equal (inner.fillSlot_ne same)
          · omega
        · have noSlot : ∀ more, c :: before ≠ '{' :: '1' :: '}' :: more := not_exists.mp starts
          rw [fillSlot_cons noSlot, occurrences_cons noSlot, List.cons_inj_right, ih]

/-! ## Both slots -/

theorem occurrences_of_firstSlot (rest : Text) :
    Text.occurrences secondSlot ('{' :: '0' :: '}' :: rest) =
      Text.occurrences secondSlot rest := by
  simp [Text.occurrences, secondSlot]

/-- Filling both slots at once fills those slots of the secondary value that the template has. -/
theorem partlyFilled_fillTogether (primary secondary template : Text) :
    PartlyFilled secondary (Text.occurrences secondSlot template)
      (fillSlot '0' primary template) (fillTogether primary secondary template) := by
  fun_induction fillTogether primary secondary template with
  | case1 rest ih =>
      rw [occurrences_of_firstSlot, fillSlot, if_pos rfl]
      exact ih.prepend primary
  | case2 rest ih =>
      rw [occurrences_secondSlot]
      simpa [fillSlot] using ih.fill
  | case3 c rest noFirst noSecond ih =>
      have notFirst : ∀ more, c :: rest ≠ '{' :: '0' :: '}' :: more := by
        intro more whole
        rcases List.cons.inj whole with ⟨isBrace, isRest⟩
        exact noFirst more isBrace isRest
      have notSecond : ∀ more, c :: rest ≠ '{' :: '1' :: '}' :: more := by
        intro more whole
        rcases List.cons.inj whole with ⟨isBrace, isRest⟩
        exact noSecond more isBrace isRest
      rw [fillSlot_cons notFirst, occurrences_cons notSecond]
      exact ih.keep c
  | case4 => exact .nil

/-- Filling the slots one after the other is filling them together exactly when the primary value
brings no slot of the secondary value into the text, or the secondary value is that slot. -/
theorem fill_eq_fillTogether_iff (template primary secondary : Text) :
    fill template primary secondary = fillTogether primary secondary template ↔
      secondary = secondSlot ∨ Text.occurrences secondSlot (fillSlot '0' primary template) =
        Text.occurrences secondSlot template := by
  rw [fill, (partlyFilled_fillTogether primary secondary template).fillSlot_eq_iff,
    eq_comm (a := Text.occurrences secondSlot template)]

end Template

namespace Shorthand

theorem resolve_of_templated {config : Config} {token : ClassToken}
    (notBracket : token.isBracketKind = false) {properties : List Text}
    {template primary secondary : Text}
    (registered : config.property.get? token.kind = some (.templated properties template))
    (resolved : resolveQuantity config token.primary = .ok primary)
    (resolvedSecond : resolveSecondary config token.secondary = .ok secondary) :
    resolve config token = .ok (some
      ⟨properties.map fun property => ⟨property, Template.fill template primary secondary⟩,
        primary⟩) := by
  rw [resolve, notBracket, registered, resolved]
  simp only [Bool.false_eq_true, if_false, Except.bind, entryDeclarations, resolvedSecond]
  rfl

/-- The declarations of a type with a template. Their value is the template with both slots filled
at once exactly when filling the first slot completes no further second slot, or the second one is
filled with itself; otherwise a part of the primary value is taken for a slot. -/
theorem value_eq_fillTogether_iff {config : Config} {token : ClassToken}
    (notBracket : token.isBracketKind = false) {properties : List Text}
    {template primary secondary : Text}
    (registered : config.property.get? token.kind = some (.templated properties template))
    (resolved : resolveQuantity config token.primary = .ok primary)
    (resolvedSecond : resolveSecondary config token.secondary = .ok secondary) :
    ∃ shorthand, resolve config token = .ok (some shorthand) ∧ shorthand.value = primary ∧
      shorthand.declarations.map Declaration.property = properties ∧
      ((∀ declaration ∈ shorthand.declarations,
          declaration.value = Template.fillTogether primary secondary template) ↔
        properties = [] ∨ secondary = Template.secondSlot ∨
          Text.occurrences Template.secondSlot (Template.fillSlot '0' primary template) =
            Text.occurrences Template.secondSlot template) := by
  refine ⟨_, resolve_of_templated notBracket registered resolved resolvedSecond, rfl, ?_, ?_⟩
  · rw [List.map_map]
    exact List.map_id' properties
  · rw [← Template.fill_eq_fillTogether_iff]
    cases properties with
    | nil => simp
    | cons property properties =>
        constructor
        · intro values
          exact Or.inr (values _ List.mem_cons_self)
        · rintro (empty | filled) declaration member
          · cases empty
          · rcases List.mem_map.mp member with ⟨_, _, rfl⟩
            exact filled

theorem value_eq_fillTogether_iff_sample :
    let template := "rgb(\x7b0\x7d / \x7b1\x7d)".toList
    let config := (Config.empty.withProperty "shade".toList
      (.templated ["color".toList, "fill".toList] template)).withValue "red".toList "9 0 0".toList
    ∃ token shorthand, config.grammar.read? "shade-red/50%".toList = some token ∧
      resolve config token = .ok (some shorthand) ∧
      ∀ declaration ∈ shorthand.declarations, declaration.value = "rgb(9 0 0 / 50%)".toList := by
  intro template config
  let token : ClassToken :=
    ⟨none, "shade".toList, ⟨"red".toList, []⟩, some ⟨"50".toList, "%".toList⟩⟩
  have read : config.grammar.read? "shade-red/50%".toList = some token := by decide
  have registered : config.property.get? token.kind =
      some (.templated ["color".toList, "fill".toList] template) := by decide
  have resolved : resolveQuantity config token.primary = .ok "9 0 0".toList := by decide
  have resolvedSecond : resolveSecondary config token.secondary = .ok "50%".toList := by decide
  rcases value_eq_fillTogether_iff (by decide) registered resolved resolvedSecond with
    ⟨shorthand, result, _, _, values⟩
  refine ⟨token, shorthand, read, result, ?_⟩
  have together := values.mpr (Or.inr (Or.inr (by decide)))
  exact fun declaration member => (together declaration member).trans (by decide)

/-- A registered literal that is written like a slot is replaced by the secondary value. -/
theorem primary_filled_as_slot :
    let template := "rgb(\x7b0\x7d / \x7b1\x7d)".toList
    let config := (Config.empty.withProperty "shade".toList
      (.templated ["color".toList] template)).withValue "odd".toList "\x7b1\x7d".toList
    let token : ClassToken :=
      ⟨none, "shade".toList, ⟨"odd".toList, []⟩, some ⟨"50".toList, "%".toList⟩⟩
    config.validate = [] ∧ config.grammar.read? "shade-odd/50%".toList = some token ∧
      resolveQuantity config token.primary = .ok "\x7b1\x7d".toList ∧
      resolveSecondary config token.secondary = .ok "50%".toList ∧
      resolve config token =
        .ok (some ⟨[⟨"color".toList, "rgb(50% / 50%)".toList⟩], "\x7b1\x7d".toList⟩) ∧
      Template.fillTogether "\x7b1\x7d".toList "50%".toList template =
        "rgb(\x7b1\x7d / 50%)".toList ∧
      "rgb(50% / 50%)".toList ≠ "rgb(\x7b1\x7d / 50%)".toList :=
  ⟨by decide, by decide, by decide, by decide, by decide, by decide, by decide⟩

end Shorthand

end UtilityCss
