import UtilityCss.Expansion.Value
import UtilityCss.Proofs.Text.Cutting
import UtilityCss.Proofs.Text.Delimiting

/-!
# Placeholders in bracketed literals

A bracketed literal is read from the left. A brace opens a placeholder when it is closed later and
not at once; what stands between is the name of a value, and reading goes on behind it. Every other
brace is text. So a text is empty, or starts with a character that is no opening brace, with a brace
that is never closed, or with a closed pair of braces, and the equations of the reader follow these
shapes.

Nothing but a placeholder for an unregistered value can keep a quantity from being resolved.
-/

namespace UtilityCss

universe u v w

theorem exists_map_eq_error_iff {ε : Type u} {α : Type v} {β : Type w} {f : α → β}
    {outcome : Except ε α} :
    (∃ cause, outcome.map f = .error cause) ↔ ∃ cause, outcome = .error cause := by
  cases outcome <;> simp [Except.map]

namespace Value

variable {values : ValueRegistry}

/-- A text holds a placeholder of the name: reading it from the left comes to the name between
braces. -/
inductive HasPlaceholder (name : Text) : Text → Prop where
  | here {behind : Text} (nonempty : name ≠ []) (noClose : '}' ∉ name) :
      HasPlaceholder name ('{' :: name ++ '}' :: behind)
  | behindBraces {between behind : Text} (noClose : '}' ∉ between)
      (later : HasPlaceholder name behind) :
      HasPlaceholder name ('{' :: between ++ '}' :: behind)
  | behindChar {c : Char} {behind : Text} (noBrace : c ≠ '{')
      (later : HasPlaceholder name behind) : HasPlaceholder name (c :: behind)

/-! ## Shapes of texts -/

/-- The shapes in which a text is read from the left. -/
theorem bracesInduction {motive : Text → Prop} (nil : motive [])
    (char : ∀ c rest, c ≠ '{' → motive rest → motive (c :: rest))
    (unclosed : ∀ rest, '}' ∉ rest → motive ('{' :: rest))
    (braces : ∀ between behind, '}' ∉ between → motive behind →
      motive ('{' :: between ++ '}' :: behind)) :
    ∀ text, motive text
  | [] => nil
  | c :: rest => by
      by_cases brace : c = '{'
      · subst c
        by_cases closed : '}' ∈ rest
        · rcases List.eq_append_cons_of_mem closed with ⟨between, behind, whole, noClose⟩
          have shorter : behind.length < rest.length := by
            rw [whole]
            simp
            omega
          rw [whole]
          exact braces between behind noClose
            (bracesInduction nil char unclosed braces behind)
        · exact unclosed rest closed
      · exact char c rest brace (bracesInduction nil char unclosed braces rest)
termination_by text => text.length
decreasing_by
  · simp only [List.length_cons]
    omega
  · simp

theorem not_hasPlaceholder_nil (name : Text) : ¬ HasPlaceholder name [] := by
  intro found
  cases found

theorem hasPlaceholder_cons_iff {name rest : Text} {c : Char} (noBrace : c ≠ '{') :
    HasPlaceholder name (c :: rest) ↔ HasPlaceholder name rest := by
  constructor
  · intro found
    cases found with
    | here nonempty noClose => exact absurd rfl noBrace
    | behindBraces noClose later => exact absurd rfl noBrace
    | behindChar different later => exact later
  · exact .behindChar noBrace

theorem not_hasPlaceholder_of_unclosed {name rest : Text} (noClose : '}' ∉ rest) :
    ¬ HasPlaceholder name ('{' :: rest) := by
  generalize whole : '{' :: rest = text
  intro found
  cases found with
  | here _ _ =>
      apply noClose
      rw [(List.cons.inj whole).2]
      simp
  | behindBraces _ _ =>
      apply noClose
      rw [(List.cons.inj whole).2]
      simp
  | behindChar noBrace _ => exact noBrace (List.cons.inj whole).1.symm

theorem hasPlaceholder_braces_iff {name between behind : Text} (noClose : '}' ∉ between) :
    HasPlaceholder name ('{' :: between ++ '}' :: behind) ↔
      (between ≠ [] ∧ name = between) ∨ HasPlaceholder name behind := by
  constructor
  · generalize whole : '{' :: between ++ '}' :: behind = text
    intro found
    cases found with
    | here nonempty noCloseName =>
        rcases Text.append_cons_inj_of_not_mem noClose noCloseName (List.cons.inj whole).2 with
          ⟨rfl, _⟩
        exact Or.inl ⟨nonempty, rfl⟩
    | behindBraces noCloseOther later =>
        rcases Text.append_cons_inj_of_not_mem noClose noCloseOther (List.cons.inj whole).2 with
          ⟨_, rfl⟩
        exact Or.inr later
    | behindChar noBrace later => exact absurd (List.cons.inj whole).1.symm noBrace
  · rintro (⟨nonempty, rfl⟩ | later)
    · exact .here nonempty noClose
    · exact .behindBraces noClose later

/-! ## Equations of the reader -/

theorem fillFrom_open_append {between behind : Text} (noClose : '}' ∉ between) (pending : Text) :
    fillFrom values (some pending) (between ++ behind) =
      fillFrom values (some (pending ++ between)) behind := by
  induction between generalizing pending with
  | nil => simp
  | cons c between ih =>
      have noBrace : c ≠ '}' := fun equal => noClose (equal ▸ List.mem_cons_self)
      have later : '}' ∉ between := fun member => noClose (List.mem_cons_of_mem c member)
      rw [List.cons_append, fillFrom, if_neg noBrace, ih later, List.append_assoc,
        List.singleton_append]

theorem fillPlaceholders_nil : fillPlaceholders values [] = .ok [] := rfl

theorem fillPlaceholders_cons {c : Char} (noBrace : c ≠ '{') (rest : Text) :
    fillPlaceholders values (c :: rest) = (fillPlaceholders values rest).map (c :: ·) := by
  rw [fillPlaceholders, fillFrom, if_neg noBrace]
  rfl

theorem fillPlaceholders_unclosed {rest : Text} (noClose : '}' ∉ rest) :
    fillPlaceholders values ('{' :: rest) = .ok ('{' :: rest) := by
  have opened : fillFrom values (some []) (rest ++ []) = fillFrom values (some rest) [] :=
    fillFrom_open_append noClose []
  rw [List.append_nil] at opened
  rw [fillPlaceholders, fillFrom, if_pos rfl, opened, fillFrom]

theorem fillPlaceholders_empty (behind : Text) :
    fillPlaceholders values ('{' :: '}' :: behind) =
      (fillPlaceholders values behind).map ("\x7b\x7d".toList ++ ·) := by
  rw [fillPlaceholders, fillFrom, if_pos rfl, fillFrom, if_pos rfl]
  rfl

theorem fillPlaceholders_placeholder {name : Text} (nonempty : name ≠ []) (noClose : '}' ∉ name)
    (behind : Text) :
    fillPlaceholders values ('{' :: name ++ '}' :: behind) =
      match values.get? name with
      | none => .error ⟨name⟩
      | some literal => (fillPlaceholders values behind).map (literal ++ ·) := by
  have notEmpty : name.isEmpty = false := by simpa using nonempty
  rw [fillPlaceholders, List.cons_append, fillFrom, if_pos rfl, fillFrom_open_append noClose,
    List.nil_append, fillFrom, if_pos rfl, notEmpty, if_neg Bool.false_ne_true]
  rfl

/-- Filling fails exactly for a text with a placeholder of an unregistered name. -/
theorem fillPlaceholders_fails_iff {text : Text} :
    (∃ cause, fillPlaceholders values text = .error cause) ↔
      ∃ name, HasPlaceholder name text ∧ values.get? name = none := by
  induction text using bracesInduction with
  | nil => simp [fillPlaceholders_nil, not_hasPlaceholder_nil]
  | char c rest noBrace ih =>
      simp only [fillPlaceholders_cons noBrace, exists_map_eq_error_iff, ih,
        hasPlaceholder_cons_iff noBrace]
  | unclosed rest noClose =>
      simp [fillPlaceholders_unclosed noClose, not_hasPlaceholder_of_unclosed noClose]
  | braces between behind noClose ih =>
      by_cases nonempty : between = []
      · subst between
        simp only [List.singleton_append, fillPlaceholders_empty, exists_map_eq_error_iff, ih]
        apply exists_congr
        intro name
        rw [← List.singleton_append, hasPlaceholder_braces_iff noClose]
        simp
      · rw [fillPlaceholders_placeholder nonempty noClose]
        simp only [hasPlaceholder_braces_iff noClose]
        cases registered : values.get? between with
        | none =>
            simp only [Except.error.injEq, exists_eq', true_iff]
            exact ⟨between, Or.inl ⟨nonempty, rfl⟩, registered⟩
        | some literal =>
            simp only [exists_map_eq_error_iff, ih]
            apply exists_congr
            intro name
            apply and_congr_left
            intro unregistered
            have different : name ≠ between := by
              rintro rfl
              rw [registered] at unregistered
              cases unregistered
            simp [different]

end Value

end UtilityCss
