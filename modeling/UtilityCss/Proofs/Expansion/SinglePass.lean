import UtilityCss.Proofs.Expansion.Placeholder

/-!
# Placeholders are filled in one pass

Filling goes over a text once, from the left. Each turn of it comes to the next opening brace: a
closed and nonempty name is replaced by its literal, and the pass goes on behind the closing brace;
a brace that nothing closes, or that is closed at once, is kept, and the pass goes on behind it.
What is written is never read again. Every turn shortens what is ahead, so the pass ends, either
where no opening brace is ahead or at the first name that is not registered.
-/

namespace UtilityCss

namespace Value

variable {values : ValueRegistry}

/-- What stands behind an opening brace that is text: no brace closes it, or one does so at once. -/
def KeepsBrace (rest : Text) : Prop :=
  '}' ∉ rest ∨ rest.head? = some '}'

theorem fillPlaceholders_append {before : Text} (noOpen : '{' ∉ before) (rest : Text) :
    fillPlaceholders values (before ++ rest) =
      (fillPlaceholders values rest).map (before ++ ·) := by
  induction before with
  | nil =>
      rw [List.nil_append]
      cases fillPlaceholders values rest <;> rfl
  | cons c before ih =>
      simp only [List.mem_cons, not_or] at noOpen
      rw [List.cons_append, fillPlaceholders_cons (Ne.symm noOpen.1), ih noOpen.2]
      cases fillPlaceholders values rest <;> rfl

theorem fillPlaceholders_of_noOpen {text : Text} (noOpen : '{' ∉ text) :
    fillPlaceholders values text = .ok text := by
  have filled : fillPlaceholders values (text ++ []) =
      (fillPlaceholders values []).map (text ++ ·) := fillPlaceholders_append noOpen []
  rw [List.append_nil, fillPlaceholders_nil] at filled
  rw [filled]
  simp [Except.map]

theorem fillPlaceholders_of_noClose {text : Text} (noClose : '}' ∉ text) :
    fillPlaceholders values text = .ok text := by
  induction text with
  | nil => rfl
  | cons c rest ih =>
      simp only [List.mem_cons, not_or] at noClose
      by_cases brace : c = '{'
      · subst c
        exact fillPlaceholders_unclosed noClose.2
      · rw [fillPlaceholders_cons brace, ih noClose.2]
        rfl

/-- A brace that is kept leaves what stands behind it to be read on its own. -/
theorem fillPlaceholders_keep {rest : Text} (keeps : KeepsBrace rest) :
    fillPlaceholders values ('{' :: rest) = (fillPlaceholders values rest).map ('{' :: ·) := by
  rcases keeps with noClose | closedAtOnce
  · rw [fillPlaceholders_unclosed noClose, fillPlaceholders_of_noClose noClose]
    rfl
  · rcases List.head?_eq_some_iff.mp closedAtOnce with ⟨behind, rfl⟩
    rw [fillPlaceholders_empty, fillPlaceholders_cons (by decide)]
    cases fillPlaceholders values behind <;> rfl

/-! ## Texts written with placeholders -/

/-- A placeholder and the text in front of it. The text may hold closing braces, and the name
opening ones. -/
structure Slot where
  before : Text
  name : Text
  noOpen : '{' ∉ before
  nonempty : name ≠ []
  noClose : '}' ∉ name

namespace Slot

def write (slot : Slot) : Text :=
  slot.before ++ ('{' :: slot.name ++ ['}'])

def fill (values : ValueRegistry) (slot : Slot) : Text :=
  slot.before ++ (values.get? slot.name).getD []

end Slot

theorem fillPlaceholders_slot (slot : Slot) (rest : Text) :
    fillPlaceholders values (slot.write ++ rest) =
      match values.get? slot.name with
      | none => .error ⟨slot.name⟩
      | some literal =>
        (fillPlaceholders values rest).map (slot.before ++ literal ++ ·) := by
  have parts : slot.write ++ rest = slot.before ++ ('{' :: slot.name ++ '}' :: rest) := by
    simp [Slot.write]
  rw [parts, fillPlaceholders_append slot.noOpen,
    fillPlaceholders_placeholder slot.nonempty slot.noClose]
  cases values.get? slot.name with
  | none => rfl
  | some literal => cases fillPlaceholders values rest <;> simp [Except.map]

theorem fillPlaceholders_slots (slots : List Slot) {last : Text} (noOpen : '{' ∉ last) :
    fillPlaceholders values (slots.flatMap Slot.write ++ last) =
      match slots.find? fun slot => (values.get? slot.name).isNone with
      | some slot => .error ⟨slot.name⟩
      | none => .ok (slots.flatMap (Slot.fill values) ++ last) := by
  induction slots with
  | nil => exact fillPlaceholders_of_noOpen noOpen
  | cons slot slots ih =>
      rw [List.flatMap_cons, List.append_assoc, fillPlaceholders_slot, ih, List.find?_cons]
      cases registered : values.get? slot.name with
      | none => rfl
      | some literal =>
          cases slots.find? fun slot => (values.get? slot.name).isNone <;>
            simp [Except.map, Slot.fill, registered]

theorem fillPlaceholders_eq_self {text : Text}
    (keeps : ∀ before rest, text = before ++ '{' :: rest → KeepsBrace rest) :
    fillPlaceholders values text = .ok text := by
  induction text with
  | nil => rfl
  | cons c rest ih =>
      have later : fillPlaceholders values rest = .ok rest := by
        apply ih
        intro before behind whole
        exact keeps (c :: before) behind (by rw [whole, List.cons_append])
      by_cases brace : c = '{'
      · subst c
        rw [fillPlaceholders_keep (keeps [] rest rfl), later]
        rfl
      · rw [fillPlaceholders_cons brace, later]
        rfl

/-! ## Turns of the pass -/

/-- Where a pass over a text stands: what it has written, and what it has still to read. -/
structure Pass where
  written : Text
  ahead : Text

namespace Pass

/-- One turn of a pass, at the first opening brace ahead. -/
inductive Turn (values : ValueRegistry) : Pass → Pass → Prop where
  | fill {written behind literal : Text} (slot : Slot)
      (registered : values.get? slot.name = some literal) :
      Turn values ⟨written, slot.write ++ behind⟩ ⟨written ++ slot.before ++ literal, behind⟩
  | keep {written before rest : Text} (noOpen : '{' ∉ before) (keeps : KeepsBrace rest) :
      Turn values ⟨written, before ++ '{' :: rest⟩ ⟨written ++ before ++ ['{'], rest⟩

/-- Turns of a pass, with their number. -/
inductive Turns (values : ValueRegistry) : Nat → Pass → Pass → Prop where
  | none {pass : Pass} : Turns values 0 pass pass
  | more {turns : Nat} {first next last : Pass} (turn : Turn values first next)
      (later : Turns values turns next last) : Turns values (turns + 1) first last

/-- Where a pass makes no more turn, and what comes of it. -/
inductive Ends (values : ValueRegistry) : Pass → Except UnknownValue Text → Prop where
  | finished {written ahead : Text} (noOpen : '{' ∉ ahead) :
      Ends values ⟨written, ahead⟩ (.ok (written ++ ahead))
  | failed {written behind : Text} (slot : Slot)
      (unregistered : values.get? slot.name = none) :
      Ends values ⟨written, slot.write ++ behind⟩ (.error ⟨slot.name⟩)

/-- What filling makes of the text ahead, behind what is written. -/
def outcome (values : ValueRegistry) (pass : Pass) : Except UnknownValue Text :=
  (fillPlaceholders values pass.ahead).map (pass.written ++ ·)

theorem Turn.length_lt {first next : Pass} (turn : Turn values first next) :
    next.ahead.length < first.ahead.length := by
  cases turn with
  | fill slot registered =>
      simp [Slot.write]
      omega
  | keep noOpen keeps =>
      simp
      omega

/-- A turn leaves the outcome as it is. -/
theorem Turn.outcome_eq {first next : Pass} (turn : Turn values first next) :
    first.outcome values = next.outcome values := by
  cases turn with
  | @fill written behind literal slot registered =>
      simp only [outcome, fillPlaceholders_slot, registered]
      cases fillPlaceholders values behind <;> simp [Except.map]
  | @keep written before rest noOpen keeps =>
      simp only [outcome, fillPlaceholders_append noOpen, fillPlaceholders_keep keeps]
      cases fillPlaceholders values rest <;> simp [Except.map]

theorem Ends.outcome_eq {last : Pass} {result : Except UnknownValue Text}
    (ends : Ends values last result) : last.outcome values = result := by
  cases ends with
  | finished noOpen => simp only [outcome, fillPlaceholders_of_noOpen noOpen, Except.map]
  | failed slot unregistered =>
      simp only [outcome, fillPlaceholders_slot, unregistered]
      rfl

theorem Turns.length_le {turns : Nat} {first last : Pass} (run : Turns values turns first last) :
    turns + last.ahead.length ≤ first.ahead.length := by
  induction run with
  | none => simp
  | more turn later ih =>
      have shorter := turn.length_lt
      omega

theorem Turns.outcome_eq {turns : Nat} {first last : Pass}
    (run : Turns values turns first last) : first.outcome values = last.outcome values := by
  induction run with
  | none => rfl
  | more turn later ih => rw [turn.outcome_eq, ih]

/-- A pass either makes a turn or has come to its end. -/
theorem exists_turn_or_ends (values : ValueRegistry) (pass : Pass) :
    (∃ next, Turn values pass next) ∨ ∃ result, Ends values pass result := by
  rcases pass with ⟨written, ahead⟩
  by_cases opened : '{' ∈ ahead
  · rcases List.eq_append_cons_of_mem opened with ⟨before, rest, rfl, noOpen⟩
    by_cases closed : '}' ∈ rest
    · rcases List.eq_append_cons_of_mem closed with ⟨name, behind, rfl, noClose⟩
      by_cases nonempty : name = []
      · exact Or.inl ⟨_, .keep noOpen (Or.inr (by simp [nonempty]))⟩
      · let slot : Slot := ⟨before, name, noOpen, nonempty, noClose⟩
        have parts : before ++ '{' :: (name ++ '}' :: behind) = slot.write ++ behind := by
          simp [slot, Slot.write]
        rw [parts]
        cases registered : values.get? name with
        | none => exact Or.inr ⟨_, .failed slot registered⟩
        | some literal => exact Or.inl ⟨_, .fill slot registered⟩
    · exact Or.inl ⟨_, .keep noOpen (Or.inl closed)⟩
  · exact Or.inr ⟨_, .finished opened⟩

/-- Every pass comes to its end. -/
theorem exists_run_ends (values : ValueRegistry) (pass : Pass) :
    ∃ turns last, Turns values turns pass last ∧ Ends values last (pass.outcome values) := by
  -- the text ahead gets shorter with every turn
  induction size : pass.ahead.length using Nat.strongRecOn generalizing pass with
  | ind size ih =>
      rcases exists_turn_or_ends values pass with ⟨next, turn⟩ | ⟨result, ends⟩
      · have shorter := turn.length_lt
        rcases ih next.ahead.length (by omega) next rfl with ⟨turns, last, later, ends⟩
        exact ⟨turns + 1, last, .more turn later, turn.outcome_eq ▸ ends⟩
      · exact ⟨0, pass, .none, ends.outcome_eq ▸ ends⟩

theorem outcome_start (values : ValueRegistry) (text : Text) :
    outcome values ⟨[], text⟩ = fillPlaceholders values text := by
  cases filled : fillPlaceholders values text <;> simp [outcome, filled, Except.map]

end Pass

/-- Filling the placeholders of a text. A text that is written with placeholders has their literals
in their place, unless a name is not registered; then the first such name is the cause of the
failure. A brace that is kept is text, with the pass going on behind it, so a text in which every
opening brace is kept stays as it is. For any text the outcome is the one of the pass over it, and
no pass makes more turns than the text has characters. -/
theorem fillPlaceholders_single_pass (values : ValueRegistry) :
    (∀ (slots : List Slot) (last : Text), '{' ∉ last →
      fillPlaceholders values (slots.flatMap Slot.write ++ last) =
        match slots.find? fun slot => (values.get? slot.name).isNone with
        | some slot => .error ⟨slot.name⟩
        | none => .ok (slots.flatMap (Slot.fill values) ++ last)) ∧
      (∀ before rest : Text, '{' ∉ before → KeepsBrace rest →
        fillPlaceholders values (before ++ '{' :: rest) =
          (fillPlaceholders values rest).map (before ++ '{' :: ·)) ∧
      (∀ text : Text, (∀ before rest, text = before ++ '{' :: rest → KeepsBrace rest) →
        fillPlaceholders values text = .ok text) ∧
      ∀ text : Text,
        (∀ result, fillPlaceholders values text = result ↔
          ∃ turns last, Pass.Turns values turns ⟨[], text⟩ last ∧ last.Ends values result) ∧
        ∀ turns later, Pass.Turns values turns ⟨[], text⟩ later → turns ≤ text.length := by
  refine ⟨fun slots last noOpen => fillPlaceholders_slots slots noOpen, ?_,
    fun text keeps => fillPlaceholders_eq_self keeps, fun text => ⟨fun result => ?_, ?_⟩⟩
  · intro before rest noOpen keeps
    rw [fillPlaceholders_append noOpen, fillPlaceholders_keep keeps]
    cases fillPlaceholders values rest <;> rfl
  · rw [← Pass.outcome_start]
    constructor
    · rintro rfl
      exact Pass.exists_run_ends values ⟨[], text⟩
    · rintro ⟨turns, last, run, ends⟩
      rw [run.outcome_eq, ends.outcome_eq]
  · intro turns later run
    have shorter : turns + later.ahead.length ≤ text.length := run.length_le
    omega

/-- A literal that looks like a placeholder, a name that holds an opening brace, and braces that
are kept. -/
theorem fillPlaceholders_single_pass_sample :
    let values : ValueRegistry :=
      .ofList [("red".toList, "\x7bn\x7bm\x7d".toList), ("n\x7bm".toList, "1".toList)]
    fillPlaceholders values "\x7da\x7bred\x7db\x7bn\x7bm\x7d\x7d".toList =
        .ok "\x7da\x7bn\x7bm\x7db1\x7d".toList ∧
      fillPlaceholders values "\x7bred\x7d\x7bno\x7d\x7bnone\x7d".toList =
        .error ⟨"no".toList⟩ ∧
      fillPlaceholders values ['{', '}', '{'] = .ok ['{', '}', '{'] := by
  intro values
  rcases fillPlaceholders_single_pass values with ⟨template, _, unchanged, _⟩
  let red : Slot := ⟨"\x7da".toList, "red".toList, by decide, by decide, by decide⟩
  let inner : Slot := ⟨['b'], "n\x7bm".toList, by decide, by decide, by decide⟩
  let bare : Slot := ⟨[], "red".toList, by decide, by decide, by decide⟩
  let first : Slot := ⟨[], "no".toList, by decide, by decide, by decide⟩
  let second : Slot := ⟨[], "none".toList, by decide, by decide, by decide⟩
  refine ⟨?_, ?_, ?_⟩
  · exact (template [red, inner] ['}'] (by decide)).trans (by decide)
  · exact (template [bare, first, second] [] (by decide)).trans (by decide)
  · apply unchanged
    intro before rest whole
    rcases before with _ | ⟨_, _ | ⟨_, _ | ⟨_, before⟩⟩⟩
    · cases whole
      exact Or.inr rfl
    · cases whole
    · cases whole
      exact Or.inl List.not_mem_nil
    · simp at whole

end Value

end UtilityCss
