import Mathlib.Data.List.Forall2
import UtilityCss.Config.Writer
import UtilityCss.Json.Number
import UtilityCss.Proofs.Json.Quoted

/-!
# Written JSON values

What the writer puts together is read back piece by piece: a written value is cut off wherever it
stands in front of something that may follow a value, and arrays and objects are cut off when their
items are. `IsText` says this of one text and one value.

The reader is given fuel, two calls for each character. An array spends a call on itself and one on
each item, and writes a bracket and a comma for them.
-/

namespace UtilityCss

namespace Text

theorem isDigit_of_mem_ofNat {n : Nat} {c : Char} (member : c ∈ ofNat n) : c.isDigit = true :=
  Nat.isDigit_of_mem_toDigits (by omega) (by omega) member

theorem ofNat_ne_nil (n : Nat) : ofNat n ≠ [] :=
  Nat.toDigits_ne_nil

/-- Only zero is written with a zero in front. -/
theorem eq_zero_of_head?_ofNat {n : Nat} (starts : (ofNat n).head? = some '0') : n = 0 := by
  induction n using Nat.strongRecOn with
  | ind n ih =>
      by_cases small : n < 10
      · have single : ∀ digit < 10, (ofNat digit).head? = some '0' → digit = 0 := by decide
        exact single n small starts
      · have split : ofNat n = ofNat (n / 10) ++ [(n % 10).digitChar] :=
          Nat.toDigits_of_base_le (by omega) (by omega)
        rw [split, List.head?_append_of_ne_nil _ (ofNat_ne_nil _)] at starts
        have zero := ih (n / 10) (by omega) starts
        omega

end Text

theorem Real.digitsValue_ofNat (n : Nat) : Real.digitsValue (Text.ofNat n) = n := by
  have value : Nat.ofDigitChars 10 (Text.ofNat n) 0 = n := Nat.ofDigitChars_ten_toDigits
  rw [Nat.ofDigitChars_eq_foldl] at value
  simpa only [Real.digitsValue, Nat.mul_comm 10] using value

/-- A natural number as it is written. -/
def JsonNumber.ofNat (n : Nat) : JsonNumber :=
  ⟨false, Text.ofNat n, none, none⟩

theorem JsonNumber.datum?_ofNat {n : Nat} (small : n < significandBound) :
    (ofNat n).datum? = some (.natural n) := by
  simp [datum?, ofNat, Real.digitsValue_ofNat, small]

namespace Json

/-- A text may stand behind a value inside of a document. -/
def EndsValue (rest : Text) : Prop :=
  ∀ c ∈ rest.head?, c = ',' ∨ c = ']' ∨ c = '}'

theorem endsValue_nil : EndsValue [] := by
  simp [EndsValue]

theorem endsValue_cons {c : Char} (ends : c = ',' ∨ c = ']' ∨ c = '}') (rest : Text) :
    EndsValue (c :: rest) := by
  simpa [EndsValue] using ends

/-- A text that is read as a value wherever it stands. -/
structure IsText (text : Text) (value : Json) : Prop where
  starts : ∃ c rest, text = c :: rest ∧ isSpace c = false ∧ c ≠ ']'
  cut : ∀ fuel rest, 2 * text.length ≤ fuel → EndsValue rest →
    cutValue? fuel (text ++ rest) = some (value, rest)

theorem skipSpace_cons {c : Char} (notSpace : isSpace c = false) (rest : Text) :
    skipSpace (c :: rest) = c :: rest := by
  simp [skipSpace, notSpace]

theorem IsText.skipSpace_append {text : Text} {value : Json} (isText : IsText text value)
    (rest : Text) : skipSpace (text ++ rest) = text ++ rest := by
  rcases isText.starts with ⟨c, more, rfl, notSpace, _⟩
  exact skipSpace_cons notSpace (more ++ rest)

/-! ## Strings and numbers -/

theorem isText_encode (text : Text) : IsText (encode text) (.string (quotedBody text)) := by
  refine ⟨⟨'"', _, rfl, by decide, by decide⟩, ?_⟩
  intro fuel rest enough _
  cases fuel with
  | zero => simp [encode] at enough
  | succ fuel =>
      rw [encode_append, cutValue?, cutString?_quotedBody_append]
      rfl

theorem takeWhile_ofNat_append {n : Nat} {rest : Text} (ends : EndsValue rest) :
    (Text.ofNat n ++ rest).takeWhile Char.isDigit = Text.ofNat n ∧
      (Text.ofNat n ++ rest).dropWhile Char.isDigit = rest := by
  have digits : ∀ c ∈ Text.ofNat n, c.isDigit = true := fun c => Text.isDigit_of_mem_ofNat
  have stops : ∀ c ∈ rest.head?, c.isDigit = false := by
    intro c isHead
    rcases ends c isHead with rfl | rfl | rfl <;> decide
  rw [List.takeWhile_append_of_pos digits, List.dropWhile_append_of_pos digits]
  cases rest with
  | nil => simp
  | cons c rest => simp [stops c rfl]

theorem cutNumber?_ofNat_append {n : Nat} {rest : Text} (ends : EndsValue rest) :
    cutNumber? (Text.ofNat n ++ rest) = some (.ofNat n, rest) := by
  rcases takeWhile_ofNat_append (n := n) ends with ⟨whole, behind⟩
  rcases List.exists_cons_of_ne_nil (Text.ofNat_ne_nil n) with ⟨first, more, digits⟩
  have isDigit : first.isDigit = true :=
    Text.isDigit_of_mem_ofNat (n := n) (digits ▸ List.mem_cons_self)
  have canonical : first = '0' → more = [] := by
    rintro rfl
    have zero : n = 0 := Text.eq_zero_of_head?_ofNat (by rw [digits]; rfl)
    subst zero
    exact (List.cons.inj digits).2.symm
  have noFraction : cutFraction? rest = some (none, rest) := by
    cases rest with
    | nil => rfl
    | cons c rest => rcases ends c rfl with rfl | rfl | rfl <;> rfl
  have noExponent : cutExponent? rest = some (none, rest) := by
    cases rest with
    | nil => rfl
    | cons c rest => rcases ends c rfl with rfl | rfl | rfl <;> rfl
  have notMinus : ∀ text, Text.ofNat n ++ rest ≠ '-' :: text := by
    intro text equal
    rw [digits, List.cons_append] at equal
    rw [(List.cons.inj equal).1] at isDigit
    cases isDigit
  rw [cutNumber?, whole, behind, digits]
  · rw [if_pos]
    · simp [noFraction, noExponent, JsonNumber.ofNat, digits]
    · split <;> simp_all
  · exact fun text => notMinus text

theorem isText_ofNat (n : Nat) : IsText (Text.ofNat n) (.number (.ofNat n)) := by
  rcases List.exists_cons_of_ne_nil (Text.ofNat_ne_nil n) with ⟨first, more, digits⟩
  have isDigit : first.isDigit = true :=
    Text.isDigit_of_mem_ofNat (n := n) (digits ▸ List.mem_cons_self)
  have other : ∀ c, c.isDigit = false → first ≠ c := by
    rintro c notDigit rfl
    rw [notDigit] at isDigit
    cases isDigit
  refine ⟨⟨first, more, digits, ?_, other ']' (by decide)⟩, ?_⟩
  · simp [isSpace, other ' ' (by decide), other '\n' (by decide), other '\t' (by decide),
      other '\r' (by decide)]
  · intro fuel rest enough ends
    have cut := cutNumber?_ofNat_append (n := n) ends
    cases fuel with
    | zero => simp [digits] at enough
    | succ fuel =>
        rw [digits, List.cons_append] at cut ⊢
        rw [cutValue?, cut]
        · rfl
        all_goals
          intros
          simp_all [Char.isDigit]

/-! ## Arrays and objects -/

theorem IsText.ne_closing {text : Text} {value : Json} (isText : IsText text value)
    (rest tail : Text) : text ++ rest ≠ ']' :: tail := by
  rcases isText.starts with ⟨c, more, rfl, _, notClosing⟩
  intro equal
  exact notClosing (List.cons.inj equal).1

theorem cutItems?_join {texts : List Text} {values : List Json}
    (areTexts : List.Forall₂ IsText texts values) (nonempty : texts ≠ []) {fuel : Nat}
    (enough : 2 * (Text.join [','] texts).length < fuel) (rest : Text) :
    cutItems? fuel (Text.join [','] texts ++ ']' :: rest) = some (values, rest) := by
  induction areTexts generalizing fuel with
  | nil => exact absurd rfl nonempty
  | @cons text value texts values isText areTexts ih =>
      cases fuel with
      | zero => omega
      | succ fuel =>
          cases areTexts with
          | nil =>
              have cut := isText.cut fuel (']' :: rest) (by simp [Text.join] at enough; omega)
                (endsValue_cons (by simp) rest)
              rw [Text.join, cutItems?, isText.skipSpace_append, cut]
              rfl
          | @cons next other texts values isNext areTexts =>
              have joined : Text.join [','] (text :: next :: texts) ++ ']' :: rest =
                  text ++ ',' :: (Text.join [','] (next :: texts) ++ ']' :: rest) := by
                simp [Text.join]
              have lengths : (Text.join [','] (text :: next :: texts)).length =
                  text.length + 1 + (Text.join [','] (next :: texts)).length := by
                simp [Text.join]
                omega
              have cut := isText.cut fuel (',' :: (Text.join [','] (next :: texts) ++ ']' :: rest))
                (by omega) (endsValue_cons (by simp) _)
              have later : cutItems? fuel (Text.join [','] (next :: texts) ++ ']' :: rest) =
                  some (other :: values, rest) :=
                ih (by simp) (by omega)
              rw [joined, cutItems?, isText.skipSpace_append, cut]
              simp only [skipSpace_cons (show isSpace ',' = false by decide), later]
              rfl

theorem isText_renderArray {texts : List Text} {values : List Json}
    (areTexts : List.Forall₂ IsText texts values) :
    IsText (renderArray texts) (.array values) := by
  refine ⟨⟨'[', _, rfl, by decide, by decide⟩, ?_⟩
  intro fuel rest enough _
  have written : renderArray texts ++ rest = '[' :: (Text.join [','] texts ++ ']' :: rest) := by
    simp [renderArray]
  cases fuel with
  | zero => simp [renderArray] at enough
  | succ fuel =>
      rw [written, cutValue?]
      cases areTexts with
      | nil => rfl
      | @cons text value texts values isText areTexts =>
          have enoughInside : 2 * (Text.join [','] (text :: texts)).length < fuel := by
            simp [renderArray] at enough
            omega
          have items := cutItems?_join (.cons isText areTexts) (by simp) enoughInside rest
          have sameText : ∃ more,
              Text.join [','] (text :: texts) ++ ']' :: rest = text ++ more := by
            cases texts with
            | nil => exact ⟨_, rfl⟩
            | cons next texts => exact ⟨_, by simp [Text.join]; rfl⟩
          rcases sameText with ⟨more, same⟩
          rw [same] at items ⊢
          rw [isText.skipSpace_append]
          split
          · rename_i tail closes
            exact absurd closes (isText.ne_closing more tail)
          · rw [items]
            rfl

/-- A key and the text of its value stand for a member. -/
def IsMember (written : Text × Text) (member : Text × Json) : Prop :=
  member.1 = quotedBody written.1 ∧ IsText written.2 member.2

def renderMembers (members : List (Text × Text)) : Text :=
  Text.join [','] (members.map fun (key, value) => renderMember key value)

theorem renderMember_append (key value rest : Text) :
    renderMember key value ++ rest = '"' :: (quotedBody key ++ '"' :: ':' :: (value ++ rest)) := by
  rw [renderMember, List.append_assoc, encode_append]
  rfl

theorem cutMembers?_renderMembers {written : List (Text × Text)} {members : List (Text × Json)}
    (areMembers : List.Forall₂ IsMember written members) (nonempty : written ≠ []) {fuel : Nat}
    (enough : 2 * (renderMembers written).length < fuel) (rest : Text) :
    cutMembers? fuel (renderMembers written ++ '}' :: rest) = some (members, rest) := by
  induction areMembers generalizing fuel with
  | nil => exact absurd rfl nonempty
  | @cons first member written members isMember areMembers ih =>
      rcases first with ⟨key, text⟩
      rcases member with ⟨raw, value⟩
      have isText : IsText text value := isMember.2
      have isKey : raw = quotedBody key := isMember.1
      subst raw
      cases fuel with
      | zero => omega
      | succ fuel =>
          cases areMembers with
          | nil =>
              have cut := isText.cut fuel ('}' :: rest)
                (by simp [renderMembers, renderMember, Text.join] at enough; omega)
                (endsValue_cons (by simp) rest)
              rw [renderMembers, List.map_singleton, Text.join, renderMember_append, cutMembers?]
              simp only [skipSpace_cons (show isSpace '"' = false by decide),
                skipSpace_cons (show isSpace ':' = false by decide),
                cutString?_quotedBody_append, isText.skipSpace_append, cut]
              rfl
          | @cons next other written members isNext areMembers =>
              have joined : renderMembers ((key, text) :: next :: written) ++ '}' :: rest =
                  renderMember key text ++
                    ',' :: (renderMembers (next :: written) ++ '}' :: rest) := by
                simp [renderMembers, Text.join]
              have lengths : (renderMembers ((key, text) :: next :: written)).length =
                  (renderMember key text).length + 1 +
                    (renderMembers (next :: written)).length := by
                simp [renderMembers, Text.join]
                omega
              have shorter : text.length ≤ (renderMember key text).length := by
                simp [renderMember]
                omega
              have cut := isText.cut fuel (',' :: (renderMembers (next :: written) ++ '}' :: rest))
                (by omega) (endsValue_cons (by simp) _)
              have later : cutMembers? fuel (renderMembers (next :: written) ++ '}' :: rest) =
                  some (other :: members, rest) :=
                ih (by simp) (by omega)
              rw [joined, renderMember_append, cutMembers?]
              simp only [skipSpace_cons (show isSpace '"' = false by decide),
                skipSpace_cons (show isSpace ':' = false by decide),
                skipSpace_cons (show isSpace ',' = false by decide),
                cutString?_quotedBody_append, isText.skipSpace_append, cut, later]
              rfl

theorem isText_renderObject {written : List (Text × Text)} {members : List (Text × Json)}
    (areMembers : List.Forall₂ IsMember written members) :
    IsText (renderObject written) (.object members) := by
  refine ⟨⟨'{', _, rfl, by decide, by decide⟩, ?_⟩
  intro fuel rest enough _
  have whole : renderObject written ++ rest = '{' :: (renderMembers written ++ '}' :: rest) := by
    simp [renderObject, renderMembers]
  have length : (renderObject written).length = (renderMembers written).length + 2 := by
    simp [renderObject, renderMembers]
  cases fuel with
  | zero => simp [renderObject] at enough
  | succ fuel =>
      rw [whole, cutValue?]
      cases areMembers with
      | nil => rfl
      | @cons first member written members isMember areMembers =>
          have enoughInside : 2 * (renderMembers (first :: written)).length < fuel := by omega
          have cut := cutMembers?_renderMembers (.cons isMember areMembers) (by simp) enoughInside
            rest
          have quoted : ∃ more, renderMembers (first :: written) ++ '}' :: rest = '"' :: more := by
            cases written with
            | nil => exact ⟨_, renderMember_append first.1 first.2 ('}' :: rest)⟩
            | cons next written =>
                exact ⟨_, by
                  simp only [renderMembers, List.map_cons, Text.join, List.append_assoc]
                  exact renderMember_append first.1 first.2 _⟩
          rcases quoted with ⟨more, starts⟩
          rw [starts] at cut ⊢
          rw [skipSpace_cons (by decide)]
          split
          · rename_i tail closes
            exact absurd (List.cons.inj closes).1 (by decide)
          · rw [cut]
            rfl

/-- A document of one written value is read as this value. -/
theorem IsText.read?_eq {text : Text} {value : Json} (isText : IsText text value) :
    read? text = some value := by
  have cut := isText.cut (2 * text.length + 2) [] (by omega) endsValue_nil
  have noSpace := isText.skipSpace_append []
  rw [List.append_nil] at cut noSpace
  rw [read?, noSpace, cut]
  rfl

end Json

end UtilityCss
