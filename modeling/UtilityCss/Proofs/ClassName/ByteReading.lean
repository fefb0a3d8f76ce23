import UtilityCss.Proofs.ClassName.ByteScan
import UtilityCss.Proofs.ClassName.Scope

/-!
# Reading class names by positions

The reader of class names hands on the rest of the text behind each part. A class name can be read
with positions in its bytes as well: a quantity is split at the byte where the scan of its form ends
and at the byte where its unit ends, a type token is taken off by its length, and a bracketed type
or a scope by the position of the character that closes it. A split is refused behind the end of the
text and inside a character.

No split is refused, whatever characters a class name holds, and reading by positions gives what the
reader gives.
-/

namespace UtilityCss

namespace Grammar

/-! ## The reading -/

/-- Cuts a quantity at the byte where its value ends and at the byte where its unit ends. -/
def cutQuantityAt (form : ValueForm) (text : Text) :
    Except CutError (Option (Quantity × Text)) := do
  match ← form.scan (Glob.bytes text) with
  | none => return none
  | some valueEnd =>
    let (value, after) ← text.splitAtByte valueEnd
    let (unit, tail) ← after.splitAtByte (ValueForm.countWhile isUnitChar after.bytewise)
    return some (⟨value, unit⟩, tail)

def readQuantityAt (text : Text) : Except CutError (Option Quantity) :=
  ValueForm.all.findSomeM? fun form => do
    match ← cutQuantityAt form text with
    | some (quantity, []) => return some quantity
    | _ => return none

def readValuesAsAt (form : ValueForm) (text : Text) :
    Except CutError (Option (Quantity × Option Quantity)) := do
  match ← cutQuantityAt form text with
  | some (primary, []) => return some (primary, none)
  | some (primary, '/' :: rest) =>
    return (← readQuantityAt rest).map fun secondary => (primary, some secondary)
  | _ => return none

def readValuesAt (text : Text) : Except CutError (Option (Quantity × Option Quantity)) :=
  ValueForm.all.findSomeM? fun form => readValuesAsAt form text

/-- Reads a bare class name whose type ends at the position and is followed by `rest`. -/
def readKindAt (bare : Text) (kindEnd : Nat) (rest : Text) :
    Except CutError (Option ClassToken) := do
  match rest with
  | '-' :: values =>
    let (kind, _) ← bare.splitAtByte kindEnd
    return (← readValuesAt values).map fun (primary, secondary) => ⟨none, kind, primary, secondary⟩
  | _ => return none

def readWithTypeAt (bare type : Text) : Except CutError (Option ClassToken) :=
  match Text.after? type bare with
  | some rest => readKindAt bare type.byteLength rest
  | none => return none

/-- Reads a bare class name whose type is closed by the first bracket behind a character. -/
def readBracketKindAt (bare : Text) : Except CutError (Option ClassToken) := do
  if bare.head? = some '[' then
    match Text.byteIndex? ']' bare with
    | some close =>
      if close < 2 then
        return none
      let (_, rest) ← bare.splitAtByte (close + 1)
      readKindAt bare (close + 1) rest
    | none => return none
  else
    return none

def readBareAt (grammar : Grammar) (bare : Text) : Except CutError (Option ClassToken) := do
  match ← grammar.types.findSomeM? (readWithTypeAt bare) with
  | some token => return some token
  | none => readBracketKindAt bare

def splitScopeAt (className : Text) : Except CutError (Option (Text × Text)) := do
  match Text.byteIndex? ':' className with
  | some colon =>
    let (scope, _) ← className.splitAtByte colon
    if !scope.isEmpty && scope.all isScopeChar then
      let (_, bare) ← className.splitAtByte (colon + 1)
      return some (scope, bare)
    else
      return none
  | none => return none

def readBehindScopeAt (grammar : Grammar) (className : Text) :
    Except CutError (Option ClassToken) := do
  match ← splitScopeAt className with
  | some (scope, bare) =>
    return (← grammar.readBareAt bare).map fun token => { token with scope := some scope }
  | none => return none

def readAt (grammar : Grammar) (className : Text) : Except CutError (Option ClassToken) := do
  match ← grammar.readBehindScopeAt className with
  | some token => return some token
  | none => grammar.readBareAt className

/-! ## Quantities -/

theorem isAsciiClass_isUnitChar : Text.IsAsciiClass isUnitChar := by
  apply Text.isAsciiClass_of_ascii
  intro c isUnit
  simp only [isUnitChar, Bool.or_eq_true, beq_iff_eq] at isUnit
  rcases isUnit with isAlpha | rfl
  · exact toNat_lt_of_isAlpha isAlpha
  · decide

/-- The unit of a quantity has as many bytes as characters, and the text is split behind it. -/
theorem splitAtByte_unit (after : Text) :
    after.splitAtByte (ValueForm.countWhile isUnitChar after.bytewise) =
      .ok (after.takeWhile isUnitChar, after.dropWhile isUnitChar) := by
  have split := Text.splitAtByte_append (after.takeWhile isUnitChar) (after.dropWhile isUnitChar)
  rwa [List.takeWhile_append_dropWhile, ← Text.length_bytewise,
    ← Text.takeWhile_bytewise isAsciiClass_isUnitChar] at split

theorem cutQuantityAt_eq (form : ValueForm) (text : Text) :
    cutQuantityAt form text = .ok (cutQuantity? form text) := by
  rw [cutQuantityAt, ValueForm.scan_bytes, cutQuantity?]
  cases found : form.cut? text with
  | none => rfl
  | some cut =>
      rcases cut with ⟨value, after⟩
      rcases ValueForm.cut?_sound found with ⟨_, rfl⟩
      have atValue := Text.splitAtByte_append value after
      simp only [Option.map_some, bind, Except.bind, atValue, splitAtByte_unit]
      rfl

theorem findSomeM?_eq {α β : Type} {attempt : α → Except CutError (Option β)}
    {result : α → Option β} (agree : ∀ item, attempt item = .ok (result item))
    (items : List α) : items.findSomeM? attempt = .ok (items.findSome? result) := by
  have same : attempt = fun item => pure (result item) := funext agree
  rw [same, List.findSomeM?_pure]
  rfl

theorem readQuantityAt_eq (text : Text) : readQuantityAt text = .ok (readQuantity? text) := by
  apply findSomeM?_eq
  intro form
  rw [cutQuantityAt_eq]
  rcases cutQuantity? form text with _ | ⟨quantity, _ | ⟨c, tail⟩⟩ <;> rfl

theorem readValuesAsAt_eq (form : ValueForm) (text : Text) :
    readValuesAsAt form text = .ok (readValuesAs? form text) := by
  rw [readValuesAsAt, cutQuantityAt_eq, readValuesAs?]
  rcases cutQuantity? form text with _ | ⟨primary, _ | ⟨c, rest⟩⟩
  · rfl
  · rfl
  · by_cases isSlash : c = '/'
    · subst c
      simp only [bind, Except.bind, readQuantityAt_eq]
      rfl
    · simp [isSlash, bind, Except.bind, pure, Except.pure]

theorem readValuesAt_eq (text : Text) : readValuesAt text = .ok (readValues? text) :=
  findSomeM?_eq (fun form => readValuesAsAt_eq form text) ValueForm.all

/-! ## Types and scopes -/

theorem readKindAt_append (kind rest : Text) :
    readKindAt (kind ++ rest) kind.byteLength rest = .ok (readAfterKind? kind rest) := by
  cases rest with
  | nil => rfl
  | cons c values =>
      by_cases isHyphen : c = '-'
      · subst c
        simp only [readKindAt, bind, Except.bind, Text.splitAtByte_append, readValuesAt_eq]
        rfl
      · simp [readKindAt, readAfterKind?, isHyphen, pure, Except.pure]

theorem readWithTypeAt_eq (bare type : Text) :
    readWithTypeAt bare type = .ok (readWithType? bare type) := by
  rw [readWithTypeAt, readWithType?]
  cases found : Text.after? type bare with
  | none => rfl
  | some rest =>
      rw [Text.after?_eq_some_iff.mp found]
      exact readKindAt_append type rest

theorem two_le_byteLength_cons_cons (c d : Char) (rest : Text) :
    2 ≤ Text.byteLength (c :: d :: rest) := by
  have first : 0 < c.utf8Size := c.utf8Size_pos
  have second : 0 < d.utf8Size := d.utf8Size_pos
  rw [Text.byteLength, Text.byteLength]
  omega

/-- A bracketed type is taken off behind the bracket that closes it. -/
theorem readBracketKindAt_append {kind : Text} (shape : ValueForm.Shape .bracket kind)
    (rest : Text) : readBracketKindAt (kind ++ rest) = .ok (readAfterKind? kind rest) := by
  cases shape with
  | @bracket literal isRun =>
      rcases List.exists_cons_of_ne_nil isRun.1 with ⟨c, more, rfl⟩
      have notIn : ']' ∉ '[' :: c :: more := by
        have notInLiteral := isRun.not_mem (c := ']') (by decide)
        simpa using notInLiteral
      have closes : Text.byteIndex? ']' ('[' :: (c :: more) ++ [']'] ++ rest) =
          some (Text.byteLength ('[' :: c :: more)) := by
        rw [List.append_assoc, List.singleton_append]
        exact Text.byteIndex?_append_cons notIn rest
      have long : ¬ Text.byteLength ('[' :: c :: more) < 2 :=
        Nat.not_lt.mpr (two_le_byteLength_cons_cons '[' c more)
      have opens : ('[' :: (c :: more) ++ [']'] ++ rest).head? = some '[' := rfl
      rw [readBracketKindAt, if_pos opens, closes]
      simp only [if_neg long, ← Text.byteLength_concat (c := ']') (by decide), bind, Except.bind,
        Text.splitAtByte_append, readKindAt_append]

theorem readBracketKindAt_eq_none {bare : Text} (uncut : ValueForm.cutBracket? bare = none) :
    readBracketKindAt bare = .ok none := by
  rw [readBracketKindAt]
  by_cases opens : bare.head? = some '['
  · rcases List.head?_eq_some_iff.mp opens with ⟨inner, rfl⟩
    rw [if_pos opens]
    by_cases closes : ']' ∈ inner
    · rcases List.eq_append_cons_of_mem closes with ⟨literal, rest, rfl, notIn⟩
      cases literal with
      | nil => rfl
      | cons c more =>
          -- a bracket around something would be cut
          have shape : ValueForm.Shape .bracket ('[' :: (c :: more) ++ [']']) :=
            .bracket ⟨List.cons_ne_nil c more, Text.bne_of_not_mem notIn⟩
          have cut := ValueForm.cutBracket?_append shape rest
          rw [List.append_assoc, List.singleton_append, List.cons_append, uncut] at cut
          cases cut
    · rw [Text.byteIndex?, if_neg (by simpa using closes)]
      rfl
  · rw [if_neg opens]
    rfl

theorem readBracketKindAt_eq (bare : Text) :
    readBracketKindAt bare = .ok (readBracketKind? bare) := by
  rw [readBracketKind?]
  cases found : ValueForm.cutBracket? bare with
  | none => exact readBracketKindAt_eq_none found
  | some cut =>
      rcases ValueForm.cutBracket?_sound found with ⟨shape, rfl⟩
      exact readBracketKindAt_append shape cut.2

theorem readBareAt_eq (grammar : Grammar) (bare : Text) :
    grammar.readBareAt bare = .ok (grammar.readBare? bare) := by
  rw [readBareAt, findSomeM?_eq (readWithTypeAt_eq bare), readBare?, readBracketKindAt_eq]
  cases grammar.types.findSome? (readWithType? bare) <;> rfl

theorem splitScopeAt_eq (className : Text) :
    splitScopeAt className = .ok (splitScope? className) := by
  rw [splitScopeAt]
  by_cases inName : ':' ∈ className
  · rcases List.eq_append_cons_of_mem inName with ⟨scope, bare, rfl, notIn⟩
    have stops : ∀ c ∈ (':' :: bare).head?, (c != ':') = false := by simp
    have whole : scope ++ ':' :: bare = scope ++ [':'] ++ bare := by simp
    have behind := Text.splitAtByte_append (scope ++ [':']) bare
    rw [Text.byteLength_concat (by decide), ← whole] at behind
    rw [Text.byteIndex?_append_cons notIn, splitScope?,
      ValueForm.cutWhile_append_of_head (Text.bne_of_not_mem notIn) stops]
    simp only [bind, Except.bind, Text.splitAtByte_append, behind]
    split <;> rfl
  · rw [Text.byteIndex?, if_neg inName, splitScope?_of_noColon inName]
    rfl

theorem readBehindScopeAt_eq (grammar : Grammar) (className : Text) :
    grammar.readBehindScopeAt className = .ok (grammar.readBehindScope? className) := by
  rw [readBehindScopeAt, splitScopeAt_eq, readBehindScope?]
  cases splitScope? className with
  | none => rfl
  | some parts =>
      simp only [bind, Except.bind, pure, Except.pure, readBareAt_eq, Option.bind_some]

theorem readAt_eq (grammar : Grammar) (className : Text) :
    grammar.readAt className = .ok (grammar.read? className) := by
  rw [readAt, readBehindScopeAt_eq, readBareAt_eq, read?]
  cases grammar.readBehindScope? className <;> rfl

/-! ## Longest starts and safe splits -/

/-- Each form scans the bytes of any text without a failing access. The length that it finds is that
of the longest start with its shape, and it finds none exactly if no start has the shape. A split at
the length is within the text and between two characters, and it gives the parts that the form cuts.
So no split fails by which quantities, values and class names are read at such positions, and what
is read is what the reader reads. -/
theorem longest_scans_in_range (grammar : Grammar) (text : Text) :
    (∀ form : ValueForm, ∃ length?,
      form.scan (Glob.bytes text) = .ok length? ∧
      form.IsLongestStart (Text.ofBytes (Glob.bytes text)) length? ∧
      form.IsLongestStart text ((form.cut? text).map fun cut => cut.1.length) ∧
      (length? = none ↔ form.cut? text = none) ∧
      ∀ length ∈ length?, length ≤ (Glob.bytes text).length ∧
        ∃ value rest, text.splitAtByte length = .ok (value, rest) ∧
          form.cut? text = some (value, rest)) ∧
    (∀ form : ValueForm, cutQuantityAt form text = .ok (cutQuantity? form text)) ∧
    readValuesAt text = .ok (readValues? text) ∧
    grammar.readBareAt text = .ok (grammar.readBare? text) ∧
    grammar.readAt text = .ok (grammar.read? text) := by
  refine ⟨?_, fun form => cutQuantityAt_eq form text, readValuesAt_eq text,
    readBareAt_eq grammar text, readAt_eq grammar text⟩
  intro form
  refine ⟨(form.cut? text).map fun cut : Text × Text => cut.1.byteLength, form.scan_bytes text,
    form.isLongestStart_bytewise text, form.isLongestStart_cut? text, Option.map_eq_none_iff, ?_⟩
  intro length isLength
  exact ValueForm.exists_splitAtByte isLength

/-- The bracket and the name behind it hold characters of two bytes. The bracket is scanned for nine
bytes of seven characters, and the class name is split behind it and behind the name. -/
theorem longest_scans_in_range_sample :
    let className := "[größe]-$ä/50%".toList
    ValueForm.bracket.scan (Glob.bytes className) = .ok (some 9) ∧
      className.length = 14 ∧ 9 ≤ (Glob.bytes className).length ∧
      Text.splitAtByte className 9 = .ok ("[größe]".toList, "-$ä/50%".toList) ∧
      (ofTypes ["bg".toList]).readAt className =
        .ok (some ⟨none, "[größe]".toList, ⟨"$ä/50%".toList, []⟩, none⟩) := by
  intro className
  rcases longest_scans_in_range (ofTypes ["bg".toList]) className with ⟨scans, _, _, _, reads⟩
  rcases scans .bracket with ⟨length?, scanned, _, _, _, inRange⟩
  have isScan : ValueForm.bracket.scan (Glob.bytes className) = .ok (some 9) := by rfl
  rw [isScan] at scanned
  cases scanned
  rcases inRange 9 rfl with ⟨within, value, rest, isSplit, isCut⟩
  have parts : ValueForm.bracket.cut? className =
      some ("[größe]".toList, "-$ä/50%".toList) := by decide
  rw [parts] at isCut
  cases isCut
  refine ⟨isScan, by decide, within, isSplit, reads.trans ?_⟩
  exact congrArg Except.ok (by decide)

end Grammar

end UtilityCss
