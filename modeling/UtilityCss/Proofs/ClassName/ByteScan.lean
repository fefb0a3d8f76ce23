import UtilityCss.Proofs.ClassName.LongestStart

/-!
# Scanning forms by positions

A form can also be scanned in the bytes of a text, with positions: the scan counts the bytes of a
class behind a position, looks for a mark at the position where they end, and goes on behind it. The
scan asks for the bytes behind a position that may not exist, behind a lone minus sign or a final
hyphen, so each such access is checked.

No access fails, whatever the bytes are, and the scan ends where the form ends its cut. In the bytes
of a text that is the end of the longest start with the shape of the form, and it lies between two
characters.
-/

namespace UtilityCss

namespace ValueForm

/-! ## The scans -/

/-- The number of characters of a class that a text starts with. -/
def countWhile (isMember : Char → Bool) (text : Text) : Nat :=
  (text.takeWhile isMember).length

/-- Where a marked run ends that starts at the position. -/
def markedEnd? (mark : Char) (isMember : Char → Bool) (text : Text) (position : Nat) :
    Except CutError (Option Nat) :=
  if text[position]? = some mark then do
    let run := countWhile isMember (← text.dropAt (position + 1))
    return if run = 0 then none else some (position + 1 + run)
  else
    return none

/-- Where a decimal ends that starts at the position. -/
def decimalEnd? (text : Text) (position : Nat) : Except CutError (Option Nat) := do
  let whole := countWhile Char.isDigit (← text.dropAt position)
  if whole = 0 then
    return none
  let fraction ← markedEnd? '.' Char.isDigit text (position + whole)
  return some (fraction.getD (position + whole))

def numberEnd? (text : Text) : Except CutError (Option Nat) :=
  decimalEnd? text (if text.head? = some '-' then 1 else 0)

/-- A marked run starts inside the text and ends behind its start. -/
theorem lt_of_markedEnd? {mark : Char} {isMember : Char → Bool} {text : Text}
    {position next : Nat} (found : markedEnd? mark isMember text position = .ok (some next)) :
    position < text.length ∧ position < next := by
  rw [markedEnd?] at found
  split at found
  · rename_i isMark
    have inText : position < text.length := (List.getElem?_eq_some_iff.mp isMark).1
    rw [Text.dropAt, if_pos (by omega)] at found
    have ends := Except.ok.inj found
    split at ends
    · cases ends
    · have isNext := Option.some.inj ends
      exact ⟨inText, by omega⟩
  · cases found

/-- Where words end that a hyphen at the position may join to a word in front of it. -/
def wordsEnd (text : Text) (position : Nat) : Except CutError Nat :=
  match _ : markedEnd? '-' isAsciiWord text position with
  | .error reason => .error reason
  | .ok none => .ok position
  | .ok (some next) => wordsEnd text next
termination_by text.length - position
decreasing_by
  rename_i joined
  have bounds := lt_of_markedEnd? joined
  omega

def identEnd? (text : Text) : Except CutError (Option Nat) := do
  let first := countWhile isAsciiWord text
  if first = 0 then
    return none
  return some (← wordsEnd text first)

def bracketEnd? (text : Text) : Except CutError (Option Nat) := do
  match ← markedEnd? '[' (fun c => c != ']') text 0 with
  | none => return none
  | some stop => return if text[stop]? = some ']' then some (stop + 1) else none

/-- Where the start of a text ends that a form cuts, found by positions. -/
def end? : ValueForm → Text → Except CutError (Option Nat)
  | number, text => numberEnd? text
  | ident, text => identEnd? text
  | hex, text => markedEnd? '#' isHexDigit text 0
  | bracket, text => bracketEnd? text
  | reference, text => markedEnd? '$' (fun c => !isAsciiBlank c) text 0

/-- The number of bytes that a form cuts. -/
def scan (form : ValueForm) (bytes : List UInt8) : Except CutError (Option Nat) :=
  form.end? (Text.ofBytes bytes)

/-! ## The scans end where the forms end their cuts -/

theorem cutMarked?_eq_some {mark : Char} {isMember : Char → Bool} {text segment tail : Text}
    (cut : cutMarked? mark isMember text = some (segment, tail)) :
    ∃ run, Text.IsRun isMember run ∧ segment = mark :: run ∧ text = segment ++ tail ∧
      ∀ c ∈ tail.head?, isMember c = false := by
  cases text with
  | nil => cases cut
  | cons c rest =>
      rw [cutMarked?] at cut
      split at cut
      · rename_i found
        rcases found with ⟨rfl, nonempty⟩
        cases cut
        exact ⟨_, ⟨nonempty, fun d member => List.mem_takeWhile_imp member⟩, rfl, by simp,
          noMember_of_head?_dropWhile⟩
      · cases cut

theorem markedEnd?_append (mark : Char) (isMember : Char → Bool) (first rest : Text) :
    markedEnd? mark isMember (first ++ rest) first.length =
      .ok ((cutMarked? mark isMember rest).map fun cut => first.length + cut.1.length) := by
  cases rest with
  | nil => simp [markedEnd?, cutMarked?, pure, Except.pure]
  | cons c rest =>
      by_cases isMark : c = mark
      · subst c
        have atMark : (first ++ mark :: rest)[first.length]? = some mark := by simp
        rw [markedEnd?, if_pos atMark, Text.dropAt_append_cons, cutMarked?]
        by_cases nonempty : rest.takeWhile isMember = []
        · simp [countWhile, nonempty, bind, Except.bind, pure, Except.pure]
        · simp [countWhile, nonempty, bind, Except.bind, pure, Except.pure]
          omega
      · have noMark : ¬ (first ++ c :: rest)[first.length]? = some mark := by simp [isMark]
        rw [markedEnd?, if_neg noMark, cutMarked?_eq_none isMember isMark]
        rfl

theorem decimalEnd?_append (first rest : Text) :
    decimalEnd? (first ++ rest) first.length =
      .ok ((cutDecimal? rest).map fun cut => first.length + cut.1.length) := by
  rw [decimalEnd?, Text.dropAt_append, cutDecimal?_eq]
  by_cases noDigit : rest.takeWhile Char.isDigit = []
  · simp [countWhile, noDigit, bind, Except.bind, pure, Except.pure]
  · have fraction := markedEnd?_append '.' Char.isDigit (first ++ rest.takeWhile Char.isDigit)
      (rest.dropWhile Char.isDigit)
    rw [List.append_assoc, List.takeWhile_append_dropWhile, List.length_append] at fraction
    simp only [countWhile, bind, Except.bind, pure, Except.pure, fraction, List.length_eq_zero_iff,
      noDigit, if_false]
    rw [cutFraction]
    cases cutMarked? '.' Char.isDigit (rest.dropWhile Char.isDigit) with
    | none => simp
    | some cut => simp [Nat.add_assoc]

theorem numberEnd?_eq (text : Text) :
    numberEnd? text = .ok ((cutNumber? text).map fun cut => cut.1.length) := by
  by_cases minus : text.head? = some '-'
  · rcases List.head?_eq_some_iff.mp minus with ⟨rest, rfl⟩
    have decimal := decimalEnd?_append ['-'] rest
    rw [List.singleton_append, List.length_singleton] at decimal
    rw [numberEnd?, if_pos minus, decimal, cutNumber?, Option.map_map]
    congr 2
    funext cut
    exact Nat.add_comm _ _
  · have decimal := decimalEnd?_append [] text
    rw [List.nil_append, List.length_nil] at decimal
    rw [numberEnd?, if_neg minus, decimal, cutNumber?_of_noMinus minus]
    simp

theorem cutWords_cons_hyphen {rest : Text} (starts : startsWord rest = true) :
    cutWords ('-' :: rest) = ('-' :: (cutWords rest).1, (cutWords rest).2) := by
  simp [cutWords, starts]

theorem startsWord_eq_false {text : Text} (stops : ∀ c ∈ text.head?, isAsciiWord c = false) :
    startsWord text = false := by
  cases text with
  | nil => rfl
  | cons c rest => exact stops c rfl

theorem wordsEnd_of_unjoined {text : Text} {position : Nat}
    (unjoined : markedEnd? '-' isAsciiWord text position = .ok none) :
    wordsEnd text position = .ok position := by
  rw [wordsEnd]
  split <;> simp_all

theorem wordsEnd_of_joined {text : Text} {position next : Nat}
    (joined : markedEnd? '-' isAsciiWord text position = .ok (some next)) :
    wordsEnd text position = wordsEnd text next := by
  rw [wordsEnd]
  split <;> simp_all

/-- Behind a word the scan goes on as far as words are joined. The recursion takes a hyphen and the
word behind it at a time, as the scan does. -/
theorem wordsEnd_append (first : Text) {rest : Text} (noWord : startsWord rest = false) :
    wordsEnd (first ++ rest) first.length = .ok (first.length + (cutWords rest).1.length) := by
  have next := markedEnd?_append '-' isAsciiWord first rest
  cases joined : cutMarked? '-' isAsciiWord rest with
  | none =>
      rw [joined] at next
      rw [wordsEnd_of_unjoined next, cutWords_of_stop noWord joined]
      rfl
  | some cut =>
      rcases cut with ⟨segment, tail⟩
      rw [joined] at next
      rcases cutMarked?_eq_some joined with ⟨run, isRun, rfl, whole, stops⟩
      have shorter : tail.length < rest.length := by
        rw [whole, List.length_append, List.length_cons]
        omega
      have behind := wordsEnd_append (first ++ '-' :: run) (startsWord_eq_false stops)
      have starts : startsWord (run ++ tail) = true := by
        rw [startsWord_iff, List.takeWhile_append_of_pos isRun.2]
        simp [isRun.1]
      rw [List.append_assoc, List.length_append] at behind
      rw [wordsEnd_of_joined next, whole, behind, List.cons_append, cutWords_cons_hyphen starts,
        cutWords_append_of_run isRun.2]
      simp [Nat.add_assoc, Nat.add_comm, Nat.add_left_comm]
termination_by rest.length
decreasing_by exact shorter

theorem identEnd?_eq (text : Text) :
    identEnd? text = .ok ((cutIdent? text).map fun cut => cut.1.length) := by
  have noWord : startsWord (text.dropWhile isAsciiWord) = false :=
    startsWord_eq_false noMember_of_head?_dropWhile
  have words := wordsEnd_append (text.takeWhile isAsciiWord) noWord
  have inside : ∀ c ∈ text.takeWhile isAsciiWord, isAsciiWord c = true :=
    fun c member => List.mem_takeWhile_imp member
  have cut := cutWords_append_of_run inside (text.dropWhile isAsciiWord)
  rw [List.takeWhile_append_dropWhile] at words cut
  rw [identEnd?, cutIdent?, countWhile, words, cut]
  by_cases starts : startsWord text = true
  · have nonempty := startsWord_iff.mp starts
    simp [starts, nonempty, bind, Except.bind, pure, Except.pure]
  · have empty : text.takeWhile isAsciiWord = [] := by
      simpa [startsWord_iff] using starts
    simp [starts, empty, pure, Except.pure]

theorem bracketEnd?_eq (text : Text) :
    bracketEnd? text = .ok ((cutBracket? text).map fun cut => cut.1.length) := by
  have marked := markedEnd?_append '[' (fun c => c != ']') [] text
  rw [List.nil_append, List.length_nil] at marked
  rw [bracketEnd?, marked, cutBracket?_eq]
  cases found : cutMarked? '[' (fun c => c != ']') text with
  | none => rfl
  | some cut =>
      rcases cut with ⟨segment, tail⟩
      rcases cutMarked?_eq_some found with ⟨run, _, _, rfl, _⟩
      have atStop : (segment ++ tail)[segment.length]? = tail.head? := by
        rw [List.getElem?_append_right (Nat.le_refl _), Nat.sub_self, List.head?_eq_getElem?]
      by_cases closes : tail.head? = some ']'
      · simp [closeBracket?, closes, atStop, bind, Except.bind, pure, Except.pure]
      · simp [closeBracket?, closes, atStop, bind, Except.bind, pure, Except.pure]

/-- No access of a scan fails, and the scan ends where the form ends its cut. -/
theorem end?_eq (form : ValueForm) (text : Text) :
    form.end? text = .ok ((form.cut? text).map fun cut => cut.1.length) := by
  have marked (mark : Char) (isMember : Char → Bool) : markedEnd? mark isMember text 0 =
      .ok ((cutMarked? mark isMember text).map fun cut => cut.1.length) := by
    simpa using markedEnd?_append mark isMember [] text
  cases form with
  | number => exact numberEnd?_eq text
  | ident => exact identEnd?_eq text
  | hex => rw [end?, cut?, cutHex?_eq, marked]
  | bracket => exact bracketEnd?_eq text
  | reference => rw [end?, cut?, cutReference?_eq, marked]

/-- Byte by byte a form cuts as many bytes as there are in what it cuts. -/
theorem map_length_cut?_bytewise (form : ValueForm) (text : Text) :
    ((form.cut? text.bytewise).map fun cut => cut.1.length) =
      (form.cut? text).map fun cut => cut.1.byteLength := by
  rw [cut?_bytewise, Option.map_map]
  congr 1
  funext cut
  exact Text.length_bytewise cut.1

/-- No access of a scan of bytes fails, and the scan ends behind the bytes of what the form cuts. -/
theorem scan_bytes (form : ValueForm) (text : Text) :
    form.scan (Glob.bytes text) = .ok ((form.cut? text).map fun cut => cut.1.byteLength) := by
  rw [scan, ← Text.bytewise, end?_eq, map_length_cut?_bytewise]

theorem isLongestStart_bytewise (form : ValueForm) (text : Text) :
    form.IsLongestStart text.bytewise ((form.cut? text).map fun cut => cut.1.byteLength) := by
  rw [← map_length_cut?_bytewise]
  exact isLongestStart_cut? form text.bytewise

/-- A text can be split where a form ends its cut, and the form cuts the same parts. -/
theorem exists_splitAtByte {form : ValueForm} {text : Text} {length : Nat}
    (isLength : ((form.cut? text).map fun cut => cut.1.byteLength) = some length) :
    length ≤ (Glob.bytes text).length ∧
      ∃ value rest, text.splitAtByte length = .ok (value, rest) ∧
        form.cut? text = some (value, rest) := by
  rcases Option.map_eq_some_iff.mp isLength with ⟨⟨value, rest⟩, cut, rfl⟩
  rcases cut?_sound cut with ⟨_, rfl⟩
  refine ⟨?_, value, rest, Text.splitAtByte_eq_ok_iff.mpr ⟨rfl, rfl⟩, cut⟩
  rw [Text.length_bytes, Text.byteLength_append]
  exact Nat.le_add_right _ _

end ValueForm

end UtilityCss
