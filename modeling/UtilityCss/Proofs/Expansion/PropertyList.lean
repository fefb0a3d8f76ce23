import UtilityCss.Proofs.Expansion.Failure

/-!
# Lists of properties

A class name such as `[color,bg]-red` writes one value to several properties. The list stands in
front of the value, so what is read behind it does not depend on the list; and a comma parts the
list into items that are trimmed, looked up and written in the case of properties each on its own.
A list therefore stands for what its items stand for as lists of one item, one after another.

A list begins with a bracket, which is not a character of scopes and begins no registered type
token. So its items may hold any characters but the comma and the closing bracket: a colon in an
item is no scope, and a registered type token in the list is not the type of the class name.
-/

namespace UtilityCss

namespace Shorthand

/-- A text that can be an item of a list of properties. -/
structure IsListItem (item : Text) : Prop where
  nonempty : item ≠ []
  noComma : ',' ∉ item
  noClosing : ']' ∉ item

/-- The type that is written as a list of properties. -/
def listKind (list : Text) : Text :=
  '[' :: list ++ [']']

/-- The class name with a list of properties and the given text behind the hyphen. -/
def listName (list values : Text) : Text :=
  listKind list ++ '-' :: values

variable {config : Config} {engine : Engine} {items : List Text}

/-! ## Lists as types -/

theorem join_ne_nil (nonempty : items ≠ []) (isItem : ∀ item ∈ items, IsListItem item) :
    Text.join [','] items ≠ [] := by
  rcases List.exists_cons_of_ne_nil nonempty with ⟨first, more, rfl⟩
  rw [Text.join_cons]
  exact List.append_ne_nil_of_left_ne_nil (isItem first List.mem_cons_self).nonempty _

theorem shape_listKind {list : Text} (nonempty : list ≠ []) (noClosing : ']' ∉ list) :
    ValueForm.Shape .bracket (listKind list) :=
  .bracket ⟨nonempty, Text.bne_of_not_mem noClosing⟩

theorem IsListItem.shape {item : Text} (isItem : IsListItem item) :
    ValueForm.Shape .bracket (listKind item) :=
  shape_listKind isItem.nonempty isItem.noClosing

theorem shape_join (nonempty : items ≠ []) (isItem : ∀ item ∈ items, IsListItem item) :
    ValueForm.Shape .bracket (listKind (Text.join [','] items)) := by
  apply shape_listKind (join_ne_nil nonempty isItem)
  apply Text.not_mem_join (by decide)
  exact fun item member => (isItem item member).noClosing

/-! ## Items of lists -/

theorem listedItems_listKind (list : Text) :
    listedItems (listKind list) =
      ((Text.pieces (· == ',') list).map Text.trim).filter fun item => !item.isEmpty := by
  rw [listedItems, listKind, Text.inner_between]

/-- A list of items joined by commas lists what its items list, in order. -/
theorem listedItems_join (nonempty : items ≠ []) (noComma : ∀ item ∈ items, ',' ∉ item) :
    listedItems (listKind (Text.join [','] items)) =
      items.flatMap fun item => listedItems (listKind item) := by
  have alone : ∀ item ∈ items, listedItems (listKind item) =
      [Text.trim item].filter fun item => !item.isEmpty := by
    intro item member
    have onePiece := Text.pieces_join (List.cons_ne_nil item [])
      (by simpa using noComma item member)
    rw [Text.join] at onePiece
    rw [listedItems_listKind, onePiece, List.map_singleton]
  rw [listedItems_listKind, Text.pieces_join nonempty noComma, List.flatMap_congr alone,
    ← List.filter_flatMap, ← List.map_eq_flatMap]

theorem listedDeclarations_join (nonempty : items ≠ []) (noComma : ∀ item ∈ items, ',' ∉ item)
    (value : Text) :
    listedDeclarations config (listKind (Text.join [','] items)) value =
      items.flatMap fun item => listedDeclarations config (listKind item) value := by
  simp only [listedDeclarations, listedItems_join nonempty noComma, List.flatMap_assoc,
    List.map_flatMap]

/-! ## Class names with lists -/

/-- What is read behind one list is read behind any other list. -/
theorem read?_listName (accepted : config.IsAccepted) {list other values : Text}
    {token : ClassToken} (shape : ValueForm.Shape .bracket (listKind list))
    (otherShape : ValueForm.Shape .bracket (listKind other))
    (found : config.grammar.read? (listName list values) = some token) :
    token.kind = listKind list ∧
      config.grammar.read? (listName other values) =
        some { token with kind := listKind other } := by
  rw [listName, accepted.read?_of_list shape] at found
  rcases Option.map_eq_some_iff.mp found with ⟨quantities, read, rfl⟩
  refine ⟨rfl, ?_⟩
  rw [listName, accepted.read?_of_list otherShape, read]
  rfl

theorem resolve_of_kind {token : ClassToken} {list : Text} (isList : token.kind = listKind list) :
    resolve config token = (resolveQuantity config token.primary).map fun value =>
      some ⟨listedDeclarations config (listKind list) value, value⟩ := by
  have bracket : token.isBracketKind = true := Text.isBetween_iff.mpr ⟨list, isList⟩
  rw [resolve_of_bracket bracket, isList]

/-- A token with a list fails as each item of the list does in its place, or it resolves to the value
to which each item resolves, with the declarations of the items in order. -/
theorem resolve_join (nonempty : items ≠ []) (noComma : ∀ item ∈ items, ',' ∉ item)
    {token : ClassToken} (isList : token.kind = listKind (Text.join [','] items)) :
    (∃ cause, resolve config token = .error cause ∧ ∀ item ∈ items,
        resolve config { token with kind := listKind item } = .error cause) ∨
      ∃ value declarations,
        (∀ item ∈ items, resolve config { token with kind := listKind item } =
          .ok (some ⟨declarations item, value⟩)) ∧
        resolve config token = .ok (some ⟨items.flatMap declarations, value⟩) := by
  have single : ∀ item, resolve config { token with kind := listKind item } =
      (resolveQuantity config token.primary).map fun value =>
        some ⟨listedDeclarations config (listKind item) value, value⟩ :=
    fun item => resolve_of_kind rfl
  rw [resolve_of_kind isList]
  -- The value is resolved once, whichever list stands in front of it.
  cases outcome : resolveQuantity config token.primary with
  | error cause =>
      left
      refine ⟨cause, rfl, ?_⟩
      intro item _
      rw [single, outcome]
      rfl
  | ok value =>
      right
      refine ⟨value, fun item => listedDeclarations config (listKind item) value, ?_, ?_⟩
      · intro item _
        rw [single, outcome]
        rfl
      · rw [← listedDeclarations_join nonempty noComma]
        rfl

/-- A list of properties distributes over its commas. It is read exactly when its items are read as
lists of one item in its place, and then with the same value, unit and secondary quantity. It fails
with the error with which each item fails, or it resolves to the value to which each item resolves,
with the declarations of the items in order. -/
theorem resolve_listName (accepted : Engine.start config = .ok engine) (nonempty : items ≠ [])
    (isItem : ∀ item ∈ items, IsListItem item) (values : Text) :
    let list := Text.join [','] items
    ((∃ token, config.grammar.read? (listName list values) = some token) ↔
        ∀ item ∈ items, ∃ token, config.grammar.read? (listName item values) = some token) ∧
      ∀ token, config.grammar.read? (listName list values) = some token →
        (∀ item ∈ items, config.grammar.read? (listName item values) =
          some { token with kind := listKind item }) ∧
        ((∃ cause, resolve config token = .error cause ∧ ∀ item ∈ items,
            resolve config { token with kind := listKind item } = .error cause) ∨
          ∃ value declarations,
            (∀ item ∈ items, resolve config { token with kind := listKind item } =
              .ok (some ⟨declarations item, value⟩)) ∧
            resolve config token = .ok (some ⟨items.flatMap declarations, value⟩)) := by
  intro list
  have isAccepted := (Engine.start_eq_ok_iff.mp accepted).1
  have listShape := shape_join nonempty isItem
  refine ⟨⟨?_, ?_⟩, ?_⟩
  · rintro ⟨token, found⟩ item member
    have single := (read?_listName isAccepted listShape (isItem item member).shape found).2
    exact ⟨_, single⟩
  · intro read
    rcases List.exists_mem_of_ne_nil items nonempty with ⟨item, member⟩
    rcases read item member with ⟨token, single⟩
    exact ⟨_, (read?_listName isAccepted (isItem item member).shape listShape single).2⟩
  · intro token found
    constructor
    · intro item member
      exact (read?_listName isAccepted listShape (isItem item member).shape found).2
    · have isList := (read?_listName isAccepted listShape listShape found).1
      exact resolve_join nonempty (fun item member => (isItem item member).noComma) isList

/-- Items with a type token of two properties, a colon and nothing but a blank. -/
theorem resolve_listName_sample :
    let config := (Config.empty.withProperty "bg".toList (.simple "background".toList)).withProperty
      "edge".toList (.templated ["marginTop".toList, "margin-bottom".toList] "a \x7b0\x7d".toList)
    let items := ["edge".toList, "sm:bg".toList, " ".toList, "fontSize".toList]
    ∃ token declarations,
      config.grammar.read? "[edge,sm:bg, ,fontSize]-1px/2".toList = some token ∧
      (∀ item ∈ items, resolve config { token with kind := listKind item } =
        .ok (some ⟨declarations item, "1px".toList⟩)) ∧
      resolve config token = .ok (some ⟨items.flatMap declarations, "1px".toList⟩) ∧
      items.flatMap declarations =
        ["marginTop".toList, "margin-bottom".toList, "sm:bg".toList, "font-size".toList].map
          fun property => ⟨property, "1px".toList⟩ := by
  intro config items
  have accepted : Engine.start config = .ok (Engine.fresh config).processReserved := by rfl
  have isItem : ∀ item ∈ items, IsListItem item := by
    have parts : ∀ item ∈ items, item ≠ [] ∧ ',' ∉ item ∧ ']' ∉ item := by decide
    intro item member
    rcases parts item member with ⟨nonempty, noComma, noClosing⟩
    exact ⟨nonempty, noComma, noClosing⟩
  have distributes := (resolve_listName accepted (by decide) isItem "1px/2".toList).2
  let token : ClassToken := ⟨none, listKind (Text.join [','] items), ⟨"1".toList, "px".toList⟩,
    some ⟨"2".toList, []⟩⟩
  have found : config.grammar.read? (listName (Text.join [','] items) "1px/2".toList) =
      some token := by
    decide
  have resolved : resolve config token = .ok (some ⟨["marginTop".toList, "margin-bottom".toList,
      "sm:bg".toList, "font-size".toList].map fun property => ⟨property, "1px".toList⟩,
      "1px".toList⟩) := by
    decide
  rcases (distributes token found).2 with ⟨cause, failed, _⟩ | ⟨value, declarations, single, whole⟩
  · rw [resolved] at failed
    cases failed
  · have same := whole.symm.trans resolved
    simp only [Except.ok.injEq, Option.some.injEq, Shorthand.mk.injEq] at same
    rcases same with ⟨together, rfl⟩
    exact ⟨token, declarations, found, single, whole, together⟩

end Shorthand

end UtilityCss
