import UtilityCss.Files.Documents
import UtilityCss.Proofs.Json.Written
import UtilityCss.Proofs.Ordered.Map

/-!
# Configurations read back

A configuration that is written as JSON and read again is the same configuration, with every mapping
in its order. Writing and reading do not mirror each other: names of a group may be read as one name
or as a list but are always written as a list, a literal may be a number but is always written as a
string, and a bound that is not set is not written. So each part is followed on its own, from its
text through the value that the text is read as to what the reader of that part makes of the value.
-/

namespace UtilityCss

namespace Json

variable {α β : Type}

/-- A text of a value that a reader takes for `meaning`. -/
def Conveys (read : Json → Option α) (text : Text) (meaning : α) : Prop :=
  ∃ value, IsText text value ∧ read value = some meaning

/-! ## Lists and mappings -/

theorem exists_values {read : Json → Option α} {write : β → Text} {meaning : β → α}
    {items : List β} (conveyed : ∀ item ∈ items, Conveys read (write item) (meaning item)) :
    ∃ values, List.Forall₂ IsText (items.map write) values ∧
      values.mapM read = some (items.map meaning) := by
  induction items with
  | nil => exact ⟨[], List.Forall₂.nil, rfl⟩
  | cons item items ih =>
      rcases conveyed item List.mem_cons_self with ⟨value, isText, isRead⟩
      rcases ih fun other member => conveyed other (List.mem_cons_of_mem item member) with
        ⟨values, areTexts, areRead⟩
      exact ⟨value :: values, List.Forall₂.cons isText areTexts, by simp [isRead, areRead]⟩

theorem exists_members {read : Json → Option α} {write : β → Text} {meaning : β → α}
    (key : β → Text) {items : List β}
    (conveyed : ∀ item ∈ items, Conveys read (write item) (meaning item)) :
    ∃ members, List.Forall₂ IsMember (items.map fun item => (key item, write item)) members ∧
      (members.mapM fun (name, value) => do return (← decode? name, ← read value)) =
        some (items.map fun item => (key item, meaning item)) := by
  induction items with
  | nil => exact ⟨[], List.Forall₂.nil, rfl⟩
  | cons item items ih =>
      rcases conveyed item List.mem_cons_self with ⟨value, isText, isRead⟩
      rcases ih fun other member => conveyed other (List.mem_cons_of_mem item member) with
        ⟨members, areMembers, areRead⟩
      refine ⟨(quotedBody (key item), value) :: members, .cons ⟨rfl, isText⟩ areMembers, ?_⟩
      simp [decode?_quotedBody, isRead] at areRead ⊢
      simp [areRead]

theorem conveys_encode (text : Text) : Conveys asText? (encode text) text :=
  ⟨_, isText_encode text, decode?_quotedBody text⟩

theorem conveys_renderMapping {read : Json → Option α} {write : α → Text} {map : OrderedMap Text α}
    (conveyed : ∀ entry ∈ map.entries, Conveys read (write entry.2) entry.2) :
    Conveys (asMapping? read) (renderMapping write map) map := by
  rcases exists_members Prod.fst conveyed with ⟨members, areMembers, areRead⟩
  refine ⟨.object members, isText_renderObject areMembers, ?_⟩
  rw [asMapping?, areRead]
  simp

/-- A list is read item by item. -/
theorem conveys_renderArray {read : Json → Option α} {write : α → Text} {items : List α}
    (conveyed : ∀ item ∈ items, Conveys read (write item) item) (readAll : Json → Option (List α))
    (isList : ∀ values, readAll (.array values) = values.mapM read) :
    Conveys readAll (renderArray (items.map write)) items := by
  rcases exists_values conveyed with ⟨values, areTexts, areRead⟩
  refine ⟨.array values, isText_renderArray areTexts, ?_⟩
  rw [isList, areRead, List.map_id']

theorem conveys_texts (texts : List Text) :
    Conveys asTexts? (renderArray (texts.map encode)) texts :=
  conveys_renderArray (fun text _ => conveys_encode text) asTexts? fun _ => rfl

/-! ## Values of several shapes -/

theorem conveys_datum_text (depth : Nat) (text : Text) :
    Conveys (datum? depth) (encode text) (.text text) :=
  ⟨_, isText_encode text, by simp [datum?, decode?_quotedBody]⟩

theorem conveys_literal (levels : Nat) (text : Text) :
    Conveys (asLiteral? levels) (encode text) text := by
  rcases conveys_datum_text (depthLimit - levels) text with ⟨value, isText, isRead⟩
  exact ⟨value, isText, by simp [asLiteral?, isRead, Datum.asLiteral?]⟩

theorem conveys_datum_texts (depth : Nat) (texts : List Text) :
    Conveys (datum? (depth + 1)) (renderArray (texts.map encode)) (.list (texts.map .text)) := by
  rcases exists_values fun text (_ : text ∈ texts) => conveys_datum_text depth text with
    ⟨values, areTexts, areRead⟩
  exact ⟨.array values, isText_renderArray areTexts, by simp [datum?, areRead]⟩

theorem asTexts?_list_text (texts : List Text) :
    (Datum.list (texts.map .text)).asTexts? = some texts := by
  induction texts with
  | nil => rfl
  | cons text texts ih =>
      simp only [Datum.asTexts?] at ih
      simp [Datum.asTexts?, Datum.asText?, ih]

/-- The data of an entry with a template. -/
def templateData (properties : List Text) (template : Text) : Datum :=
  .map [(.text "property".toList, .list (properties.map .text)),
    (.text "value".toList, .text template)]

theorem asProperty?_templateData (properties : List Text) (template : Text) :
    (templateData properties template).asProperty? = some (.templated properties template) := by
  have known : Datum.fieldValues? ["property".toList, "value".toList]
        [(.text "property".toList, .list (properties.map .text)),
          (.text "value".toList, .text template)] =
      some [("property".toList, .list (properties.map .text)),
        ("value".toList, .text template)] := rfl
  have names : (Datum.list (properties.map .text)).asNames? = some properties :=
    asTexts?_list_text properties
  rw [templateData, Datum.asProperty?, known]
  change (Datum.asNames? (.list (properties.map .text))).bind _ = _
  rw [names]
  rfl

theorem conveys_templateData (depth : Nat) (properties : List Text) (template : Text) :
    Conveys (datum? (depth + 2)) (PropertyEntry.templated properties template).toJson
      (templateData properties template) := by
  rcases conveys_datum_texts depth properties with ⟨names, areNames, namesRead⟩
  rcases conveys_datum_text (depth + 1) template with ⟨value, isText, valueRead⟩
  refine ⟨.object [(quotedBody "property".toList, names), (quotedBody "value".toList, value)],
    isText_renderObject (.cons ⟨rfl, areNames⟩ (.cons ⟨rfl, isText⟩ .nil)), ?_⟩
  simp [datum?, decode?_quotedBody, namesRead, valueRead, templateData]

theorem conveys_entry (entry : PropertyEntry) : Conveys asProperty? entry.toJson entry := by
  cases entry with
  | simple property =>
      rcases conveys_datum_text (depthLimit - 2) property with ⟨value, isText, isRead⟩
      exact ⟨value, isText, by simp [asProperty?, isRead, Datum.asProperty?]⟩
  | templated properties template =>
      have deepEnough : depthLimit - 2 = depthLimit - 4 + 2 := by decide
      rcases conveys_templateData (depthLimit - 4) properties template with
        ⟨value, isText, isRead⟩
      exact ⟨value, isText, by
        rw [asProperty?, deepEnough, isRead, Option.bind_some, asProperty?_templateData]⟩

/-! ## Records -/

/-- The written fields of a record are the texts of the fields that are read. -/
def AreFields (written : List (Text × Text)) (fields : List (Text × Json)) : Prop :=
  List.Forall₂ (fun member field => member.1 = field.1 ∧ IsText member.2 field.2) written fields

theorem AreFields.nil : AreFields [] [] :=
  List.Forall₂.nil

theorem AreFields.cons {name text : Text} {value : Json} {written : List (Text × Text)}
    {fields : List (Text × Json)} (isText : IsText text value) (more : AreFields written fields) :
    AreFields ((name, text) :: written) ((name, value) :: fields) :=
  List.Forall₂.cons ⟨rfl, isText⟩ more

theorem fieldValues?_quoted {names : List Text} {fields : List (Text × Json)}
    (distinct : names.Nodup) (inOrder : (fields.map Prod.fst).Sublist names) :
    fieldValues? names (fields.map fun field => (quotedBody field.1, field.2)) = some fields := by
  have decoded : ((fields.map fun field => (quotedBody field.1, field.2)).mapM
      fun (key, value) => (decode? key).map fun name => (name, value)) = some fields := by
    clear inOrder
    induction fields with
    | nil => rfl
    | cons field fields ih => simp [decode?_quotedBody, ih]
  have kept : (fields.filter fun (name, _) => names.contains name) = fields := by
    apply List.filter_eq_self.mpr
    intro field member
    simpa using inOrder.subset (List.mem_map_of_mem member)
  rw [fieldValues?, decoded]
  change (if ((fields.filter fun (name, _) => names.contains name).map Prod.fst).Nodup then _
    else none) = _
  rw [kept, if_pos (distinct.sublist inOrder)]

theorem exists_record {names : List Text} {written : List (Text × Text)}
    {fields : List (Text × Json)} (areFields : AreFields written fields) (distinct : names.Nodup)
    (inOrder : (fields.map Prod.fst).Sublist names) :
    ∃ value, IsText (renderObject written) value ∧ asFields? names value = some fields := by
  have areMembers : List.Forall₂ IsMember written
      (fields.map fun field => (quotedBody field.1, field.2)) := by
    apply List.forall₂_map_right_iff.mpr
    exact areFields.imp fun member field same => ⟨congrArg quotedBody same.1.symm, same.2⟩
  exact ⟨_, isText_renderObject areMembers, fieldValues?_quoted distinct inOrder⟩

/-- A bound that is set, as a field. -/
def boundField (name : Text) : Option UInt32 → List (Text × Json)
  | none => []
  | some width => [(name, .number (.ofNat width.toNat))]

theorem areFields_boundMember (name : Text) (bound : Option UInt32) :
    AreFields (Breakpoint.boundMember name bound) (boundField name bound) := by
  cases bound with
  | none => exact .nil
  | some width => exact .cons (isText_ofNat width.toNat) .nil

theorem boundField_sublist (name : Text) (bound : Option UInt32) :
    ((boundField name bound).map Prod.fst).Sublist [name] := by
  cases bound with
  | none => exact List.nil_sublist _
  | some width => exact List.Sublist.refl _

theorem asWidth?_ofNat (width : UInt32) :
    asWidth? (.number (.ofNat width.toNat)) = some (some width) := by
  have small : width.toNat < bitBound 32 := width.toNat_lt
  have fits : width.toNat < JsonNumber.significandBound :=
    Nat.lt_trans small (by decide)
  simp [asWidth?, datum?, JsonNumber.datum?_ofNat fits, Datum.asWidth?, small]

theorem conveys_breakpoint (breakpoint : Breakpoint) :
    Conveys asBreakpoint? breakpoint.toJson breakpoint := by
  rcases breakpoint with ⟨name, least, most⟩
  have areFields : AreFields
      (("name".toList, encode name) :: Breakpoint.boundMember "min".toList least ++
        Breakpoint.boundMember "max".toList most)
      (("name".toList, .string (quotedBody name)) :: boundField "min".toList least ++
        boundField "max".toList most) :=
    List.rel_append (AreFields.cons (isText_encode name) (areFields_boundMember _ least))
      (areFields_boundMember _ most)
  have inOrder : ((("name".toList, string (quotedBody name)) :: boundField "min".toList least ++
        boundField "max".toList most).map Prod.fst).Sublist
      ["name".toList, "min".toList, "max".toList] := by
    rw [List.map_append, List.map_cons, List.cons_append]
    exact ((boundField_sublist _ least).append (boundField_sublist _ most)).cons_cons _
  rcases exists_record areFields (by decide) inOrder with ⟨value, isText, fields⟩
  refine ⟨value, isText, ?_⟩
  rw [asBreakpoint?, fields]
  cases least <;> cases most <;>
    simp [readField?, List.lookup_cons, boundField, asText?, decode?_quotedBody, asWidth?_ofNat]

theorem conveys_breakpoints (breakpoints : List Breakpoint) :
    Conveys asBreakpoints? (renderArray (breakpoints.map Breakpoint.toJson)) breakpoints :=
  conveys_renderArray (fun breakpoint _ => conveys_breakpoint breakpoint) asBreakpoints?
    fun _ => rfl

end Json

namespace Config

open Json

theorem conveys_toJson (config : Config) : Conveys ofJson? config.toJson config := by
  rcases conveys_renderMapping fun entry (_ : entry ∈ config.property.entries) =>
    conveys_entry entry.2 with ⟨property, propertyText, propertyRead⟩
  rcases conveys_renderMapping fun entry (_ : entry ∈ config.values.entries) =>
    conveys_literal 2 entry.2 with ⟨values, valuesText, valuesRead⟩
  rcases conveys_renderMapping fun group (_ : group ∈ config.classes.entries) =>
    conveys_renderMapping fun entry (_ : entry ∈ group.2.entries) => conveys_literal 3 entry.2 with
    ⟨classes, classesText, classesRead⟩
  rcases conveys_renderMapping fun entry (_ : entry ∈ config.aliases.entries) =>
    conveys_encode entry.2 with ⟨aliases, aliasesText, aliasesRead⟩
  rcases conveys_breakpoints config.breakpoints with
    ⟨breakpoints, breakpointsText, breakpointsRead⟩
  rcases conveys_texts config.reserved with ⟨reserved, reservedText, reservedRead⟩
  have areFields : AreFields _
      [("property".toList, property), ("values".toList, values), ("classes".toList, classes),
        ("aliases".toList, aliases), ("breakpoints".toList, breakpoints),
        ("reserveClass".toList, reserved)] :=
    .cons propertyText (.cons valuesText (.cons classesText
      (.cons aliasesText (.cons breakpointsText (.cons reservedText .nil)))))
  have inOrder : List.Sublist fieldNames fieldNames := .refl _
  rcases exists_record areFields (by decide) inOrder with ⟨document, isText, fields⟩
  refine ⟨document, isText, ?_⟩
  rw [ofJson?, fields]
  simp [Json.readField?, List.lookup_cons, propertyRead, valuesRead, classesRead, aliasesRead,
    breakpointsRead, reservedRead]

/-- Writing a configuration as JSON and reading it again gives the same configuration: the same
entries in the same order. -/
theorem parseJson_toJson (config : Config) : parseJson config.toJson = .ok config := by
  rcases config.conveys_toJson with ⟨value, isText, isRead⟩
  rw [parseJson, readJson?, isText.read?_eq, Option.bind_some, isRead]

end Config

end UtilityCss
