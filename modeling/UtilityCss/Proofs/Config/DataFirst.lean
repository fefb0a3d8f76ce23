import UtilityCss.Config.FromYaml
import UtilityCss.Proofs.Yaml.Meaning
import UtilityCss.Proofs.Yaml.Reading

/-!
# Reading data first

What is expected of a node can be read at once, or the node is read as data first and the data are
converted. An expectation keeps up with its conversion when it gives whatever the conversion gives,
and follows no more aliases on the way. Texts, literals, property entries and mappings of them all
keep up.
-/

namespace UtilityCss

namespace Yaml

namespace Read

variable {α β γ δ : Type} {document : Document} {node : Node} {depth lower count : Nat}

/-- What data convert to, the expectation gives, with no more aliases. -/
def KeepsUp (document : Document) (loose : Read α) (convert : α → Option β) (strict : Read β) :
    Prop :=
  ∀ data count result, count ≤ document.aliasLimit → Takes document loose data count →
    convert data = some result → ∃ less ≤ count, Takes document strict result less

/-! ## Data and their nodes -/

/-- What a node can say, and how it must be made for that. -/
theorem takes_datum_cases {said : Datum} (affordable : count ≤ document.aliasLimit)
    (takes : Takes document (datum depth node) said count) :
    ∃ target first second, first + second = count ∧ Takes document (follow node) target first ∧
      ((∃ tag style text, target = .scalar tag style text ∧ second = 0 ∧
          Meaning.ofScalar tag style text = .ok said) ∨
        (∃ tag items lower data, target = .sequence tag items ∧ depth = lower + 1 ∧
          said = .list data ∧ Takes document (items.mapM (datum lower)) data second) ∨
        ∃ tag entries lower data, target = .mapping tag entries ∧ depth = lower + 1 ∧
          said = .map data ∧
          Takes document (entries.mapM (pair (datum lower) (datum lower))) data second) := by
  rw [datum.eq_def] at takes
  rcases exists_of_takes_follow affordable takes with ⟨target, first, room, takesFirst, goesOn⟩
  cases target with
  | scalar tag style text =>
      rcases yields_lift.mp goesOn with ⟨means, rfl⟩
      exact ⟨_, _, 0, rfl, takesFirst, Or.inl ⟨tag, style, text, rfl, rfl, means⟩⟩
  | aliasTo number => exact absurd goesOn not_yields_fail
  | sequence tag items =>
      simp only at goesOn
      split at goesOn
      · exact absurd goesOn not_yields_fail
      · cases depth with
        | zero => exact absurd goesOn not_yields_fail
        | succ lower =>
            rcases yields_bind.mp goesOn with ⟨data, between, each, isSaid⟩
            rcases yields_pure.mp isSaid with ⟨rfl, rfl⟩
            rcases IsSteady.mapM (fun item _ => IsSteady.datum lower item) _ _ _ room each with
              ⟨_, second, isCount, takesEach⟩
            exact ⟨_, first, second, isCount, takesFirst,
              Or.inr (Or.inl ⟨tag, items, lower, data, rfl, rfl, rfl, takesEach⟩)⟩
  | mapping tag entries =>
      simp only at goesOn
      split at goesOn
      · exact absurd goesOn not_yields_fail
      · cases depth with
        | zero => exact absurd goesOn not_yields_fail
        | succ lower =>
            rcases yields_bind.mp goesOn with ⟨data, between, each, isSaid⟩
            rcases yields_pure.mp isSaid with ⟨rfl, rfl⟩
            have steady : ∀ entry ∈ entries,
                IsSteady document (pair (datum lower) (datum lower) entry) :=
              fun entry _ => (IsSteady.datum lower entry.1).pair (IsSteady.datum lower entry.2)
            rcases IsSteady.mapM steady _ _ _ room each with ⟨_, second, isCount, takesEach⟩
            exact ⟨_, first, second, isCount, takesFirst,
              Or.inr (Or.inr ⟨tag, entries, lower, data, rfl, rfl, rfl, takesEach⟩)⟩

/-- Data that are no collection are said by a scalar. -/
theorem takes_datum_scalar {said : Datum} (affordable : count ≤ document.aliasLimit)
    (takes : Takes document (datum depth node) said count) (noList : ∀ data, said ≠ .list data)
    (noMap : ∀ data, said ≠ .map data) :
    ∃ tag style text, Takes document (follow node) (.scalar tag style text) count ∧
      Meaning.ofScalar tag style text = .ok said := by
  rcases takes_datum_cases affordable takes with ⟨target, first, second, isCount, follows,
    ⟨tag, style, text, rfl, rfl, means⟩ | ⟨_, _, _, data, _, _, isList, _⟩ |
    ⟨_, _, _, data, _, _, isMap, _⟩⟩
  · exact ⟨tag, style, text, isCount ▸ follows, means⟩
  · exact absurd isList (noList data)
  · exact absurd isMap (noMap data)

theorem takes_datum_list {data : List Datum} (affordable : count ≤ document.aliasLimit)
    (takes : Takes document (datum depth node) (.list data) count) :
    ∃ tag items lower first second, depth = lower + 1 ∧ first + second = count ∧
      Takes document (follow node) (.sequence tag items) first ∧
      Takes document (items.mapM (datum lower)) data second := by
  rcases takes_datum_cases affordable takes with ⟨target, first, second, isCount, follows,
    ⟨tag, style, text, _, _, means⟩ | ⟨tag, items, lower, _, rfl, isDepth, isList, each⟩ |
    ⟨_, _, _, _, _, _, isMap, _⟩⟩
  · exact absurd rfl ((Meaning.ne_collection means).1 data)
  · cases isList
    exact ⟨tag, items, lower, first, second, isDepth, isCount, follows, each⟩
  · cases isMap

theorem takes_datum_map {data : List (Datum × Datum)} (affordable : count ≤ document.aliasLimit)
    (takes : Takes document (datum depth node) (.map data) count) :
    ∃ tag entries lower first second, depth = lower + 1 ∧ first + second = count ∧
      Takes document (follow node) (.mapping tag entries) first ∧
      Takes document (entries.mapM (pair (datum lower) (datum lower))) data second := by
  rcases takes_datum_cases affordable takes with ⟨target, first, second, isCount, follows,
    ⟨tag, style, text, _, _, means⟩ | ⟨_, _, _, _, _, _, isList, _⟩ |
    ⟨tag, entries, lower, _, rfl, isDepth, isMap, each⟩⟩
  · exact absurd rfl ((Meaning.ne_collection means).2 data)
  · cases isList
  · cases isMap
    exact ⟨tag, entries, lower, first, second, isDepth, isCount, follows, each⟩

/-! ## Expectations that keep up -/

theorem KeepsUp.text (depth : Nat) (node : Node) :
    KeepsUp document (datum depth node) Datum.asText? (text node) := by
  intro said count name affordable takes isText
  have noList : ∀ data, said ≠ .list data := by
    rintro data rfl
    cases isText
  have noMap : ∀ data, said ≠ .map data := by
    rintro data rfl
    cases isText
  rcases takes_datum_scalar affordable takes noList noMap with ⟨tag, style, text, follows, means⟩
  have same := Meaning.eq_of_asText? means isText
  subst same
  exact ⟨count, Nat.le_refl count, takes_bind_free follows (takes_pure name)⟩

/-- Data that are converted where they are expected keep up with their own conversion. -/
theorem KeepsUp.expect {loose : Read α} (convert : α → Option β) :
    KeepsUp document loose convert (loose >>= fun data => expect (convert data)) := by
  intro data count result _ takes converts
  exact ⟨count, Nat.le_refl count, takes_bind_free takes (takes_expect converts)⟩

theorem KeepsUp.keyed {convert : Datum → Option α} {strict : Node → Read α} {entry : Node × Node}
    (keeps : KeepsUp document (datum lower entry.2) convert (strict entry.2)) :
    KeepsUp document (pair (datum lower) (datum lower) entry)
      (fun data => do return (← data.1.asText?, ← convert data.2))
      (pair Read.text strict entry) := by
  intro data count result affordable takes converts
  rcases exists_of_takes_pair (IsSteady.datum lower) (IsSteady.datum lower) affordable takes with
    ⟨first, second, isCount, takesKey, takesValue⟩
  simp only [Option.bind_eq_bind, Option.bind_eq_some_iff, Option.pure_def,
    Option.some.injEq] at converts
  rcases converts with ⟨name, isName, value, isValue, rfl⟩
  rcases KeepsUp.text lower entry.1 data.1 first name (by omega) takesKey isName with
    ⟨lessKey, fewer, takesName⟩
  rcases keeps data.2 second value (by omega) takesValue isValue with
    ⟨lessValue, fewerValue, takesStrict⟩
  exact ⟨lessKey + lessValue, by omega, takes_pair takesName takesStrict⟩

theorem KeepsUp.mapM {items : List α} {loose : α → Read β} {convert : β → Option γ}
    {strict : α → Read γ} (steady : ∀ item, IsSteady document (loose item))
    (keeps : ∀ item ∈ items, KeepsUp document (loose item) convert (strict item)) :
    KeepsUp document (items.mapM loose) (List.mapM convert) (items.mapM strict) := by
  induction items with
  | nil =>
      intro data count results affordable takes converts
      rcases takes.eq_of_pure affordable with ⟨rfl, rfl⟩
      cases converts
      exact ⟨0, Nat.le_refl 0, takes_pure []⟩
  | cons item items ih =>
      intro data count results affordable takes converts
      rcases exists_of_takes_mapM_cons steady affordable takes with
        ⟨said, more, first, second, rfl, isCount, takesItem, takesMore⟩
      simp only [List.mapM_cons, Option.bind_eq_bind, Option.bind_eq_some_iff, Option.pure_def,
        Option.some.injEq] at converts
      rcases converts with ⟨result, isResult, others, areOthers, rfl⟩
      rcases keeps item List.mem_cons_self said first result (by omega) takesItem isResult with
        ⟨less, fewer, takesStrict⟩
      rcases ih (fun other member => keeps other (List.mem_cons_of_mem item member)) more second
        others (by omega) takesMore areOthers with ⟨lessMore, fewerMore, takesOthers⟩
      exact ⟨less + lessMore, by omega, takes_mapM_cons takesStrict takesOthers⟩

/-- A mapping keeps up when its values do; the values stand one collection deeper. -/
theorem KeepsUp.mapping {convert : Datum → Option α} {strict : Node → Read α}
    (keeps : ∀ value, KeepsUp document (datum lower value) convert (strict value)) :
    KeepsUp document (datum (lower + 1) node) (Datum.asMapping? convert)
      (mapping strict node) := by
  intro said count result affordable takes converts
  cases said with
  | map data =>
      simp only [Datum.asMapping?, Option.bind_eq_bind, Option.bind_eq_some_iff, Option.pure_def,
        Option.some.injEq] at converts
      rcases converts with ⟨keyed, isKeyed, rfl⟩
      rcases takes_datum_map affordable takes with
        ⟨tag, entries, depth, first, second, isDepth, isCount, follows, each⟩
      cases isDepth
      have steady : ∀ entry : Node × Node,
          IsSteady document (pair (datum lower) (datum lower) entry) :=
        fun entry => (IsSteady.datum lower entry.1).pair (IsSteady.datum lower entry.2)
      rcases KeepsUp.mapM steady (fun entry _ => (keeps entry.2).keyed) data second keyed
        (by omega) each isKeyed with ⟨less, fewer, takesKeyed⟩
      refine ⟨first + less, by omega, ?_⟩
      apply takes_bind (takes_entries follows)
      exact takes_bind_free takesKeyed (takes_pure _)
  | _ => cases converts

theorem KeepsUp.texts :
    KeepsUp document (datum depth node) Datum.asTexts? (texts node) := by
  intro said count result affordable takes converts
  cases said with
  | list data =>
      rcases takes_datum_list affordable takes with
        ⟨tag, items, lower, first, second, _, isCount, follows, each⟩
      rcases KeepsUp.mapM (IsSteady.datum lower) (fun item _ => KeepsUp.text lower item) data second
        result (by omega) each converts with ⟨less, fewer, takesTexts⟩
      refine ⟨first + less, by omega, ?_⟩
      exact takes_bind (takes_items follows) takesTexts
  | _ => cases converts

end Read

end Yaml

end UtilityCss
