import UtilityCss.Yaml.Reading

/-!
# Readings and the aliases they follow

A reading may follow a number of aliases before it is refused, counted over the whole document. So
what a reading gives depends on where it starts only as far as the aliases that are left suffice:
such a reading is steady, and it takes a number of aliases of its own. All expectations that are put
together from scalars, collections and data are steady.
-/

namespace UtilityCss

namespace Yaml

variable {α β : Type} {document : Document}

namespace Document

/-- The number of aliases that may be followed. -/
def aliasLimit (document : Document) : Nat :=
  document.weight * 100

/-- The node that a node stands for: an alias stands for the node that carries its anchor. -/
def target? (document : Document) : Node → Option Node
  | .aliasTo number => document.anchored.lookup number
  | node => some node

end Document

namespace Read

variable {reading : Read α} {next : α → Read β} {value : α} {result : β}
  {node target : Node} {before between after count less : Nat}

/-- Behind the aliases followed before, a reading gives a value, and more aliases are followed. -/
def Yields (document : Document) (reading : Read α) (before : Nat) (value : α) (after : Nat) :
    Prop :=
  (reading.run document).run before = .ok (value, after)

/-- Wherever enough aliases are left, a reading gives a value and takes a number of aliases. -/
def Takes (document : Document) (reading : Read α) (value : α) (count : Nat) : Prop :=
  ∀ before, before + count ≤ document.aliasLimit →
    Yields document reading before value (before + count)

/-- What a reading gives somewhere it gives everywhere, if enough aliases are left. -/
def IsSteady (document : Document) (reading : Read α) : Prop :=
  ∀ before value after, before ≤ document.aliasLimit → Yields document reading before value after →
    after ≤ document.aliasLimit ∧
      ∃ count, before + count = after ∧ Takes document reading value count

def pair {γ δ : Type} (readKey : α → Read γ) (readValue : β → Read δ) (entry : α × β) :
    Read (γ × δ) := do
  return (← readKey entry.1, ← readValue entry.2)

def named (entry : Node × Node) : Read (Text × Node) := do
  return (← text entry.1, entry.2)

/-! ## Single steps -/

@[simp] theorem yields_pure {other : α} :
    Yields document (pure value) before other after ↔ value = other ∧ before = after := by
  change (Except.ok (value, before) : Outcome _) = .ok (other, after) ↔ _
  simp

@[simp] theorem not_yields_fail {fault : Fault} :
    ¬Yields document (fail fault : Read α) before value after := by
  change ¬(Except.error fault : Outcome _) = .ok (value, after)
  simp

theorem yields_bind :
    Yields document (reading >>= next) before result after ↔
      ∃ value between, Yields document reading before value between ∧
        Yields document (next value) between result after := by
  simp only [Yields, ReaderT.run_bind, StateT.run_bind]
  cases first : (reading.run document).run before with
  | error fault => simp [bind, Except.bind]
  | ok pair =>
      rcases pair with ⟨value, between⟩
      simp [bind, Except.bind, and_assoc]

@[simp] theorem yields_lift {outcome : Outcome α} :
    Yields document (lift outcome) before value after ↔
      outcome = .ok value ∧ before = after := by
  cases outcome with
  | ok found => simp [lift]
  | error fault => simp [lift]

@[simp] theorem yields_expect {found : Option α} :
    Yields document (expect found) before value after ↔
      found = some value ∧ before = after := by
  cases found with
  | some found => simp [expect]
  | none => simp [expect]

theorem yields_read {found : Document} :
    Yields document (read : Read Document) before found after ↔
      document = found ∧ before = after := by
  change (Except.ok (document, before) : Outcome _) = .ok (found, after) ↔ _
  simp

theorem yields_modify {change : Nat → Nat} {answer : Unit} :
    Yields document (modify change : Read Unit) before answer after ↔ change before = after := by
  change (Except.ok ((), change before) : Outcome _) = .ok (answer, after) ↔ _
  simp

theorem yields_get {found : Nat} :
    Yields document (get : Read Nat) before found after ↔ before = found ∧ before = after := by
  change (Except.ok (before, before) : Outcome _) = .ok (found, after) ↔ _
  simp

/-- An alias is followed to the node that carries its anchor; other nodes stand for themselves. -/
theorem yields_follow :
    Yields document (follow node) before target after ↔
      match node with
      | .aliasTo number => after = before + 1 ∧ after ≤ document.aliasLimit ∧
          document.anchored.lookup number = some target
      | node => target = node ∧ after = before := by
  cases node with
  | scalar tag style text => simp [follow, eq_comm]
  | sequence tag items => simp [follow, eq_comm]
  | mapping tag entries => simp [follow, eq_comm]
  | aliasTo number =>
      simp only [follow, yields_bind, yields_read, yields_modify, yields_get, Document.aliasLimit]
      constructor
      · rintro ⟨_, _, ⟨rfl, rfl⟩, _, _, rfl, _, _, ⟨rfl, rfl⟩, found⟩
        split at found
        · simp at found
        · rename_i within
          split at found
          · rename_i other isLookup
            simp only [yields_pure] at found
            rcases found with ⟨rfl, rfl⟩
            exact ⟨rfl, Nat.le_of_not_lt within, isLookup⟩
          · simp at found
      · rintro ⟨rfl, within, isLookup⟩
        refine ⟨_, _, ⟨rfl, rfl⟩, (), _, rfl, _, _, ⟨rfl, rfl⟩, ?_⟩
        rw [if_neg (Nat.not_lt.mpr within), isLookup]
        simp

/-! ## Steady readings -/

theorem IsSteady.pure (value : α) : IsSteady document (pure value) := by
  intro before other after within yields
  simp only [yields_pure] at yields
  rcases yields with ⟨rfl, rfl⟩
  refine ⟨within, 0, rfl, ?_⟩
  intro start _
  simp

theorem IsSteady.fail (fault : Fault) : IsSteady document (fail fault : Read α) := by
  intro before value after _ yields
  simp at yields

theorem IsSteady.lift (outcome : Outcome α) : IsSteady document (lift outcome) := by
  cases outcome with
  | ok value => exact .pure value
  | error fault => exact .fail fault

theorem IsSteady.expect (found : Option α) : IsSteady document (expect found) := by
  cases found with
  | some value => exact .pure value
  | none => exact .fail .unexpectedShape

theorem takes_bind {first second : Nat} (takes : Takes document reading value first)
    (goesOn : Takes document (next value) result second) :
    Takes document (reading >>= next) result (first + second) := by
  intro before within
  rw [yields_bind]
  refine ⟨value, before + first, takes before (by omega), ?_⟩
  rw [← Nat.add_assoc]
  exact goesOn (before + first) (by omega)

theorem takes_bind_free (takes : Takes document reading value count)
    (goesOn : Takes document (next value) result 0) :
    Takes document (reading >>= next) result count :=
  takes_bind takes goesOn

theorem IsSteady.bind (steady : IsSteady document reading)
    (goesOn : ∀ value, IsSteady document (next value)) :
    IsSteady document (reading >>= next) := by
  intro before result after within yields
  rcases yields_bind.mp yields with ⟨value, between, first, second⟩
  rcases steady before value between within first with ⟨room, count, isBetween, takes⟩
  rcases goesOn value between result after room second with ⟨roomBehind, more, isAfter, takesMore⟩
  exact ⟨roomBehind, count + more, by omega, takes_bind takes takesMore⟩

theorem IsSteady.follow (node : Node) : IsSteady document (follow node) := by
  intro before target after within yields
  cases node with
  | aliasTo number =>
      rcases yields_follow.mp yields with ⟨rfl, room, isLookup⟩
      refine ⟨room, 1, rfl, ?_⟩
      intro start roomThere
      exact yields_follow.mpr ⟨rfl, roomThere, isLookup⟩
  | scalar tag style text => exact IsSteady.pure (Node.scalar tag style text) _ _ _ within yields
  | sequence tag items => exact IsSteady.pure (Node.sequence tag items) _ _ _ within yields
  | mapping tag entries => exact IsSteady.pure (Node.mapping tag entries) _ _ _ within yields

theorem IsSteady.mapM {items : List α} {step : α → Read β}
    (steady : ∀ item ∈ items, IsSteady document (step item)) :
    IsSteady document (items.mapM step) := by
  induction items with
  | nil => exact .pure []
  | cons item items ih =>
      rw [List.mapM_cons]
      apply (steady item List.mem_cons_self).bind
      intro value
      apply (ih fun other member => steady other (List.mem_cons_of_mem item member)).bind
      intro values
      exact .pure (value :: values)

/-! ## Steady expectations -/

theorem IsSteady.text (node : Node) : IsSteady document (text node) := by
  apply (IsSteady.follow node).bind
  intro target
  cases target with
  | scalar tag style text => exact .pure text
  | _ => exact .fail .unexpectedShape

theorem IsSteady.items (node : Node) : IsSteady document (items node) := by
  apply (IsSteady.follow node).bind
  intro target
  split
  · exact .pure _
  · split
    · exact .pure []
    · exact .fail .unexpectedShape

theorem IsSteady.entries (node : Node) : IsSteady document (entries node) := by
  apply (IsSteady.follow node).bind
  intro target
  split
  · exact .pure _
  · split
    · exact .pure []
    · exact .fail .unexpectedShape

theorem IsSteady.width (node : Node) : IsSteady document (width node) := by
  apply (IsSteady.follow node).bind
  intro target
  cases target with
  | scalar tag style text => exact .lift _
  | _ => exact .fail .unexpectedShape

theorem IsSteady.pair {γ δ : Type} {readKey : α → Read γ} {readValue : β → Read δ} {entry : α × β}
    (steadyKey : IsSteady document (readKey entry.1))
    (steadyValue : IsSteady document (readValue entry.2)) :
    IsSteady document (pair readKey readValue entry) := by
  apply steadyKey.bind
  intro key
  apply steadyValue.bind
  intro value
  exact .pure (key, value)

theorem IsSteady.datum (depth : Nat) (node : Node) : IsSteady document (datum depth node) := by
  induction depth generalizing node with
  | zero =>
      rw [Read.datum.eq_def]
      apply (IsSteady.follow node).bind
      intro target
      cases target with
      | scalar tag style text => exact .lift _
      | sequence tag items =>
          simp only
          split
          · exact .fail .unexpectedShape
          · exact .fail .tooDeep
      | mapping tag entries =>
          simp only
          split
          · exact .fail .unexpectedShape
          · exact .fail .tooDeep
      | aliasTo number => exact .fail .undefinedAlias
  | succ depth ih =>
      rw [Read.datum.eq_def]
      apply (IsSteady.follow node).bind
      intro target
      cases target with
      | scalar tag style text => exact .lift _
      | sequence tag items =>
          simp only
          split
          · exact .fail .unexpectedShape
          · apply (IsSteady.mapM fun item _ => ih item).bind
            intro data
            exact .pure (Datum.list data)
      | mapping tag entries =>
          simp only
          split
          · exact .fail .unexpectedShape
          · apply (IsSteady.mapM fun entry _ => (ih entry.1).pair (ih entry.2)).bind
            intro data
            exact .pure (Datum.map data)
      | aliasTo number => exact .fail .undefinedAlias

theorem IsSteady.named (entry : Node × Node) : IsSteady document (named entry) := by
  apply (IsSteady.text entry.1).bind
  intro name
  exact .pure (name, entry.2)

theorem IsSteady.fields (names : List Text) (entries : List (Node × Node)) :
    IsSteady document (fields names entries) := by
  apply (IsSteady.mapM fun entry _ => IsSteady.named entry).bind
  intro keyed
  simp only
  split
  · exact .pure _
  · exact .fail .unexpectedShape

theorem IsSteady.field {missing : Option α} {step : Node → Read α} {name : Text}
    {known : List (Text × Node)} (steady : ∀ node, IsSteady document (step node)) :
    IsSteady document (field missing step name known) := by
  rw [Read.field]
  split
  · rename_i node _
    exact steady node
  · exact .expect missing

theorem IsSteady.texts (node : Node) : IsSteady document (texts node) := by
  apply (IsSteady.items node).bind
  intro items
  exact .mapM fun item _ => .text item

/-! ## What steady readings take -/

theorem Takes.yields (takes : Takes document reading value count)
    (affordable : count ≤ document.aliasLimit) : Yields document reading 0 value count := by
  have fromStart := takes 0 (by omega)
  rwa [Nat.zero_add] at fromStart

theorem Takes.unique {other : α} (takes : Takes document reading value count)
    (affordable : count ≤ document.aliasLimit) (takesOther : Takes document reading other less)
    (affordableOther : less ≤ document.aliasLimit) : value = other ∧ count = less := by
  have first := takes.yields affordable
  have second := takesOther.yields affordableOther
  rw [Yields] at first second
  rw [first] at second
  simpa using second

theorem IsSteady.takes (steady : IsSteady document reading)
    (yields : Yields document reading 0 value count) :
    count ≤ document.aliasLimit ∧ Takes document reading value count := by
  rcases steady 0 value count (Nat.zero_le _) yields with ⟨room, other, isCount, takes⟩
  rw [Nat.zero_add] at isCount
  exact ⟨room, isCount ▸ takes⟩

theorem target?_of_takes (takes : Takes document (follow node) target count)
    (affordable : count ≤ document.aliasLimit) : document.target? node = some target := by
  have follows := takes.yields affordable
  cases node with
  | aliasTo number => exact (yields_follow.mp follows).2.2
  | scalar tag style text => rw [(yields_follow.mp follows).1, Document.target?.eq_2 _ _ (by simp)]
  | sequence tag items => rw [(yields_follow.mp follows).1, Document.target?.eq_2 _ _ (by simp)]
  | mapping tag entries => rw [(yields_follow.mp follows).1, Document.target?.eq_2 _ _ (by simp)]

theorem takes_pure (value : α) : Takes document (pure value) value 0 := by
  intro before _
  simp

theorem Takes.eq_of_pure {other : α} (takes : Takes document (pure value) other count)
    (affordable : count ≤ document.aliasLimit) : other = value ∧ count = 0 :=
  takes.unique affordable (takes_pure value) (Nat.zero_le _)

theorem not_takes_fail {fault : Fault} (affordable : count ≤ document.aliasLimit) :
    ¬Takes document (fail fault : Read α) value count := by
  intro takes
  exact not_yields_fail (takes.yields affordable)

/-- What goes on from the target of a node goes on behind the aliases to it. -/
theorem exists_of_takes_follow {goesOn : Node → Read α} (affordable : count ≤ document.aliasLimit)
    (takes : Takes document (follow node >>= goesOn) value count) :
    ∃ target first, first ≤ document.aliasLimit ∧ Takes document (follow node) target first ∧
      Yields document (goesOn target) first value count := by
  rcases yields_bind.mp (takes.yields affordable) with ⟨target, first, follows, yields⟩
  rcases (IsSteady.follow node).takes follows with ⟨room, takesFollow⟩
  exact ⟨target, first, room, takesFollow, yields⟩

theorem takes_items {tag : Option Text} {items : List Node}
    (follows : Takes document (follow node) (.sequence tag items) count) :
    Takes document (Read.items node) items count :=
  takes_bind_free follows (takes_pure items)

theorem takes_entries {tag : Option Text} {entries : List (Node × Node)}
    (follows : Takes document (follow node) (.mapping tag entries) count) :
    Takes document (Read.entries node) entries count :=
  takes_bind_free follows (takes_pure entries)

theorem not_takes_entries {tag : Option Text} {items : List Node} {entries : List (Node × Node)}
    (follows : Takes document (follow node) (.sequence tag items) less)
    (affordableLess : less ≤ document.aliasLimit) (affordable : count ≤ document.aliasLimit) :
    ¬Takes document (Read.entries node) entries count := by
  intro takes
  rcases exists_of_takes_follow affordable takes with ⟨target, first, room, takesFollow, fails⟩
  rcases takesFollow.unique room follows affordableLess with ⟨rfl, _⟩
  exact not_yields_fail fails

theorem takes_expect {found : Option α} (isFound : found = some value) :
    Takes document (expect found) value 0 := by
  rw [isFound]
  exact takes_pure value

theorem exists_of_takes_bind (steady : IsSteady document reading)
    (goesOn : ∀ value, IsSteady document (next value)) (affordable : count ≤ document.aliasLimit)
    (takes : Takes document (reading >>= next) result count) :
    ∃ value first second, first + second = count ∧ Takes document reading value first ∧
      Takes document (next value) result second := by
  rcases yields_bind.mp (takes.yields affordable) with ⟨value, between, first, second⟩
  rcases steady.takes first with ⟨room, takesFirst⟩
  rcases goesOn value between result count room second with ⟨_, more, isCount, takesMore⟩
  exact ⟨value, between, more, isCount, takesFirst, takesMore⟩

/-- Behind a reading whose value is known, the rest takes the rest. -/
theorem exists_of_takes_next {total : Nat} (known : Takes document reading value count)
    (affordableKnown : count ≤ document.aliasLimit) (steady : IsSteady document reading)
    (goesOn : ∀ value, IsSteady document (next value)) (affordable : total ≤ document.aliasLimit)
    (takes : Takes document (reading >>= next) result total) :
    ∃ rest, count + rest = total ∧ Takes document (next value) result rest := by
  rcases exists_of_takes_bind steady goesOn affordable takes with
    ⟨other, first, rest, isTotal, takesFirst, takesRest⟩
  rcases takesFirst.unique (by omega) known affordableKnown with ⟨rfl, rfl⟩
  exact ⟨rest, isTotal, takesRest⟩

/-- Behind a reading whose value is known, the rest goes on from there. -/
theorem yields_rest (known : Takes document reading value count)
    (room : before + count ≤ document.aliasLimit)
    (yields : Yields document (reading >>= next) before result after) :
    Yields document (next value) (before + count) result after := by
  rcases yields_bind.mp yields with ⟨other, between, first, second⟩
  have same := known before room
  rw [Yields] at first same
  rw [first] at same
  cases same
  exact second

theorem exists_of_takes_mapM_cons {item : α} {items : List α} {step : α → Read β}
    {results : List β} (steady : ∀ item, IsSteady document (step item))
    (affordable : count ≤ document.aliasLimit)
    (takes : Takes document ((item :: items).mapM step) results count) :
    ∃ result more first second, results = result :: more ∧ first + second = count ∧
      Takes document (step item) result first ∧
      Takes document (items.mapM step) more second := by
  rw [List.mapM_cons] at takes
  have steadyItems : IsSteady document (items.mapM step) := .mapM fun item _ => steady item
  rcases exists_of_takes_bind (steady item)
    (fun _ => steadyItems.bind fun _ => .pure _) affordable takes with
    ⟨result, first, rest, isCount, takesFirst, takesRest⟩
  rcases exists_of_takes_bind steadyItems (fun _ => .pure _) (by omega) takesRest with
    ⟨more, second, last, isRest, takesSecond, takesLast⟩
  have isLast := takesLast.eq_of_pure (by omega)
  exact ⟨result, more, first, second, isLast.1, by omega, takesFirst, takesSecond⟩

theorem exists_of_takes_pair {γ δ : Type} {readKey : α → Read γ} {readValue : β → Read δ}
    {entry : α × β} {read : γ × δ} (steadyKey : ∀ key, IsSteady document (readKey key))
    (steadyValue : ∀ value, IsSteady document (readValue value))
    (affordable : count ≤ document.aliasLimit)
    (takes : Takes document (pair readKey readValue entry) read count) :
    ∃ first second, first + second = count ∧ Takes document (readKey entry.1) read.1 first ∧
      Takes document (readValue entry.2) read.2 second := by
  rcases exists_of_takes_bind (steadyKey entry.1)
    (fun _ => (steadyValue entry.2).bind fun _ => .pure _) affordable takes with
    ⟨key, first, rest, isCount, takesKey, takesRest⟩
  rcases exists_of_takes_bind (steadyValue entry.2) (fun _ => .pure _) (by omega) takesRest with
    ⟨value, second, last, isRest, takesValue, takesLast⟩
  rcases takesLast.eq_of_pure (by omega) with ⟨rfl, _⟩
  exact ⟨first, second, by omega, takesKey, takesValue⟩

theorem takes_pair {γ δ : Type} {readKey : α → Read γ} {readValue : β → Read δ} {entry : α × β}
    {key : γ} {value : δ} {first second : Nat} (takesKey : Takes document (readKey entry.1) key first)
    (takesValue : Takes document (readValue entry.2) value second) :
    Takes document (pair readKey readValue entry) (key, value) (first + second) :=
  takes_bind takesKey (takes_bind_free takesValue (takes_pure (key, value)))

theorem takes_mapM_cons {item : α} {items : List α} {step : α → Read β} {results : List β}
    {first second : Nat} (takes : Takes document (step item) result first)
    (takesMore : Takes document (items.mapM step) results second) :
    Takes document ((item :: items).mapM step) (result :: results) (first + second) := by
  rw [List.mapM_cons]
  exact takes_bind takes (takes_bind_free takesMore (takes_pure (result :: results)))

end Read

end Yaml

end UtilityCss
