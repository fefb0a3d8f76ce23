import UtilityCss.Files.Path
import UtilityCss.Proofs.Text.Cutting

/-!
# Components of paths and the places they lead to

Only the components of a path matter to where it leads. A path continued by a relative one has the
components of both, whatever slashes stand between them; so the path of a file below a directory is
known by its components, however the path of the directory is written. The other way round a place
does not tell the components: a relative path and an absolute one never have the same.
-/

namespace UtilityCss

namespace Path

/-- A name that a file or a directory can have. -/
def IsName (name : Text) : Prop :=
  name ≠ [] ∧ name ≠ ['.'] ∧ name ≠ ['.', '.'] ∧ '/' ∉ name

instance (name : Text) : Decidable (IsName name) :=
  inferInstanceAs (Decidable (_ ∧ _ ∧ _ ∧ _))

theorem IsName.isVoid_eq {name : Text} (isName : IsName name) : isVoid name = false := by
  simp [isVoid, isName.1, isName.2.1]

theorem IsName.not_isAbsolute {name : Text} (isName : IsName name) : isAbsolute name = false := by
  cases name with
  | nil => rfl
  | cons c rest =>
      have different : c ≠ '/' := by
        rintro rfl
        exact isName.2.2.2 List.mem_cons_self
      simp [isAbsolute, different]

/-- What stands between slashes is void, leads up or is a name. -/
theorem isName_of_segment {segment : Text} (noSlash : '/' ∉ segment)
    (notVoid : isVoid segment = false) (notUp : segment ≠ ['.', '.']) : IsName segment := by
  have nonempty : segment ≠ [] ∧ segment ≠ ['.'] := by
    simpa [isVoid] using notVoid
  exact ⟨nonempty.1, nonempty.2, notUp, noSlash⟩

theorem not_mem_slash_of_mem_segments {path segment : Text} (member : segment ∈ segments path) :
    '/' ∉ segment := by
  intro inSegment
  have separates := Text.noSeparator_of_mem_pieces member '/' inSegment
  simp at separates

theorem exists_segments_eq_cons (path : Text) : ∃ first rest, segments path = first :: rest :=
  List.exists_cons_of_ne_nil (Text.pieces_ne_nil (· == '/') path)

theorem segments_append_slash (first rest : Text) :
    segments (first ++ '/' :: rest) = segments first ++ segments rest :=
  Text.pieces_append_cons (by simp) first rest

theorem IsName.segments_eq {name : Text} (isName : IsName name) : segments name = [name] := by
  apply Text.pieces_of_noSeparator
  intro c member
  have different : c ≠ '/' := by
    rintro rfl
    exact isName.2.2.2 member
  simpa using different

theorem IsName.componentOf_eq {name : Text} (isName : IsName name) :
    componentOf name = .name name := by
  simp [componentOf, isName.2.2.1]

/-! ## Later components -/

@[simp]
theorem laterComponents_nil : laterComponents [] = [] := rfl

theorem laterComponents_append (first rest : List Text) :
    laterComponents (first ++ rest) = laterComponents first ++ laterComponents rest := by
  simp [laterComponents]

theorem laterComponents_cons (segment : Text) (rest : List Text) :
    laterComponents (segment :: rest) =
      if isVoid segment then laterComponents rest
      else componentOf segment :: laterComponents rest := by
  by_cases void : isVoid segment = true <;> simp [laterComponents, void]

theorem isName_of_mem_names {path name : Text} (noUp : ['.', '.'] ∉ segments path)
    (member : name ∈ names path) : IsName name := by
  rcases List.mem_filter.mp member with ⟨isSegment, notVoid⟩
  apply isName_of_segment (not_mem_slash_of_mem_segments isSegment)
  · simpa using notVoid
  · rintro rfl
    exact noUp isSegment

theorem laterComponents_of_noUp {path : Text} (noUp : ['.', '.'] ∉ segments path) :
    laterComponents (segments path) = (names path).map .name := by
  apply List.map_congr_left
  intro segment kept
  exact (isName_of_mem_names noUp kept).componentOf_eq

/-! ## Components of joined paths -/

/-- The component of the first segment of a path. -/
def firstComponent (segment : Text) : Component :=
  if segment.isEmpty then .root else if segment == ['.'] then .here else componentOf segment

theorem components_eq {path first : Text} {rest : List Text} (nonempty : path ≠ [])
    (cut : segments path = first :: rest) :
    components path = firstComponent first :: laterComponents rest := by
  simp only [components, cut, firstComponent, List.isEmpty_iff, nonempty, if_false]
  split
  · rfl
  · split <;> rfl

theorem components_eq_nil_iff {path : Text} : components path = [] ↔ path = [] := by
  constructor
  · intro noComponents
    apply Classical.byContradiction
    intro nonempty
    rcases exists_segments_eq_cons path with ⟨first, rest, isPath⟩
    rw [components_eq nonempty isPath] at noComponents
    cases noComponents
  · rintro rfl
    rfl

theorem components_append_slash {base : Text} (tail : Text) (more : List Text)
    (cut : segments (base ++ '/' :: tail) = segments base ++ more) :
    components (base ++ '/' :: tail) =
      components (base ++ ['/']) ++ laterComponents more := by
  have isEnd : segments (base ++ ['/']) = segments base ++ [[]] := segments_append_slash base []
  rcases exists_segments_eq_cons base with ⟨first, rest, isBase⟩
  rw [isBase, List.cons_append] at cut isEnd
  rw [components_eq (by simp) cut, components_eq (by simp) isEnd]
  simp [laterComponents_append, laterComponents_cons, isVoid]

/-- A slash at the end of a path does not count, unless it is the whole path. -/
theorem components_concat_slash {base : Text} (nonempty : base ≠ []) :
    components (base ++ ['/']) = components base := by
  rcases exists_segments_eq_cons base with ⟨first, rest, isBase⟩
  have isEnd : segments (base ++ ['/']) = first :: (rest ++ [[]]) := by
    rw [segments_append_slash, isBase]
    rfl
  rw [components_eq (by simp) isEnd, components_eq nonempty isBase]
  simp [laterComponents_append, laterComponents_cons, isVoid]

/-- A path continued by a relative one has the components of both. -/
theorem components_join {base tail : Text} (nonempty : base ≠ [])
    (relative : isAbsolute tail = false) :
    components (join base tail) = components base ++ laterComponents (segments tail) := by
  simp only [join, relative, Bool.false_eq_true, if_false, Bool.or_eq_true, List.isEmpty_iff,
    nonempty, false_or, beq_iff_eq]
  split
  · rename_i isEnd
    rcases List.getLast?_eq_some_iff.mp isEnd with ⟨start, rfl⟩
    rw [List.append_assoc, List.singleton_append]
    exact components_append_slash tail _ (segments_append_slash start tail)
  · rw [components_append_slash tail _ (segments_append_slash base tail),
      components_concat_slash nonempty]

theorem join_ne_nil {base : Text} (nonempty : base ≠ []) {tail : Text}
    (relative : isAbsolute tail = false) : join base tail ≠ [] := by
  rw [join, relative, if_neg Bool.false_ne_true]
  split <;> simp [nonempty]

theorem segments_eq_nil_cons {path : Text} {rest : List Text}
    (cut : segments path = [] :: rest) : path = [] ∨ isAbsolute path = true := by
  cases path with
  | nil => exact Or.inl rfl
  | cons c path =>
      refine Or.inr ?_
      rcases exists_segments_eq_cons path with ⟨first, more, isPath⟩
      by_cases slash : c = '/'
      · simp [isAbsolute, slash]
      · rw [segments] at isPath
        simp [segments, Text.pieces, slash, isPath] at cut

theorem components_of_absolute {path : Text} (absolute : isAbsolute path = true) :
    components path = .root :: laterComponents (segments path) := by
  cases path with
  | nil => cases absolute
  | cons c path =>
      have slash : c = '/' := by simpa [isAbsolute] using absolute
      subst slash
      have cut : segments ('/' :: path) = [] :: segments path := segments_append_slash [] path
      rw [components_eq (by simp) cut, cut, laterComponents_cons]
      rfl

/-! ## Places -/

theorem lead_append (start : Place) (first rest : List Component) :
    lead start (first ++ rest) = lead (lead start first) rest := by
  induction first generalizing start with
  | nil => rfl
  | cons component first ih =>
      cases component with
      | root => exact ih []
      | here => exact ih start
      | up => exact ih start.dropLast
      | name name => exact ih (start ++ [name])

theorem lead_names (start : Place) (names : List Text) :
    lead start (names.map .name) = start ++ names := by
  induction names generalizing start with
  | nil => simp [lead]
  | cons name names ih => simp [lead, ih]

/-- The first segment of a path tells where it sets out; from there on it counts like the others. -/
theorem lead_components (home : Place) {path : Text} (nonempty : path ≠ []) :
    lead home (components path) = lead (startOf home path) (laterComponents (segments path)) := by
  rw [startOf]
  split
  · rename_i absolute
    rw [components_of_absolute absolute]
    rfl
  · rename_i relative
    rcases exists_segments_eq_cons path with ⟨first, rest, isPath⟩
    have someFirst : first ≠ [] := by
      rintro rfl
      exact (segments_eq_nil_cons isPath).elim nonempty relative
    rw [components_eq nonempty isPath, isPath, laterComponents_cons]
    by_cases point : first = ['.']
    · simp [firstComponent, point, isVoid, lead]
    · simp [firstComponent, point, isVoid, someFirst]

theorem target?_eq_some_iff {home place : Place} {path : Text} :
    target? home path = some place ↔ path ≠ [] ∧ lead home (components path) = place := by
  simp [target?]

theorem target?_of_ne_nil (home : Place) {path : Text} (nonempty : path ≠ []) :
    target? home path = some (lead home (components path)) :=
  target?_eq_some_iff.mpr ⟨nonempty, rfl⟩

example : target? ["w".toList] "../../a/./b".toList = some ["a".toList, "b".toList] := by decide

/-- Paths with the same components lead to the same place. -/
theorem target?_congr (home : Place) {first second : Text}
    (same : components first = components second) : target? home first = target? home second := by
  have emptyTogether : first = [] ↔ second = [] := by
    rw [← components_eq_nil_iff, same, components_eq_nil_iff]
  simp only [target?, List.isEmpty_iff, emptyTogether, same]

end Path

end UtilityCss
