import UtilityCss.Proofs.ClassName.Priority

/-!
# Registration of a further type token

A further type token takes its place among the others by its length and is tried before some of
them. Unless it is the longest token that reads a class name, the same token reads the name as
before, or none does. So whatever the further token changes is read with the further token, and that
takes a class name that starts with it, at once or behind a scope.
-/

namespace UtilityCss

namespace Grammar

variable {before after : List Text} {token bare className : Text} {found : ClassToken}

/-- The class name, or what stands behind its scope, starts with the token and a hyphen. -/
def StartsWithType (token className : Text) : Prop :=
  token ++ ['-'] <+: className ∨
    ∃ parts ∈ splitScope? className, token ++ ['-'] <+: parts.2

instance (token className : Text) : Decidable (StartsWithType token className) := by
  unfold StartsWithType
  infer_instance

/-- A class name starts with the type that it is read with. -/
theorem startsWithType_of_read? {grammar : Grammar}
    (isRead : grammar.read? className = some found) : StartsWithType found.kind className := by
  have startsBare : ∀ {bare : Text} {inner : ClassToken},
      grammar.readBare? bare = some inner → inner.kind ++ ['-'] <+: bare := by
    intro bare inner readBare
    rcases (readBare?_eq_some readBare).2.2 with ⟨values, rfl, _⟩
    exact ⟨values, by simp⟩
  rcases Option.or_eq_some_iff.mp isRead with behindScope | ⟨_, whole⟩
  · rcases Option.bind_eq_some_iff.mp behindScope with ⟨parts, isSplit, readBare⟩
    rcases Option.map_eq_some_iff.mp readBare with ⟨inner, readInner, rfl⟩
    have starts := startsBare readInner
    exact Or.inr ⟨parts, isSplit, starts⟩
  · exact Or.inl (startsBare whole)

/-! ## Bare class names -/

theorem mem_insert_iff {type : Text} :
    type ∈ before ++ token :: after ↔ type = token ∨ type ∈ before ++ after := by
  rw [List.mem_append, List.mem_cons, List.mem_append]
  exact or_left_comm

/-- The longest token that reads a class name stays the longest without any other token. -/
theorem IsLongestReader.of_insert {type : Text}
    (longest : IsLongestReader (before ++ token :: after) bare type) (other : type ≠ token) :
    IsLongestReader (before ++ after) bare type :=
  ⟨(mem_insert_iff.mp longest.registered).resolve_left other, longest.reads,
    fun longer isLonger => longest.longest longer (mem_insert_iff.mpr (Or.inr isLonger))⟩

theorem readBare?_insert_cases (before after : List Text) (token bare : Text) :
    (ofTypes (before ++ token :: after)).readBare? bare =
        (ofTypes (before ++ after)).readBare? bare ∨
      ∃ found, (ofTypes (before ++ token :: after)).readBare? bare = some found ∧
        found.kind = token := by
  cases byType : (ofTypes (before ++ token :: after)).types.findSome? (readWithType? bare) with
  | none =>
      left
      have noType : (ofTypes (before ++ after)).types.findSome? (readWithType? bare) = none := by
        apply List.findSome?_eq_none_iff.mpr
        intro type member
        have registered : type ∈ before ++ token :: after :=
          mem_insert_iff.mpr (Or.inr (mem_ofTypes.mp member))
        exact List.findSome?_eq_none_iff.mp byType type (mem_ofTypes.mpr registered)
      rw [readBare?, readBare?, byType, noType]
  | some found =>
      have isRead : (ofTypes (before ++ token :: after)).readBare? bare = some found := by
        rw [readBare?, byType, Option.some_or]
      rcases exists_isLongestReader byType with ⟨type, longest, reads⟩
      by_cases isToken : type = token
      · right
        rcases readWithType?_eq_some reads with ⟨rest, _, afterKind⟩
        exact ⟨found, isRead, (readAfterKind?_eq_some afterKind).2.1.trans isToken⟩
      · left
        have sameType := findSome?_readWithType?_eq_some_iff.mpr
          ⟨type, longest.of_insert isToken, reads⟩
        rw [isRead, readBare?, sameType, Option.some_or]

/-! ## Class names with a scope -/

theorem readBehindScope?_insert_cases (before after : List Text) (token className : Text) :
    (ofTypes (before ++ token :: after)).readBehindScope? className =
        (ofTypes (before ++ after)).readBehindScope? className ∨
      ∃ found, (ofTypes (before ++ token :: after)).readBehindScope? className = some found ∧
        found.kind = token := by
  cases isSplit : splitScope? className with
  | none =>
      left
      rw [readBehindScope?, readBehindScope?, isSplit]
      rfl
  | some parts =>
      rcases parts with ⟨scope, bare⟩
      simp only [readBehindScope?, isSplit, Option.bind_some]
      rcases readBare?_insert_cases before after token bare with same | ⟨found, isRead, isToken⟩
      · exact Or.inl (congrArg _ same)
      · exact Or.inr ⟨_, congrArg _ isRead, isToken⟩

/-- What a further token changes is read with the further token. -/
theorem read?_insert_cases (before after : List Text) (token className : Text) :
    (ofTypes (before ++ token :: after)).read? className =
        (ofTypes (before ++ after)).read? className ∨
      ∃ found, (ofTypes (before ++ token :: after)).read? className = some found ∧
        found.kind = token := by
  rcases readBehindScope?_insert_cases before after token className with
    sameBehind | ⟨found, isRead, isToken⟩
  · rw [read?, read?, sameBehind]
    cases behind : (ofTypes (before ++ after)).readBehindScope? className with
    | some found => exact Or.inl rfl
    | none => exact readBare?_insert_cases before after token className
  · exact Or.inr ⟨found, by rw [read?, isRead, Option.some_or], isToken⟩

/-- A further type token, registered at any place, leaves the reading of a class name as it is
unless the name, or what stands behind its scope, starts with the token and a hyphen; and where the
reading differs, the name is read with the further token. -/
theorem read?_insert (before after : List Text) (token className : Text) :
    (¬ StartsWithType token className →
        (ofTypes (before ++ token :: after)).read? className =
          (ofTypes (before ++ after)).read? className) ∧
      ((ofTypes (before ++ token :: after)).read? className ≠
          (ofTypes (before ++ after)).read? className →
        ∃ found, (ofTypes (before ++ token :: after)).read? className = some found ∧
          found.kind = token ∧ StartsWithType token className) := by
  rcases read?_insert_cases before after token className with same | ⟨found, isRead, rfl⟩
  · exact ⟨fun _ => same, fun differs => absurd same differs⟩
  · have starts := startsWithType_of_read? isRead
    exact ⟨fun noStart => absurd starts noStart, fun _ => ⟨found, isRead, rfl, starts⟩⟩

/-- The longest token of all starts the bare name and yet has no part in it; the token in the middle
takes over a name that the shortest one read. -/
theorem read?_insert_sample :
    let types := ["b".toList, "bg".toList]
    let further := ["b".toList, "bg-ima".toList, "bg".toList]
    ¬ StartsWithType "bg-ima".toList "sm:bg-image-none/50%".toList ∧
      (ofTypes further).read? "sm:bg-image-none/50%".toList =
        (ofTypes types).read? "sm:bg-image-none/50%".toList ∧
      (ofTypes types).read? "sm:bg-ima-none".toList =
        some ⟨some "sm".toList, "bg".toList, ⟨"ima-none".toList, []⟩, none⟩ ∧
      ∃ found, (ofTypes further).read? "sm:bg-ima-none".toList = some found ∧
        found.kind = "bg-ima".toList := by
  intro types further
  have noStart : ¬ StartsWithType "bg-ima".toList "sm:bg-image-none/50%".toList := by decide
  have same := (read?_insert ["b".toList] ["bg".toList] "bg-ima".toList
    "sm:bg-image-none/50%".toList).1 noStart
  have changed := (read?_insert ["b".toList] ["bg".toList] "bg-ima".toList
    "sm:bg-ima-none".toList).2 (by decide)
  rcases changed with ⟨found, isRead, isToken, _⟩
  exact ⟨noStart, same, by decide, found, isRead, isToken⟩

end Grammar

end UtilityCss
