import LootFilter.Proofs.Answers
import LootFilter.Proofs.Reference.Coverage
import LootFilter.Proofs.Rule.Judging

/-! What the data lack for a rule that cannot be read: limits of its numbers, words for its message, or a base where
the search for one of its values starts. -/

set_option autoImplicit false

namespace LootFilter

/-- Something else than a search has no answer. -/
def Reference.Gap.Tabular (gap : Reference.Gap) : Prop := ∀ keyword, gap ≠ .noBase keyword

namespace Rule

/-- Words are only lacking when a message wants them: about rarities always, about booleans if none is read. -/
inductive Lacks (reference : Reference) (keyword : String) (cursor : Cursor) (block : Block) :
    Kind → Reference.Gap → Prop where
  | limits {kind : Kind} (numbers : kind.takesNumbers = true) (absent : reference.limits.get? keyword = none) :
    Lacks reference keyword cursor block kind (.noLimits keyword)
  | rarities (unnamed : Value.wordsOf? reference.rarities = none) :
    Lacks reference keyword cursor block .rarity (.noWords keyword)
  | booleans (unread : (readEquality keyword cursor).2.readBoolean.1 = none)
    (unnamed : Value.texts? reference.booleans = none) :
    Lacks reference keyword cursor block .boolean (.noWords keyword)
  | base {token : Token String} (asked : token ∈ valueTokens cursor)
    (unanswered : (Pool.choose reference block.classes).answers token.value = false) :
    Lacks reference keyword cursor block .baseType (.noBase keyword)

section
variable {settings : Settings} {reference : Reference} {keyword : String} {head : Range} {cursor : Cursor}
  {block : Block} {gap : Reference.Gap}

theorem read_numbers_error_iff {kind : Kind} (numbers : kind.takesNumbers = true) :
    read settings reference kind keyword head cursor block = .error gap ↔
      reference.limits.get? keyword = none ∧ gap = .noLimits keyword := by
  rw [← Reference.limitsOf_error_iff]
  cases kind with
  | number => exact return_eq_error_iff
  | fontSize => exact return_eq_error_iff
  | color => exact return_eq_error_iff
  | _ => cases numbers

theorem readRarity_error_iff :
    readRarity reference keyword cursor = .error gap ↔
      Value.wordsOf? reference.rarities = none ∧ gap = .noWords keyword := by
  rw [← Reference.rarityWords_error_iff]
  exact return_eq_error_iff

theorem readBoolean_error_iff :
    readBoolean reference keyword cursor = .error gap ↔
      (readEquality keyword cursor).2.readBoolean.1 = none ∧ Value.texts? reference.booleans = none ∧
        gap = .noWords keyword := by
  rw [← Reference.booleanWords_error_iff]
  unfold readBoolean
  simp only
  split
  · next value found => simp [found, pure, Except.pure]
  · next unread =>
    simp only [unread, true_and]
    exact return_eq_error_iff

theorem readBaseType_error_iff {classes : List String} :
    readBaseType settings reference classes keyword cursor = .error gap ↔
      (∃ token ∈ valueTokens cursor, (Pool.choose reference classes).answers token.value = false) ∧
        gap = .noBase keyword := by
  unfold readBaseType
  simp only
  split
  · next answered =>
    have every := List.all_eq_true.mp answered
    simp only [reduceCtorEq, false_iff, not_and]
    rintro ⟨token, asked, unanswered⟩
    rw [every token asked] at unanswered
    cases unanswered
  · next unanswered =>
    have some_token : ∃ token ∈ valueTokens cursor, (Pool.choose reference classes).answers token.value = false := by
      simpa using unanswered
    rw [and_iff_right some_token, Except.error.injEq, eq_comm]

/-- A rule fails for what the data lack for it, and for nothing else. -/
theorem read_error_iff (kind : Kind) :
    read settings reference kind keyword head cursor block = .error gap ↔
      Lacks reference keyword cursor block kind gap := by
  constructor
  · intro failed
    by_cases numbers : kind.takesNumbers = true
    · obtain ⟨absent, rfl⟩ := (read_numbers_error_iff numbers).mp failed
      exact .limits numbers absent
    cases kind with
    | rarity =>
      obtain ⟨unnamed, rfl⟩ := readRarity_error_iff.mp (return_eq_error_iff.mp failed)
      exact .rarities unnamed
    | boolean =>
      obtain ⟨unread, unnamed, rfl⟩ := readBoolean_error_iff.mp (return_eq_error_iff.mp failed)
      exact .booleans unread unnamed
    | baseType =>
      obtain ⟨⟨token, asked, unanswered⟩, rfl⟩ := readBaseType_error_iff.mp (return_eq_error_iff.mp failed)
      exact .base asked unanswered
    | number => exact absurd rfl numbers
    | fontSize => exact absurd rfl numbers
    | color => exact absurd rfl numbers
    | _ => cases failed
  · intro lacking
    cases lacking with
    | limits numbers absent => exact (read_numbers_error_iff numbers).mpr ⟨absent, rfl⟩
    | rarities unnamed => exact return_eq_error_iff.mpr (readRarity_error_iff.mpr ⟨unnamed, rfl⟩)
    | booleans unread unnamed => exact return_eq_error_iff.mpr (readBoolean_error_iff.mpr ⟨unread, unnamed, rfl⟩)
    | base asked unanswered =>
      exact return_eq_error_iff.mpr (readBaseType_error_iff.mpr ⟨⟨_, asked, unanswered⟩, rfl⟩)

theorem Lacks.tabular {kind : Kind} (lacking : Lacks reference keyword cursor block kind gap)
    (searchable : reference.lengthIndex.Searchable) : gap.Tabular := by
  intro other same
  cases lacking with
  | base asked unanswered =>
    rw [Pool.answers_choose searchable] at unanswered
    cases unanswered
  | _ => cases same

end

/-- With words for rarities and booleans, and if every search for a base answers, only limits can be lacking. -/
theorem Lacks.of_words {reference : Reference} {keyword : String} {cursor : Cursor} {block : Block} {kind : Kind}
    {gap : Reference.Gap} (lacking : Lacks reference keyword cursor block kind gap) (words : reference.HasWords)
    (searchable : reference.lengthIndex.Searchable) :
    kind.takesNumbers = true ∧ reference.limits.get? keyword = none ∧ gap = .noLimits keyword := by
  cases lacking with
  | limits numbers absent => exact ⟨numbers, absent, rfl⟩
  | rarities unnamed =>
    obtain ⟨names, found⟩ := Value.wordsOf?_ok words.rarities
    cases unnamed.symm.trans found
  | booleans unread unnamed =>
    obtain ⟨names, found⟩ := Value.texts?_ok words.booleans
    cases unnamed.symm.trans found
  | base asked unanswered =>
    rw [Pool.answers_choose searchable] at unanswered
    cases unanswered

/-- A rule of the language can be read if the data describe it and every search for a base answers. -/
theorem read_ok (settings : Settings) {reference : Reference} (covered : reference.HasLimits)
    (words : reference.HasWords) (searchable : reference.lengthIndex.Searchable) {kind : Kind} {keyword : String}
    (known : Kind.ofKeyword? keyword = some kind) (head : Range) (cursor : Cursor) (block : Block) :
    ∃ answer, read settings reference kind keyword head cursor block = .ok answer := by
  cases done : read settings reference kind keyword head cursor block with
  | ok answer => exact ⟨answer, rfl⟩
  | error gap =>
    obtain ⟨numbers, absent, -⟩ := ((read_error_iff kind).mp done).of_words words searchable
    obtain ⟨limits, found, -⟩ := Reference.limitsOf_ok covered known numbers
    cases absent.symm.trans found

end Rule

end LootFilter
