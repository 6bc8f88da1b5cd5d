import LootFilter.Bundled
import LootFilter.Kind
import LootFilter.Proofs.Reference.LengthIndex

/-! What reference data has to cover so that every line can be read: limits for the rules that take numbers, an
occurrence count for the rules of a block, words for rarities and booleans, and bases where every search starts. -/

set_option autoImplicit false

namespace LootFilter

namespace Kind

def takesNumbers : Kind → Bool
  | number => true
  | fontSize => true
  | color => true
  | _ => false

theorem mem_keywords {keyword : String} {kind : Kind} (known : ofKeyword? keyword = some kind) :
    (keyword, kind) ∈ keywords := by
  obtain ⟨before, after, same, -⟩ := List.lookup_eq_some_iff.mp known
  rw [same]
  simp

theorem keyword_of_itemClass {name : String} (known : ofKeyword? name = some .itemClass) : name = "Class" := by
  have member := mem_keywords known
  simpa [keywords] using member

theorem keyword_of_baseType {name : String} (known : ofKeyword? name = some .baseType) : name = "BaseType" := by
  have member := mem_keywords known
  simpa [keywords] using member

end Kind

namespace Reference

def HasLimits (reference : Reference) : Prop :=
  ∀ entry ∈ Kind.keywords, entry.2.takesNumbers = true → (reference.limits.get? entry.1).isSome = true

def HasOccurrences (reference : Reference) : Prop :=
  ∀ entry ∈ Kind.keywords, entry.2 ≠ .block → (reference.occurrences.get? entry.1).isSome = true

structure HasWords (reference : Reference) : Prop where
  rarities : ∀ value ∈ reference.rarities, ∃ name, value = .text name
  booleans : ∀ value ∈ reference.booleans, ∃ name, value = .text name

/-- The data describe every rule and let every search for a base answer, so that every line of a document can be read
and placed. -/
structure Complete (reference : Reference) : Prop where
  limits : reference.HasLimits
  occurrences : reference.HasOccurrences
  words : reference.HasWords
  searchable : reference.lengthIndex.Searchable

instance (reference : Reference) : Decidable reference.HasLimits :=
  inferInstanceAs (Decidable (∀ entry ∈ Kind.keywords, _))

instance (reference : Reference) : Decidable reference.HasOccurrences :=
  inferInstanceAs (Decidable (∀ entry ∈ Kind.keywords, _))

theorem limitsOf_ok {reference : Reference} (covered : reference.HasLimits) {keyword : String} {kind : Kind}
    (known : Kind.ofKeyword? keyword = some kind) (numbers : kind.takesNumbers = true) :
    ∃ limits, reference.limits.get? keyword = some limits ∧ reference.limitsOf keyword = .ok limits := by
  obtain ⟨limits, found⟩ := Option.isSome_iff_exists.mp (covered _ (Kind.mem_keywords known) numbers)
  exact ⟨limits, found, by simp only [limitsOf, found]⟩

theorem limitsOf_error_iff {reference : Reference} {keyword : String} {gap : Gap} :
    reference.limitsOf keyword = .error gap ↔ reference.limits.get? keyword = none ∧ gap = .noLimits keyword := by
  unfold limitsOf
  cases reference.limits.get? keyword with
  | none => simp [eq_comm]
  | some limits => simp

theorem occurrencesOf_error_iff {reference : Reference} {keyword : String} {gap : Gap} :
    reference.occurrencesOf keyword = .error gap ↔
      reference.occurrences.get? keyword = none ∧ gap = .noOccurrences keyword := by
  unfold occurrencesOf
  cases reference.occurrences.get? keyword with
  | none => simp [eq_comm]
  | some limit => simp

theorem rarityWords_error_iff {reference : Reference} {keyword : String} {gap : Gap} :
    reference.rarityWords keyword = .error gap ↔
      Value.wordsOf? reference.rarities = none ∧ gap = .noWords keyword := by
  unfold rarityWords
  cases Value.wordsOf? reference.rarities with
  | none => simp [eq_comm]
  | some words => simp

theorem booleanWords_error_iff {reference : Reference} {keyword : String} {gap : Gap} :
    reference.booleanWords keyword = .error gap ↔
      Value.texts? reference.booleans = none ∧ gap = .noWords keyword := by
  unfold booleanWords
  cases Value.texts? reference.booleans with
  | none => simp [eq_comm]
  | some words => simp

theorem get?_of_limitsOf {reference : Reference} {keyword : String} {limits : Limits}
    (found : reference.limitsOf keyword = .ok limits) : reference.limits.get? keyword = some limits := by
  unfold limitsOf at found
  split at found
  · next held =>
    cases found
    exact held
  · cases found

theorem get?_of_occurrencesOf {reference : Reference} {keyword : String} {limit : Int}
    (found : reference.occurrencesOf keyword = .ok limit) : reference.occurrences.get? keyword = some limit := by
  unfold occurrencesOf at found
  split at found
  · next held =>
    cases found
    exact held
  · cases found

theorem occurrencesOf_ok {reference : Reference} (covered : reference.HasOccurrences) {keyword : String} {kind : Kind}
    (known : Kind.ofKeyword? keyword = some kind) (inner : kind ≠ .block) :
    ∃ limit, reference.occurrences.get? keyword = some limit ∧ reference.occurrencesOf keyword = .ok limit := by
  obtain ⟨limit, found⟩ := Option.isSome_iff_exists.mp (covered _ (Kind.mem_keywords known) inner)
  exact ⟨limit, found, by simp only [occurrencesOf, found]⟩

end Reference

theorem Value.texts?_ok {values : List Value} (named : ∀ value ∈ values, ∃ name, value = .text name) :
    ∃ words, texts? values = some words := by
  induction values with
  | nil => exact ⟨[], rfl⟩
  | cons value rest ih =>
    obtain ⟨name, rfl⟩ := named value List.mem_cons_self
    obtain ⟨words, found⟩ := ih fun other member => named other (List.mem_cons_of_mem _ member)
    exact ⟨name :: words, by simp [texts?, found]⟩

theorem Value.wordsOf?_ok {values : List Value} (named : ∀ value ∈ values, ∃ name, value = .text name) :
    ∃ words, wordsOf? values = some words := by
  induction values with
  | nil => exact ⟨[], rfl⟩
  | cons value rest ih =>
    obtain ⟨name, rfl⟩ := named value List.mem_cons_self
    obtain ⟨words, found⟩ := ih fun other member => named other (List.mem_cons_of_mem _ member)
    cases rest with
    | nil => exact ⟨[name], rfl⟩
    | cons next others => exact ⟨name :: words, by simp [wordsOf?, found]⟩

namespace Reference

theorem rarityWords_ok {reference : Reference} (words : reference.HasWords) (keyword : String) :
    ∃ names, reference.rarityWords keyword = .ok names := by
  obtain ⟨names, found⟩ := Value.wordsOf?_ok words.rarities
  exact ⟨names, by simp only [rarityWords, found]⟩

theorem booleanWords_ok {reference : Reference} (words : reference.HasWords) (keyword : String) :
    ∃ names, reference.booleanWords keyword = .ok names := by
  obtain ⟨names, found⟩ := Value.texts?_ok words.booleans
  exact ⟨names, by simp only [booleanWords, found]⟩

end Reference

namespace Bundled

theorem hasLimits : reference.HasLimits := by decide

theorem hasWords : reference.HasWords where
  rarities := by simp [reference]
  booleans := by simp [reference]

theorem searchable : reference.lengthIndex.Searchable := (LengthIndex.sound_ofNames _).searchable

theorem complete : reference.Complete where
  limits := hasLimits
  occurrences := by decide
  words := hasWords
  searchable := searchable

open Reference in
/-- The bundled documents make the bundled data, but for the suggestions and the unique items. -/
theorem assembles :
    assemble items rules .null .null =
      .ok { reference with extraClasses := [], extraBases := [], uniques := .empty } := by
  have plain : mentions "classesToBases" items = .ok false := by rfl
  have classes : basesByClassOf items = .ok ⟨classes⟩ := by rfl
  have index : ∀ names, lengthIndexOf items names = .ok (.ofNames names) := by
    intro names
    have given : mentions "sortedBases" items = .ok false := by rfl
    have starts : mentions "sortedBasesIndices" items = .ok false := by rfl
    simp only [lengthIndexOf, given, starts]
    rfl
  have limits : limitsTableOf rules = .ok ⟨limits⟩ := by rfl
  have sounds : soundsOf rules = .ok sounds := by rfl
  have occurrences : occurrencesTableOf rules = .ok ⟨occurrences⟩ := by rfl
  have descriptions : descriptionsOf rules = .ok (labels descriptions) := by rfl
  simp only [assemble, plain, classes, index, limits, sounds, occurrences, descriptions]
  rfl

end Bundled

end LootFilter
