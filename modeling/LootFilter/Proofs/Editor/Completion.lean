import LootFilter.Proofs.Editor.SuggestionRange
import LootFilter.Proofs.Reference.BaseNames

/-! What is suggested for the values of a clean line: each suggestion from the bundled data can take the place of the
value at the position, and the line has no errors after that. -/

set_option autoImplicit false

namespace LootFilter

open Grammar

namespace Suggestion

/-- A name that reads back as itself when it is suggested: without quotation marks and line breaks, and fit to stand
without quotation marks if it holds no space. -/
def Writable (name : String) : Prop :=
  '"' ∉ name.toList ∧ name.toList.any Text.isBreak = false ∧
    (Text.occursIn " " name = true ∨ name.toList ≠ [] ∧ name.toList.all Lexeme.isBare = true)

instance (name : String) : Decidable (Writable name) := inferInstanceAs (Decidable (_ ∧ _))

/-- The suggestion replaces the range by a value of a rule of this kind. -/
structure Fits (settings : Settings) (reference : Reference) (kind : Kind) (range : Range) (suggestion : Suggestion) :
    Prop where
  place : suggestion.range = range
  value : ∃ new : String, suggestion.newText = .text new ∧ ValueText settings reference kind new.toList ∧
    ∀ c ∈ new.toList, Text.isBreak c = false

structure Offers (settings : Settings) (reference : Reference) (kind : Kind) (range : Range)
    (suggestions : List Suggestion) : Prop where
  some_known : ∃ suggestion ∈ suggestions, suggestion.source = .reference
  known_fit : ∀ suggestion ∈ suggestions, suggestion.source = .reference →
    Fits settings reference kind range suggestion

def written (always : Bool) (name : String) : String :=
  if always || Text.occursIn " " name then inQuotes (.text name) else name

def ofName (source : Source) (quotes : Bool) (range : Range) (name : String) : Suggestion where
  label := .text name
  newText := .text (written quotes name)
  range := range
  source := source
  filterText := some (inQuotes (.text name))

theorem ofValue_text (source : Source) (quotes : Bool) (range : Range) (name : String) :
    ofValue source quotes range (.text name) = .ok (ofName source quotes range name) := by
  simp only [ofValue, writtenValue, Value.holds?, ofName, written]
  cases quotes with
  | true => rfl
  | false =>
    cases Text.occursIn " " name with
    | true => rfl
    | false => rfl

theorem ofValues_texts (source : Source) (quotes : Bool) (range : Range) (names : List String) :
    ofValues source quotes range (names.map .text) = .ok (names.map (ofName source quotes range)) := by
  unfold ofValues
  induction names with
  | nil => rfl
  | cons name rest ih =>
    rw [List.map_cons, List.mapM_cons, ofValue_text, ih]
    rfl

theorem ofExtraBases_ok (quotes : Bool) (range : Range) (extras : List ExtraBase) :
    ∃ suggestions, extras.mapM (ofExtraBase quotes range) = .ok suggestions ∧
      ∀ suggestion ∈ suggestions, suggestion.source = .extra := by
  have single (extra : ExtraBase) :
      ∃ suggestion, ofExtraBase quotes range extra = .ok suggestion ∧ suggestion.source = .extra := by
    cases extra with
    | name name => exact ⟨_, ofValue_text .extra quotes range name, rfl⟩
    | snippet label text => exact ⟨_, rfl, rfl⟩
  induction extras with
  | nil => exact ⟨[], rfl, List.forall_mem_nil _⟩
  | cons extra rest ih =>
    obtain ⟨first, done, source⟩ := single extra
    obtain ⟨others, later, sources⟩ := ih
    refine ⟨first :: others, ?_, List.forall_mem_cons.mpr ⟨source, sources⟩⟩
    rw [List.mapM_cons, done, later]
    rfl

theorem toList_inQuotes (name : String) : (inQuotes (.text name)).toList = '"' :: name.toList ++ ['"'] := by
  simp [inQuotes, Value.spelled]

theorem unbroken_written {name : String} (unbroken : ∀ c ∈ name.toList, Text.isBreak c = false) (always : Bool) :
    ∀ c ∈ (written always name).toList, Text.isBreak c = false := by
  unfold written
  split
  · rw [toList_inQuotes]
    refine List.forall_mem_append.mpr ⟨?_, List.forall_mem_singleton.mpr rfl⟩
    exact List.forall_mem_cons.mpr ⟨rfl, unbroken⟩
  · exact unbroken

theorem string_written {name : String} (writable : Writable name) (always : Bool) :
    Shape.string (written always name).toList name ∧ ∀ c ∈ (written always name).toList, Text.isBreak c = false := by
  obtain ⟨closed, unbroken, fit⟩ := writable
  simp only [List.any_eq_false, List.all_eq_true, Bool.not_eq_true] at unbroken fit
  refine ⟨?_, unbroken_written unbroken always⟩
  unfold written
  split
  · rw [toList_inQuotes]
    exact .inl ⟨name.toList, rfl, closed, by simp⟩
  · next plain =>
    obtain ⟨some_chars, bare⟩ := fit.resolve_left fun spaced => plain (by simp [spaced])
    exact .inr ⟨some_chars, bare, by simp⟩

section
variable {settings : Settings} {reference : Reference} {kind : Kind} {range : Range}

theorem fits_ofName {name : String} (writable : Writable name)
    (valued : ∀ new, Shape.string new name → ValueText settings reference kind new) (source : Source) (quotes : Bool) :
    Fits settings reference kind range (ofName source quotes range name) := by
  obtain ⟨shaped, unbroken⟩ := string_written writable quotes
  exact ⟨rfl, _, rfl, valued _ shaped, unbroken⟩

theorem offers_of_names {names : List String} (some_names : names ≠ []) (writable : ∀ name ∈ names, Writable name)
    (valued : ∀ name ∈ names, ∀ new, Shape.string new name → ValueText settings reference kind new) (quotes : Bool)
    {others : List Suggestion} (apart : ∀ suggestion ∈ others, suggestion.source ≠ .reference) :
    Offers settings reference kind range (names.map (ofName .reference quotes range) ++ others) := by
  constructor
  · obtain ⟨name, rest, rfl⟩ := List.exists_cons_of_ne_nil some_names
    exact ⟨_, List.mem_append_left _ (List.mem_map_of_mem List.mem_cons_self), rfl⟩
  · intro suggestion member source
    obtain known | other := List.mem_append.mp member
    · obtain ⟨name, inside, rfl⟩ := List.mem_map.mp known
      exact fits_ofName (writable name inside) (valued name inside) .reference quotes
    · exact absurd source (apart suggestion other)

theorem source_ofName {source : Source} {quotes : Bool} {names : List String} :
    ∀ suggestion ∈ names.map (ofName source quotes range), suggestion.source = source := by
  intro suggestion member
  obtain ⟨name, -, rfl⟩ := List.mem_map.mp member
  rfl

theorem source_ne_of_allowed {quotes : Bool} (allowed : List String) {extra : List Suggestion}
    (extras : ∀ suggestion ∈ extra, suggestion.source = .extra) :
    ∀ suggestion ∈ allowed.map (ofName .whitelist quotes range) ++ extra, suggestion.source ≠ .reference := by
  intro suggestion member
  obtain listed | added := List.mem_append.mp member
  · rw [source_ofName suggestion listed]
    decide
  · rw [extras suggestion added]
    decide

end

end Suggestion

theorem LengthIndex.toValue_ofNames (names : List String) :
    (ofNames names).bases.map Base.toValue = (sortNames names).map .text := by
  rw [ofNames, List.map_map]
  rfl

namespace Bundled

theorem classes_writable : ∀ name ∈ reference.classes, Suggestion.Writable name := by decide +kernel

theorem bases_writable : ∀ entry ∈ classes, ∀ base ∈ entry.2, Suggestion.Writable base := by decide +kernel

theorem rarities_writable : ∀ name ∈ rarities, Suggestion.Writable name := by decide +kernel

theorem booleans_writable : ∀ name ∈ booleans, Suggestion.Writable name := by decide +kernel

theorem booleans_cased {name : String} (member : name ∈ booleans) :
    ∃ value, Shape.Cased (Shape.booleanName value) name.toList := by
  simp only [booleans, List.mem_cons, List.not_mem_nil, or_false] at member
  obtain rfl | rfl := member
  · exact ⟨true, by simp [Shape.Cased, Shape.booleanName, Lexeme.sameLetter]⟩
  · exact ⟨false, by simp [Shape.Cased, Shape.booleanName, Lexeme.sameLetter]⟩

theorem soundNames_letters : ∀ entry ∈ soundLabels, entry.1.toList ≠ [] ∧ entry.1.toList.all Lexeme.isLetter = true ∧
    entry.1.toList.any Text.isBreak = false := by decide +kernel

theorem mem_sortedBases {name : String} (member : name ∈ LengthIndex.sortNames reference.classByBase.names) :
    ∃ entry ∈ classes, name ∈ entry.2 := by
  obtain ⟨itemClass, -, inside⟩ := (Reference.mem_classByBase_iff assembles).mp (LengthIndex.mem_sortNames.mp member)
  change name ∈ (Table.get? ⟨classes⟩ itemClass).getD [] at inside
  cases found : Table.get? ⟨classes⟩ itemClass with
  | none =>
    rw [found] at inside
    cases inside
  | some bases =>
    rw [found] at inside
    exact ⟨(itemClass, bases), Table.mem_entries_of_get? found, inside⟩

section
open Suggestion
variable (settings : Settings) (range : Range)

theorem classes_offered :
    ∃ suggestions, Suggestion.classes settings reference range = .ok suggestions ∧
      Offers settings reference .itemClass range suggestions := by
  have extras : reference.extraClasses = ["Flasks", "Gems", "Currency"].map .text := rfl
  simp only [Suggestion.classes, extras, ofValues_texts]
  refine ⟨_, rfl, ?_⟩
  rw [List.append_assoc]
  refine offers_of_names (by decide) classes_writable ?_ _ ?_
  · intro name member new shaped
    exact ⟨name, shaped, .inl ⟨name, member, List.infix_rfl⟩⟩
  · exact source_ne_of_allowed _ source_ofName

theorem bases_offered :
    ∃ suggestions, Suggestion.bases settings reference range = .ok suggestions ∧
      Offers settings reference .baseType range suggestions := by
  have index : reference.lengthIndex.bases.map Base.toValue =
      (LengthIndex.sortNames reference.classByBase.names).map .text := LengthIndex.toValue_ofNames _
  obtain ⟨extra, done, extras⟩ := ofExtraBases_ok settings.itemValueQuotes range reference.extraBases
  simp only [Suggestion.bases, index, ofValues_texts, done]
  refine ⟨_, rfl, ?_⟩
  rw [List.append_assoc]
  refine offers_of_names ?_ ?_ ?_ _ ?_
  · have ring : "Iron Ring" ∈ reference.classByBase.names :=
      (Reference.mem_classByBase_iff assembles).mpr ⟨"Rings", by decide +kernel, by decide +kernel⟩
    exact List.ne_nil_of_mem (LengthIndex.mem_sortNames.mpr ring)
  · intro name member
    obtain ⟨entry, listed, inside⟩ := mem_sortedBases member
    exact bases_writable entry listed name inside
  · intro name member new shaped
    have listed : .name name ∈ reference.lengthIndex.bases :=
      LengthIndex.name_mem_ofNames.mpr (LengthIndex.mem_sortNames.mp member)
    have held : reference.lengthIndex.finds name = true :=
      (LengthIndex.finds_iff (LengthIndex.sound_ofNames _) (LengthIndex.named_ofNames _)).mpr
        ⟨name, listed, List.infix_rfl⟩
    have answered : (reference.lengthIndex.finds? name).isSome = true := by
      rw [searchable.finds?_eq_some, Option.isSome_some]
    exact ⟨name, shaped, fun _ => answered, .inl held⟩
  · exact source_ne_of_allowed _ extras

theorem sounds_offered :
    ∃ suggestions, Suggestion.sounds settings reference range = .ok suggestions ∧
      Offers settings reference .sound range suggestions := by
  simp only [Suggestion.sounds, ofValues_texts]
  refine ⟨_, rfl, ⟨⟨_, List.mem_append_left _ List.mem_cons_self, rfl⟩, ?_⟩⟩
  intro suggestion member source
  obtain known | allowed := List.mem_append.mp member
  · obtain ⟨_, inside, rfl⟩ := List.mem_map.mp known
    obtain ⟨_, inside', rfl⟩ := List.mem_map.mp inside
    obtain ⟨⟨name, label⟩, listed, rfl⟩ := List.mem_map.mp inside'
    obtain ⟨some_letters, letters, unbroken⟩ := soundNames_letters _ listed
    simp only [List.any_eq_false, List.all_eq_true, Bool.not_eq_true] at letters unbroken
    exact ⟨rfl, name, rfl, ⟨name, ⟨some_letters, letters, by simp⟩, _, inside⟩, unbroken⟩
  · rw [source_ofName suggestion allowed] at source
    cases source

theorem rarities_offered :
    ∃ suggestions, ofValues .reference settings.rarityQuotes range reference.rarities = .ok suggestions ∧
      Offers settings reference .rarity range suggestions := by
  refine ⟨_, ofValues_texts .reference _ range rarities, ?_⟩
  rw [← List.append_nil (rarities.map _)]
  refine offers_of_names (by decide) rarities_writable ?_ _ (List.forall_mem_nil _)
  intro name member new shaped
  exact ⟨name, shaped, List.mem_map_of_mem member⟩

theorem booleans_offered :
    ∃ suggestions, ofValues .reference settings.booleanQuotes range reference.booleans = .ok suggestions ∧
      Offers settings reference .boolean range suggestions := by
  refine ⟨_, ofValues_texts .reference _ range booleans, ?_⟩
  rw [← List.append_nil (booleans.map _)]
  refine offers_of_names (by decide) booleans_writable ?_ _ (List.forall_mem_nil _)
  intro name member new shaped
  obtain ⟨value, named⟩ := booleans_cased member
  exact ⟨value, Shape.boolean_of_string shaped named⟩

theorem values_offered {kind : Kind} {cursor : Cursor} (member : range ∈ Rule.valueRanges kind cursor) :
    ∃ suggestions, ofKind settings reference kind range = .ok suggestions ∧
      Offers settings reference kind range suggestions := by
  cases kind with
  | itemClass => exact classes_offered settings range
  | baseType => exact bases_offered settings range
  | sound => exact sounds_offered settings range
  | rarity => exact rarities_offered settings range
  | boolean => exact booleans_offered settings range
  | _ => cases member

end

end Bundled

namespace Suggestion

/-- Anywhere on a value of a clean line, with the bundled data, there are suggestions from the data; each of them
replaces this value, and the line has no errors after that. -/
theorem suggested_value_keeps_line_errorFree (settings : Settings) (row : Int) (text : List Char) (line : Line)
    (next : Block) (done : Line.read settings Bundled.reference row text {} = .ok (line, next))
    (clean : line.findings = []) (word : Token String) (cursor : Cursor)
    (found : Line.head? ⟨row, text, 0⟩ = some (word, cursor)) (kind : Kind)
    (known : Kind.ofKeyword? word.value = some kind) (range : Range) (member : range ∈ Rule.valueRanges kind cursor)
    (column : Int) (behind : range.start.character ≤ column) (before : column ≤ range.stop.character) :
    ∃ suggestions, suggest settings Bundled.reference text ⟨row, column⟩ = .ok suggestions ∧
      (∃ suggestion ∈ suggestions, suggestion.source = .reference) ∧
      ∀ suggestion ∈ suggestions, suggestion.source = .reference →
        suggestion.range = range ∧ ∃ new : String, suggestion.newText = .text new ∧
          ∃ line next, Line.read settings Bundled.reference row (range.replace text new.toList) {} = .ok (line, next) ∧
            ErrorFree line.findings := by
  have whole := Line.body_of_clean settings Bundled.hasLimits Bundled.hasWords done clean found known
  obtain ⟨suggestions, offered, offers⟩ := Bundled.values_offered settings range member
  refine ⟨suggestions, ?_, offers.some_known, ?_⟩
  · rw [suggest_of_value settings Bundled.reference found known whole member behind before, offered]
  · intro suggestion inside source
    obtain ⟨place, new, same, valued, unbroken⟩ := offers.known_fit suggestion inside source
    exact ⟨place, new, same,
      Line.replace_value settings Bundled.hasLimits Bundled.hasWords Bundled.searchable done clean found known member valued unbroken⟩

theorem class_gives_way_to_suggestion :
    ∃ suggestions, suggest {} Bundled.reference "Class = Rings \"Life Flasks\"".toList ⟨2, 20⟩ = .ok suggestions ∧
      (∃ suggestion ∈ suggestions, suggestion.source = .reference) ∧
      ∀ suggestion ∈ suggestions, suggestion.source = .reference →
        suggestion.range = .onLine 2 14 27 ∧ ∃ new : String, suggestion.newText = .text new ∧
          ∃ line next, Line.read {} Bundled.reference 2
              ((Range.onLine 2 14 27).replace "Class = Rings \"Life Flasks\"".toList new.toList) {} = .ok (line, next) ∧
            ErrorFree line.findings := by
  have done : Line.read {} Bundled.reference 2 "Class = Rings \"Life Flasks\"".toList {} =
      .ok ({ row := 2, range := ⟨⟨2, 0⟩, ⟨2, 27⟩⟩, keyword := some ⟨"Class", ⟨⟨2, 0⟩, ⟨2, 5⟩⟩, some .itemClass⟩ },
        { classes := ["Rings", "Life Flasks"] }) := rfl
  have member : .onLine 2 14 27 ∈
      Rule.valueRanges .itemClass ⟨2, "Class = Rings \"Life Flasks\"".toList, 5⟩ := by decide +kernel
  exact suggested_value_keeps_line_errorFree {} 2 _ _ _ done rfl ⟨"Class", .onLine 2 0 5⟩
    ⟨2, "Class = Rings \"Life Flasks\"".toList, 5⟩ rfl .itemClass rfl _ member 20 (by decide) (by decide)

end Suggestion

end LootFilter
