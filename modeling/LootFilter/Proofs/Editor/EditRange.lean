import LootFilter.Proofs.Editor.Completion

/-! What a suggestion replaces. All suggestions at a position replace one range of the line, which the position touches:
nothing at the position itself, the keyword, or a value behind it. -/

set_option autoImplicit false

namespace LootFilter

/-! ## Stretches of a line -/

namespace Stretch

def TailOf (line : List Char) (stretch : Stretch) : Prop :=
  ∃ column : Nat, column ≤ line.length ∧ stretch = ⟨column, line.drop column⟩

section
variable {line : List Char} {stretch next : Stretch}

theorem TailOf.drop (tail : stretch.TailOf line) {count : Nat} (inside : count ≤ stretch.chars.length) :
    (stretch.drop count).TailOf line := by
  obtain ⟨column, within, rfl⟩ := tail
  have left : count ≤ line.length - column := by simpa using inside
  refine ⟨column + count, by omega, ?_⟩
  rw [Stretch.drop, List.drop_drop, Int.natCast_add]

theorem TailOf.skipBlanks (tail : stretch.TailOf line) : stretch.skipBlanks.TailOf line :=
  tail.drop (List.takeWhile_sublist _).length_le

theorem TailOf.bounds (tail : stretch.TailOf line) : 0 ≤ stretch.column ∧ stretch.column ≤ line.length := by
  obtain ⟨column, within, rfl⟩ := tail
  exact ⟨Int.natCast_nonneg column, Int.ofNat_le.mpr within⟩

theorem TailOf.ofIndex? (tail : stretch.TailOf line) : Stretch.ofIndex? line stretch.column = some stretch := by
  obtain ⟨column, -, rfl⟩ := tail
  exact ofIndex?_natCast line column

/-! ### Operators -/

theorem TailOf.skipAfter (tail : stretch.TailOf line) {isOperator : Char → Bool}
    (skipped : stretch.skipAfter isOperator = some next) : next.TailOf line ∧ stretch.column ≤ next.column := by
  unfold Stretch.skipAfter at skipped
  simp only at skipped
  split at skipped
  · cases skipped
  · split at skipped
    · cases skipped
    · cases skipped
      exact ⟨tail.skipBlanks, column_le_skipBlanks stretch⟩

theorem operatorLength_le {stretch : Stretch} (visible : stretch.chars ≠ []) :
    stretch.operatorLength ≤ stretch.chars.length := by
  have some_char : 0 < stretch.chars.length := List.length_pos_iff.mpr visible
  unfold operatorLength
  split
  · next first rest chars =>
    rw [chars, List.length_cons, List.length_cons]
    split
    · omega
    · omega
  · exact some_char

theorem TailOf.skipSign (tail : stretch.TailOf line) {count : Nat} (inside : count ≤ stretch.skipBlanks.chars.length)
    {isOperator : Char → Bool} (skipped : (stretch.skipBlanks.drop count).skipAfter isOperator = some next) :
    next.TailOf line ∧ stretch.column ≤ next.column := by
  obtain ⟨behind, ordered⟩ := (tail.skipBlanks.drop inside).skipAfter skipped
  have start := column_le_skipBlanks stretch
  refine ⟨behind, ?_⟩
  simp only [Stretch.drop] at ordered
  omega

theorem TailOf.skipEquality (tail : stretch.TailOf line) (skipped : stretch.skipEquality = some next) :
    next.TailOf line ∧ stretch.column ≤ next.column := by
  unfold Stretch.skipEquality at skipped
  simp only at skipped
  split at skipped
  · cases skipped
  · next rest chars =>
    apply tail.skipSign _ skipped
    rw [chars, List.length_cons]
    omega
  · cases skipped
    exact ⟨tail.skipBlanks, column_le_skipBlanks stretch⟩

theorem TailOf.skipOperator (tail : stretch.TailOf line) (skipped : stretch.skipOperator = some next) :
    next.TailOf line ∧ stretch.column ≤ next.column := by
  unfold Stretch.skipOperator at skipped
  simp only at skipped
  split at skipped
  · cases skipped
  · next c rest chars =>
    split at skipped
    · apply tail.skipSign _ skipped
      apply operatorLength_le
      rw [chars]
      exact List.cons_ne_nil c rest
    · cases skipped
      exact ⟨tail.skipBlanks, column_le_skipBlanks stretch⟩

/-! ### Values -/

theorem valueLength_le (text : List Char) : valueLength text ≤ text.length := by
  unfold valueLength
  split
  · next rest =>
    have inner : (rest.takeWhile (· != '"')).length ≤ rest.length := (List.takeWhile_sublist _).length_le
    simp only [List.length_cons]
    split
    · omega
    · omega
  · exact (List.takeWhile_sublist _).length_le

theorem TailOf.nextValue? (tail : stretch.TailOf line) {row : Int} {range : Range}
    (found : stretch.nextValue? row = some (range, next)) :
    next.TailOf line ∧ range = Range.onLine row range.start.character next.column := by
  unfold Stretch.nextValue? at found
  simp only at found
  split at found
  · cases found
  · cases found
    exact ⟨tail.skipBlanks.drop (valueLength_le _), rfl⟩

theorem TailOf.passes {row : Int} (tail : stretch.TailOf line) (passes : Passes row stretch next) :
    next.TailOf line := by
  induction passes with
  | here => exact tail
  | next found _ ih => exact ih (tail.nextValue? found).1

end

theorem touches_iff {range : Range} {position : Position} :
    touches range position = true ↔ position.line = range.start.line ∧
      range.start.character ≤ position.character ∧ position.character ≤ range.stop.character := by
  simp [touches, and_assoc]

theorem touches_empty (position : Position) : touches (.empty position) position = true :=
  touches_iff.mpr ⟨rfl, Int.le_refl _, Int.le_refl _⟩

end Stretch

theorem Head.tailOf_rest {row : Int} {line : List Char} {head : Head} (found : ofLine? row line = some head) :
    head.rest.TailOf line ∧ head.rest.column = head.range.stop.character := by
  obtain ⟨blanks, chars, rest, rfl, -, -, -, -, rfl⟩ := ofLine?_eq_some_iff.mp found
  refine ⟨⟨blanks.length + chars.length, by simp, ?_⟩, rfl⟩
  rw [← List.drop_drop, List.drop_left, List.drop_left]

/-! ## Ranges to be replaced -/

namespace Suggestion

/-- What can be replaced at a position of a line: nothing at all, the keyword, or a value that is found from some
column behind the keyword on. -/
inductive Target (line : List Char) (position : Position) : Range → Prop where
  | nothing : Target line position (.empty position)
  | keyword {head : Head} : Head.ofLine? position.line line = some head → Target line position head.range
  | value {head : Head} {index : Nat} {values rest : Stretch} {range : Range} :
      Head.ofLine? position.line line = some head → head.range.stop.character ≤ index → index ≤ line.length →
      Stretch.ofIndex? line index = some values → values.nextValue? position.line = some (range, rest) →
      Target line position range

structure Encloses (line : List Char) (position : Position) (range : Range) : Prop where
  starts_on : range.start.line = position.line
  stops_on : range.stop.line = position.line
  starts_inside : 0 ≤ range.start.character
  starts_before : range.start.character ≤ position.character
  stops_behind : position.character ≤ range.stop.character
  stops_inside : range.stop.character ≤ line.length

section
variable {line : List Char} {position : Position} {range : Range}

theorem Target.encloses (target : Target line position range) (touched : Stretch.touches range position = true)
    (inside : 0 ≤ position.character) (within : position.character ≤ line.length) : Encloses line position range := by
  obtain ⟨here, before, behind⟩ := Stretch.touches_iff.mp touched
  cases target with
  | nothing => exact ⟨rfl, rfl, inside, before, behind, within⟩
  | keyword found =>
    obtain ⟨blanks, chars, rest, rfl, -, -, -, -, rfl⟩ := Head.ofLine?_eq_some_iff.mp found
    refine ⟨rfl, rfl, Int.natCast_nonneg _, before, behind, ?_⟩
    simp only [Range.onLine, List.length_append]
    omega
  | @value head index values rest range found later left located next =>
    have tail : values.TailOf line := ⟨index, left, Option.some.inj (located.symm.trans (Stretch.ofIndex?_natCast ..))⟩
    obtain ⟨tail', same⟩ := tail.nextValue? next
    have start := (Stretch.nextValue?_bounds next).1
    rw [same] at before behind ⊢
    exact ⟨rfl, rfl, Int.le_trans tail.bounds.1 start, before, behind, tail'.bounds.2⟩

theorem Target.of_tail {head : Head} (found : Head.ofLine? position.line line = some head) {values rest : Stretch}
    (tail : values.TailOf line) (later : head.range.stop.character ≤ values.column)
    (next : values.nextValue? position.line = some (range, rest)) : Target line position range := by
  have located := tail.ofIndex?
  obtain ⟨index, left, rfl⟩ := tail
  exact .value found later left located next

/-! ### The range of a value -/

def valueRange? (kind : Kind) (rest : Stretch) (position : Position) : Option Range :=
  match kind with
  | .itemClass => rangeInList position rest.skipEquality
  | .baseType => rangeInList position rest.skipEquality
  | .sound => rangeOfOne position rest.skipEquality
  | .rarity => rangeOfOne position rest.skipOperator
  | .boolean => rangeOfOne position rest.skipEquality
  | _ => none

theorem valuesAt_eq (settings : Settings) (reference : Reference) (kind : Kind) (rest : Stretch)
    (position : Position) :
    valuesAt settings reference kind rest position =
      match valueRange? kind rest position with
      | none => .ok []
      | some range => ofKind settings reference kind range := by
  cases kind with
  | _ => rfl

section
variable {head : Head} {values? : Option Stretch} (found : Head.ofLine? position.line line = some head)
  (tails : ∀ values, values? = some values → values.TailOf line ∧ head.range.stop.character ≤ values.column)
include found tails

theorem rangeInList_target (replaced : rangeInList position values? = some range) :
    Target line position range ∧ Stretch.touches range position = true := by
  cases values? with
  | none =>
    cases replaced
    exact ⟨.nothing, Stretch.touches_empty position⟩
  | some values =>
    obtain ⟨tail, later⟩ := tails values rfl
    simp only [rangeInList] at replaced
    split at replaced
    · cases replaced
    · cases value : values.valueAt? position with
      | none =>
        rw [value] at replaced
        cases replaced
        exact ⟨.nothing, Stretch.touches_empty position⟩
      | some own =>
        rw [value] at replaced
        cases replaced
        obtain ⟨before, rest, passes, next, touched⟩ := Stretch.valueAt?_eq_some value
        exact ⟨.of_tail found (tail.passes passes) (Int.le_trans later passes.column_le) next, touched⟩

theorem rangeOfOne_target (replaced : rangeOfOne position values? = some range) :
    Target line position range ∧ Stretch.touches range position = true := by
  cases values? with
  | none =>
    cases replaced
    exact ⟨.nothing, Stretch.touches_empty position⟩
  | some values =>
    obtain ⟨tail, later⟩ := tails values rfl
    simp only [rangeOfOne] at replaced
    split at replaced
    · cases replaced
    · split at replaced
      · cases replaced
        exact ⟨.nothing, Stretch.touches_empty position⟩
      · next first rest next =>
        split at replaced
        · next touched =>
          cases replaced
          exact ⟨.of_tail found tail later next, touched⟩
        · cases replaced

end

theorem valueRange?_target {kind : Kind} {head : Head} (found : Head.ofLine? position.line line = some head)
    (replaced : valueRange? kind head.rest position = some range) :
    Target line position range ∧ Stretch.touches range position = true := by
  obtain ⟨tail, stop⟩ := Head.tailOf_rest found
  have equality : ∀ values, head.rest.skipEquality = some values →
      values.TailOf line ∧ head.range.stop.character ≤ values.column := by
    rw [← stop]
    exact fun values skipped => tail.skipEquality skipped
  have operator : ∀ values, head.rest.skipOperator = some values →
      values.TailOf line ∧ head.range.stop.character ≤ values.column := by
    rw [← stop]
    exact fun values skipped => tail.skipOperator skipped
  cases kind with
  | itemClass => exact rangeInList_target found equality replaced
  | baseType => exact rangeInList_target found equality replaced
  | sound => exact rangeOfOne_target found equality replaced
  | rarity => exact rangeOfOne_target found operator replaced
  | boolean => exact rangeOfOne_target found equality replaced
  | _ => cases replaced

/-- At a position there are keywords or values in place of one range that the position touches, or nothing at all. -/
theorem suggest_cases (settings : Settings) (reference : Reference) (line : List Char) (position : Position) :
    suggest settings reference line position = .ok [] ∨
      ∃ range, Target line position range ∧ Stretch.touches range position = true ∧
        (suggest settings reference line position = keywords settings reference range ∨
          ∃ kind, suggest settings reference line position = ofKind settings reference kind range) := by
  unfold suggest
  cases found : Head.ofLine? position.line line with
  | none =>
    simp only
    split
    · exact .inr ⟨_, .nothing, Stretch.touches_empty position, .inl rfl⟩
    · exact .inl rfl
  | some head =>
    simp only
    split
    · exact .inr ⟨_, .nothing, Stretch.touches_empty position, .inl rfl⟩
    · next reached =>
      split
      · next touched =>
        refine .inr ⟨_, .keyword found, Stretch.touches_iff.mpr ⟨?_, Int.not_lt.mp reached, touched⟩, .inl rfl⟩
        obtain ⟨blanks, chars, rest, -, -, -, -, -, rfl⟩ := Head.ofLine?_eq_some_iff.mp found
        rfl
      · cases Kind.ofKeyword? head.word with
        | none => exact .inl rfl
        | some kind =>
          simp only [valuesAt_eq]
          cases replaced : valueRange? kind head.rest position with
          | none => exact .inl rfl
          | some range =>
            obtain ⟨target, touched⟩ := valueRange?_target found replaced
            exact .inr ⟨range, target, touched, .inr ⟨kind, rfl⟩⟩

end

/-! ## Suggestions in place of a range -/

def Replaces (range : Range) (result : Except Unfit (List Suggestion)) : Prop :=
  ∀ suggestions, result = .ok suggestions → ∀ suggestion ∈ suggestions, suggestion.range = range

section
variable {range : Range}

theorem Replaces.ok {suggestions : List Suggestion} (same : ∀ suggestion ∈ suggestions, suggestion.range = range) :
    Replaces range (.ok suggestions) := by
  rintro _ ⟨⟩
  exact same

theorem Replaces.bind {first : Except Unfit (List Suggestion)}
    {second : List Suggestion → Except Unfit (List Suggestion)} (replaces : Replaces range first)
    (later : ∀ suggestions, (∀ suggestion ∈ suggestions, suggestion.range = range) →
      Replaces range (second suggestions)) : Replaces range (first >>= second) := by
  intro suggestions done
  obtain ⟨answer, found, done⟩ := ok_of_bind done
  exact later answer (replaces answer found) suggestions done

theorem Replaces.mapM {α : Type} {items : List α} {action : α → Except Unfit Suggestion}
    (each : ∀ item suggestion, action item = .ok suggestion → suggestion.range = range) :
    Replaces range (items.mapM action) := by
  induction items with
  | nil => exact .ok (List.forall_mem_nil _)
  | cons item rest ih =>
    intro suggestions done
    rw [List.mapM_cons] at done
    obtain ⟨first, found, done⟩ := ok_of_bind done
    obtain ⟨others, later, done⟩ := ok_of_bind done
    cases done
    exact List.forall_mem_cons.mpr ⟨each item first found, ih others later⟩

theorem ofValue_range {source : Source} {quotes : Bool} {value : Value} {suggestion : Suggestion}
    (done : ofValue source quotes range value = .ok suggestion) : suggestion.range = range := by
  obtain ⟨text, -, done⟩ := ok_of_bind done
  cases done
  rfl

theorem ofValues_replaces (source : Source) (quotes : Bool) (values : List Value) :
    Replaces range (ofValues source quotes range values) :=
  .mapM fun _ _ => ofValue_range

theorem ofKeyword_range {keyword : Value} {suggestion : Suggestion}
    (done : ofKeyword range keyword = .ok suggestion) : suggestion.range = range := by
  unfold ofKeyword at done
  split at done
  · cases done
    rfl
  · cases done
  · cases done
  · cases done
    rfl

theorem ofExtraBase_range {quotes : Bool} {extra : ExtraBase} {suggestion : Suggestion}
    (done : ofExtraBase quotes range extra = .ok suggestion) : suggestion.range = range := by
  cases extra with
  | name name => exact ofValue_range done
  | snippet label text =>
    cases done
    rfl

section
variable (settings : Settings) (reference : Reference)

theorem keywords_replaces : Replaces range (keywords settings reference range) := by
  apply Replaces.bind (.mapM fun _ _ => ofKeyword_range)
  intro known same
  apply Replaces.ok
  apply List.forall_mem_append.mpr ⟨same, _⟩
  intro suggestion member
  obtain ⟨keyword, -, rfl⟩ := List.mem_map.mp member
  rfl

theorem classes_replaces : Replaces range (classes settings reference range) := by
  apply Replaces.bind (ofValues_replaces _ _ _)
  intro known first
  apply Replaces.bind (ofValues_replaces _ _ _)
  intro allowed second
  apply Replaces.bind (ofValues_replaces _ _ _)
  intro extra third
  exact .ok (List.forall_mem_append.mpr ⟨List.forall_mem_append.mpr ⟨first, second⟩, third⟩)

theorem bases_replaces : Replaces range (bases settings reference range) := by
  apply Replaces.bind (ofValues_replaces _ _ _)
  intro known first
  apply Replaces.bind (ofValues_replaces _ _ _)
  intro allowed second
  apply Replaces.bind (.mapM fun _ _ => ofExtraBase_range)
  intro extra third
  exact .ok (List.forall_mem_append.mpr ⟨List.forall_mem_append.mpr ⟨first, second⟩, third⟩)

theorem sounds_replaces : Replaces range (sounds settings reference range) := by
  apply Replaces.bind (ofValues_replaces _ _ _)
  intro allowed second
  apply Replaces.ok
  apply List.forall_mem_append.mpr ⟨_, second⟩
  intro suggestion member
  obtain ⟨entry, -, rfl⟩ := List.mem_map.mp member
  rfl

theorem ofKind_replaces (kind : Kind) : Replaces range (ofKind settings reference kind range) := by
  cases kind with
  | itemClass => exact classes_replaces settings reference
  | baseType => exact bases_replaces settings reference
  | sound => exact sounds_replaces settings reference
  | rarity => exact ofValues_replaces _ _ _
  | boolean => exact ofValues_replaces _ _ _
  | _ => exact .ok (List.forall_mem_nil _)

end

end

end Suggestion

/-! ## Data that can be suggested -/

structure Reference.HasNames (reference : Reference) : Prop extends reference.HasWords where
  rules : ∀ value ∈ reference.rules, ∃ name, value = .text name
  extraClasses : ∀ value ∈ reference.extraClasses, ∃ name, value = .text name

theorem Bundled.hasNames : reference.HasNames where
  toHasWords := hasWords
  rules := by simp [reference]
  extraClasses := by simp [reference]

namespace Suggestion

section
variable (range : Range)

theorem ofValues_ok (source : Source) (quotes : Bool) {values : List Value}
    (fit : ∀ value ∈ values, (value.holds? " ").isSome = true) :
    ∃ suggestions, ofValues source quotes range values = .ok suggestions := by
  apply exists_mapM_ok
  intro value member
  apply exists_ok_bind_iff.mpr
  obtain ⟨spaced, found⟩ := Option.isSome_iff_exists.mp (fit value member)
  have written : ∃ newText, writtenValue quotes value = .ok newText := by
    simp only [writtenValue, found]
    cases quotes with
    | true => exact ⟨_, rfl⟩
    | false =>
      cases spaced with
      | true => exact ⟨_, rfl⟩
      | false => exact ⟨_, rfl⟩
  obtain ⟨newText, done⟩ := written
  exact ⟨newText, done, _, rfl⟩

theorem ofNames_ok (source : Source) (quotes : Bool) {values : List Value}
    (named : ∀ value ∈ values, ∃ name, value = .text name) :
    ∃ suggestions, ofValues source quotes range values = .ok suggestions := by
  apply ofValues_ok range
  intro value member
  obtain ⟨name, rfl⟩ := named value member
  rfl

theorem ofExtraBase_ok (quotes : Bool) (extra : ExtraBase) :
    ∃ suggestion, ofExtraBase quotes range extra = .ok suggestion := by
  cases extra with
  | name name => exact ⟨_, ofValue_text .extra quotes range name⟩
  | snippet label text => exact ⟨_, rfl⟩

variable (settings : Settings) {reference : Reference} (names : reference.HasNames)
include names

theorem keywords_ok : ∃ suggestions, keywords settings reference range = .ok suggestions := by
  apply exists_ok_bind_iff.mpr
  have known : ∃ known, reference.rules.mapM (ofKeyword range) = .ok known := by
    apply exists_mapM_ok
    intro keyword member
    obtain ⟨name, rfl⟩ := names.rules keyword member
    exact ⟨_, rfl⟩
  obtain ⟨known, done⟩ := known
  exact ⟨known, done, _, rfl⟩

theorem ofKind_ok (kind : Kind) : ∃ suggestions, ofKind settings reference kind range = .ok suggestions := by
  cases kind with
  | itemClass =>
    obtain ⟨extra, done⟩ := ofNames_ok range .extra settings.itemValueQuotes names.extraClasses
    simp only [ofKind, classes, ofValues_texts, done]
    exact ⟨_, rfl⟩
  | baseType =>
    have fit : ∀ value ∈ reference.lengthIndex.bases.map Base.toValue, (value.holds? " ").isSome = true := by
      intro value member
      obtain ⟨base, -, rfl⟩ := List.mem_map.mp member
      cases base with
      | _ => rfl
    obtain ⟨known, done⟩ := ofValues_ok range .reference settings.itemValueQuotes fit
    obtain ⟨extra, done'⟩ := exists_mapM_ok fun extra (_ : extra ∈ reference.extraBases) =>
      ofExtraBase_ok range settings.itemValueQuotes extra
    simp only [ofKind, bases, ofValues_texts, done, done']
    exact ⟨_, rfl⟩
  | sound =>
    simp only [ofKind, sounds, ofValues_texts]
    exact ⟨_, rfl⟩
  | rarity => exact ofNames_ok range _ _ names.rarities
  | boolean => exact ofNames_ok range _ _ names.booleans
  | _ => exact ⟨[], rfl⟩

end

/-- At every position of a line, all suggestions replace one and the same range. It stands on the line of the position,
inside the line, and holds the position; it is empty at the position, the range of the keyword, or the range of a value.
There are always suggestions to be had, perhaps none, if the names in the reference data are texts. -/
theorem suggestions_replace_one_range (settings : Settings) (reference : Reference) (line : List Char)
    (position : Position) (inside : 0 ≤ position.character) (within : position.character ≤ line.length) :
    (reference.HasNames → ∃ suggestions, suggest settings reference line position = .ok suggestions) ∧
      ∀ suggestions, suggest settings reference line position = .ok suggestions →
        ∃ range, (∀ suggestion ∈ suggestions, suggestion.range = range) ∧ Encloses line position range ∧
          Target line position range := by
  obtain none | ⟨range, target, touched, answer⟩ := suggest_cases settings reference line position
  · rw [none]
    refine ⟨fun _ => ⟨[], rfl⟩, ?_⟩
    rintro _ ⟨⟩
    have touched := Stretch.touches_empty position
    exact ⟨.empty position, List.forall_mem_nil _, Target.nothing.encloses touched inside within, .nothing⟩
  · have encloses := target.encloses touched inside within
    obtain same | ⟨kind, same⟩ := answer
    · rw [same]
      exact ⟨keywords_ok range settings, fun suggestions done =>
        ⟨range, keywords_replaces settings reference suggestions done, encloses, target⟩⟩
    · rw [same]
      exact ⟨fun names => ofKind_ok range settings names kind, fun suggestions done =>
        ⟨range, ofKind_replaces settings reference kind suggestions done, encloses, target⟩⟩

theorem unclosed_rarity_replaced :
    ∃ suggestions range, suggest {} Bundled.reference "Rarity >= \"Ma #".toList ⟨3, 12⟩ = .ok suggestions ∧
      (suggestions.map Suggestion.range).head? = some (.onLine 3 10 15) ∧
      (∀ suggestion ∈ suggestions, suggestion.range = range) ∧
      Encloses "Rarity >= \"Ma #".toList ⟨3, 12⟩ range ∧ Target "Rarity >= \"Ma #".toList ⟨3, 12⟩ range := by
  obtain ⟨answered, replaced⟩ := suggestions_replace_one_range {} Bundled.reference "Rarity >= \"Ma #".toList ⟨3, 12⟩
    (by decide) (by decide)
  have first : (suggest {} Bundled.reference "Rarity >= \"Ma #".toList ⟨3, 12⟩).map
      (fun suggestions => (suggestions.map Suggestion.range).head?) = .ok (some (.onLine 3 10 15)) := by rfl
  obtain ⟨suggestions, done⟩ := answered Bundled.hasNames
  obtain ⟨range, same, encloses, target⟩ := replaced suggestions done
  rw [done] at first
  exact ⟨suggestions, range, done, Except.ok.inj first, same, encloses, target⟩

end Suggestion

end LootFilter
