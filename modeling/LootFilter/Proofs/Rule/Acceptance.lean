import LootFilter.Line
import LootFilter.Proofs.Reference.BaseSearch
import LootFilter.Proofs.Rule.Gaps
import LootFilter.Proofs.Rule.Language
import LootFilter.Proofs.Scanner.Exclusion

/-! Reading accepts exactly the language of the rules: a line has no findings if and only if the grammar has it.

The reader decides at each optional part by looking at the text; the grammar may leave the part out anywhere. The two
agree because shapes exclude each other. -/

set_option autoImplicit false

namespace LootFilter

open Grammar

namespace Rule

theorem finish_eq_nil_iff {findings : List Finding} {cursor : Cursor} :
    finish findings cursor = [] ↔ findings = [] ∧ Ignorable cursor.rest := by
  rw [← Cursor.isIgnorable_iff]
  cases findings with
  | nil => cases ignored : cursor.isIgnorable <;> simp [finish, ignored]
  | cons finding others => simp [finish]

/-- The reader and the grammar agree on a part that is one lexeme: what is read is all that can follow. -/
theorem whole_lexeme_iff {α : Type} {reader : Reader α} {shape : Shape α} (captures : Captures reader shape)
    (test : α → Prop) (cursor : Cursor) :
    Whole (fun text rest => ∃ value, Follows shape text value rest ∧ test value) cursor.rest ↔
      (∃ token, (cursor.read reader).1 = some token ∧ test token.value) ∧ Ignorable (cursor.read reader).2.rest := by
  rcases result : cursor.read reader with ⟨token?, next⟩
  cases token? with
  | none =>
    obtain ⟨rfl, nothing⟩ := Cursor.read_eq_none captures result
    constructor
    · intro whole
      obtain ⟨rest, ⟨value, follows, -⟩, -⟩ := whole
      exact absurd follows (nothing _ _)
    · intro found
      obtain ⟨⟨token, missing, -⟩, -⟩ := found
      cases missing
  | some token =>
    have follows := (Cursor.read_eq_some captures result).1
    constructor
    · intro whole
      obtain ⟨rest, ⟨value, other, good⟩, ignorable⟩ := whole
      obtain ⟨rfl, rfl⟩ := captures.follows_unique follows other
      exact ⟨⟨token, rfl, good⟩, ignorable⟩
    · intro found
      obtain ⟨⟨token', same, good⟩, ignorable⟩ := found
      cases same
      exact ⟨_, ⟨_, follows, good⟩, ignorable⟩

theorem whole_then_iff {first second : List Char → List Char → Prop} {text middle : List Char} {clean : Prop}
    (spec : ∀ rest, first text rest ↔ clean ∧ middle = rest) :
    Whole (Then first second) text ↔ clean ∧ Whole second middle := by
  constructor
  · intro whole
    obtain ⟨rest, ⟨between, here, later⟩, ignorable⟩ := whole
    obtain ⟨good, rfl⟩ := (spec between).mp here
    exact ⟨good, rest, later, ignorable⟩
  · intro parts
    obtain ⟨good, rest, later, ignorable⟩ := parts
    exact ⟨rest, ⟨middle, (spec middle).mpr ⟨good, rfl⟩, later⟩, ignorable⟩

/-- A lexeme that may be left out is there if the text goes on with one, for what comes after it cannot start so. -/
theorem whole_perhaps_iff {α : Type} {reader : Reader α} {shape : Shape α} (captures : Captures reader shape)
    (test : α → Prop) {part : List Char → List Char → Prop}
    (apart : ∀ {text}, Whole part text → ∀ value rest, ¬Follows shape text value rest) (cursor : Cursor) :
    Whole (Then (fun text rest => text = rest ∨ ∃ value, Follows shape text value rest ∧ test value) part) cursor.rest ↔
      (∀ token, (cursor.read reader).1 = some token → test token.value) ∧ Whole part (cursor.read reader).2.rest := by
  rcases result : cursor.read reader with ⟨token?, next⟩
  cases token? with
  | none =>
    obtain ⟨rfl, nothing⟩ := Cursor.read_eq_none captures result
    constructor
    · intro whole
      obtain ⟨rest, ⟨middle, rfl | ⟨value, follows, -⟩, good⟩, ignorable⟩ := whole
      · exact ⟨nofun, rest, good, ignorable⟩
      · exact absurd follows (nothing _ _)
    · intro found
      obtain ⟨-, rest, good, ignorable⟩ := found
      exact ⟨rest, ⟨_, .inl rfl, good⟩, ignorable⟩
  | some token =>
    have follows := (Cursor.read_eq_some captures result).1
    constructor
    · intro whole
      obtain ⟨rest, ⟨middle, rfl | ⟨value, other, passes⟩, good⟩, ignorable⟩ := whole
      · exact absurd follows (apart ⟨rest, good, ignorable⟩ _ _)
      · obtain ⟨rfl, rfl⟩ := captures.follows_unique follows other
        refine ⟨fun token' same => ?_, rest, good, ignorable⟩
        cases same
        exact passes
    · intro found
      obtain ⟨passes, rest, good, ignorable⟩ := found
      exact ⟨rest, ⟨_, .inr ⟨_, follows, passes token rfl⟩, good⟩, ignorable⟩

/-! ## Operators -/

def Apart (part : List Char → List Char → Prop) : Prop :=
  ∀ {text rest}, part text rest → ∀ operator rest', ¬Follows Shape.operator text operator rest'

theorem whole_anyOperator_iff {part : List Char → List Char → Prop} (apart : Apart part) (cursor : Cursor) :
    Whole (Then AnyOperator part) cursor.rest ↔ Whole part cursor.readOperator.2.rest := by
  have form : AnyOperator = fun text rest =>
      text = rest ∨ ∃ operator, Follows Shape.operator text operator rest ∧ True := by
    funext text rest
    simp [AnyOperator]
  rw [form, whole_perhaps_iff Lexeme.captures_operator _ fun whole => apart whole.choose_spec.1]
  exact and_iff_right fun _ _ => trivial

theorem whole_equality_iff {part : List Char → List Char → Prop} (apart : Apart part) (keyword : String)
    (cursor : Cursor) :
    Whole (Then Equality part) cursor.rest ↔
      (readEquality keyword cursor).1 = [] ∧ Whole part (readEquality keyword cursor).2.rest := by
  have form : Equality = fun text rest =>
      text = rest ∨ ∃ operator, Follows Shape.operator text operator rest ∧ operator = .equal := by
    funext text rest
    simp [Equality]
  rw [form, whole_perhaps_iff Lexeme.captures_operator _ fun whole => apart whole.choose_spec.1]
  change (∀ token, cursor.readOperator.1 = some token → _) ∧ Whole part cursor.readOperator.2.rest ↔ _
  unfold readEquality
  rcases cursor.readOperator with ⟨token?, next⟩
  cases token? with
  | none => simp
  | some token => simp

/-! ## Numbers -/

theorem contains_iff {limits : Limits} {number : Int} : limits.contains number = true ↔ InLimits limits number := by
  simp [Limits.contains, Limits.spans, InLimits]

theorem spans_iff {limits : Limits} {number : Int} : limits.spans number = true ↔ InSpan limits number := by
  simp [Limits.spans, InSpan]

theorem apart_number (test : Int → Prop) : Apart (Number test) := by
  rintro text rest ⟨value, follows, -⟩
  exact no_operator Lexeme.captures_number operandlike_number follows

theorem readNumberAfter_clean_iff (limits : Limits) (keyword : String) (findings : List Finding) (cursor : Cursor) :
    (readNumberAfter limits keyword findings cursor).findings = [] ↔
      findings = [] ∧ Whole (Number (InLimits limits)) cursor.rest := by
  unfold Number readNumberAfter
  rw [whole_lexeme_iff Lexeme.captures_number]
  change _ ↔ _ ∧ (∃ token, cursor.readNumber.1 = some token ∧ _) ∧ Ignorable cursor.readNumber.2.rest
  rcases cursor.readNumber with ⟨token?, next⟩
  simp only [finish_eq_nil_iff, List.append_eq_nil_iff, and_assoc]
  cases token? with
  | none => simp
  | some token => simp [contains_iff]

-- A text that goes on with a number is not ignored.
theorem whole_perhapsNumber_iff (test : Int → Prop) (cursor : Cursor) :
    Whole (PerhapsNumber test) cursor.rest ↔
      (∀ token, cursor.readNumber.1 = some token → test token.value) ∧ Ignorable cursor.readNumber.2.rest := by
  have ended : ∀ {text}, Whole (fun text rest => text = rest) text ↔ Ignorable text := by
    intro text
    simp [Whole]
  have form : PerhapsNumber test = Then (PerhapsNumber test) fun text rest => text = rest := by
    funext text rest
    simp [Then]
  rw [form]
  refine (whole_perhaps_iff Lexeme.captures_number test ?_ cursor).trans (and_congr_right' ended)
  intro text whole value rest follows
  exact not_ignorable_of_number follows (ended.mp whole)

/-! ## Colours -/

theorem repeat_readChannels_iff (limits : Limits) (keyword : String) (count : Nat) (cursor : Cursor)
    (rest : List Char) :
    Repeat (Number (InSpan limits)) count cursor.rest rest ↔
      (readChannels limits keyword count cursor).1 = [] ∧
        (readChannels limits keyword count cursor).2.2.rest = rest := by
  induction count generalizing cursor with
  | zero => simp [Repeat, readChannels]
  | succ count ih =>
    rcases result : cursor.readNumber with ⟨token?, next⟩
    cases token? with
    | none =>
      -- The reader stops here with a finding, and the grammar has no number to go on with.
      obtain ⟨rfl, nothing⟩ := Cursor.read_eq_none Lexeme.captures_number result
      simp only [readChannels, result, reduceCtorEq, false_and, iff_false]
      rintro ⟨middle, ⟨value, follows, -⟩, -⟩
      exact nothing _ _ follows
    | some token =>
      have follows := (Cursor.read_eq_some Lexeme.captures_number result).1
      have step : Repeat (Number (InSpan limits)) (count + 1) cursor.rest rest ↔
          InSpan limits token.value ∧ Repeat (Number (InSpan limits)) count next.rest rest := by
        constructor
        · rintro ⟨middle, ⟨value, other, inside⟩, later⟩
          obtain ⟨rfl, rfl⟩ := Lexeme.captures_number.follows_unique follows other
          exact ⟨inside, later⟩
        · rintro ⟨inside, later⟩
          exact ⟨_, ⟨_, follows, inside⟩, later⟩
      rw [step, ih, ← spans_iff]
      cases inside : limits.spans token.value <;> simp [readChannels, result, inside]

theorem channels_of_clean (limits : Limits) (keyword : String) (count : Nat) (cursor : Cursor)
    (clean : (readChannels limits keyword count cursor).1 = []) :
    (readChannels limits keyword count cursor).2.1.isSome = true := by
  induction count generalizing cursor with
  | zero => rfl
  | succ count ih =>
    rcases result : cursor.readNumber with ⟨token?, next⟩
    cases token? with
    | none => simp [readChannels, result] at clean
    | some token =>
      cases inside : limits.spans token.value with
      | false => simp [readChannels, result, inside] at clean
      | true =>
        simp only [readChannels, result, inside, if_true] at clean ⊢
        simpa using ih next clean

theorem apart_channels (limits : Limits) :
    Apart (Then (Repeat (Number (InSpan limits)) 3) (PerhapsNumber (InSpan limits))) := by
  rintro text rest ⟨middle, ⟨second, first, later⟩, alpha⟩
  exact apart_number _ first

theorem readColor_clean_iff (limits : Limits) (keyword : String) (cursor : Cursor) :
    (readColor limits keyword cursor).findings = [] ↔
      Whole (Then Equality (Then (Repeat (Number (InSpan limits)) 3) (PerhapsNumber (InSpan limits)))) cursor.rest := by
  rw [whole_equality_iff (apart_channels limits) keyword]
  rcases equality : readEquality keyword cursor with ⟨findings, middle⟩
  have spec := repeat_readChannels_iff limits keyword 3 middle
  have channels := channels_of_clean limits keyword 3 middle
  rcases result : readChannels limits keyword 3 middle with ⟨own, channels?, last⟩
  rw [result] at spec channels
  simp only
  rw [whole_then_iff spec]
  cases channels? with
  | none =>
    -- Without its channels a colour is never clean, so the alpha does not matter.
    have dirty : own ≠ [] := fun clean => by simpa using channels clean
    simp [readColor, equality, result, dirty]
  | some found =>
    rw [whole_perhapsNumber_iff]
    rcases alpha : last.readNumber with ⟨alpha?, final⟩
    have late : (alpha?.filter fun alpha => !limits.spans alpha.value).toList = [] ↔
        ∀ token, alpha? = some token → InSpan limits token.value := by
      cases alpha? with
      | none => simp
      | some token => cases inside : limits.spans token.value <;> simp [inside, ← spans_iff]
    simp only [readColor, equality, result, alpha, finish_eq_nil_iff, List.append_eq_nil_iff, List.map_eq_nil_iff, late,
      and_assoc]

/-! ## Strings -/

theorem apart_choice (test : String → Prop) : Apart (Choice test) := by
  rintro text rest ⟨value, follows, -⟩
  exact no_operator Lexeme.captures_string operandlike_string follows

theorem readChoice_clean_iff {accepts : String → Bool} {test : String → Prop}
    (decides : ∀ value, accepts value = true ↔ test value) (expected : Expectation) (keyword : String)
    (findings : List Finding) (cursor : Cursor) :
    (readChoice accepts expected keyword findings cursor).findings = [] ↔
      findings = [] ∧ Whole (Choice test) cursor.rest := by
  unfold Choice readChoice
  rw [whole_lexeme_iff Lexeme.captures_string]
  change _ ↔ _ ∧ (∃ token, cursor.readString.1 = some token ∧ _) ∧ Ignorable cursor.readString.2.rest
  rcases cursor.readString with ⟨token?, next⟩
  simp only [finish_eq_nil_iff, List.append_eq_nil_iff, and_assoc]
  cases token? with
  | none => simp
  | some token => simp [decides]

theorem hasRarity_iff {reference : Reference} {name : String} :
    reference.hasRarity name = true ↔ .text name ∈ reference.rarities := by
  simp only [Reference.hasRarity, List.any_eq_true]
  constructor
  · rintro ⟨value, member, same⟩
    cases value <;> simp only [Value.isText, Bool.false_eq_true, beq_iff_eq] at same
    exact same ▸ member
  · exact fun member => ⟨_, member, by simp [Value.isText]⟩

theorem isSocketColor_iff {c : Char} :
    isSocketColor c = true ↔ c ∈ ['r', 'g', 'b', 'w', 'R', 'G', 'B', 'W'] := by
  constructor
  · intro named
    simp only [isSocketColor, Bool.or_eq_true, beq_iff_eq] at named
    rcases Lexeme.toLower_cases c with fixed | ⟨least, greatest, shifted⟩
    · rw [fixed] at named
      rcases named with ((rfl | rfl) | rfl) | rfl <;> simp
    · -- A capital letter is found by its code.
      have codes : c.toNat = 'R'.toNat ∨ c.toNat = 'G'.toNat ∨ c.toNat = 'B'.toNat ∨ c.toNat = 'W'.toNat := by
        rcases named with ((same | same) | same) | same <;> rw [same] at shifted
        · exact .inl (by change 114 = _ at shifted; change _ = 82; omega)
        · exact .inr (.inl (by change 103 = _ at shifted; change _ = 71; omega))
        · exact .inr (.inr (.inl (by change 98 = _ at shifted; change _ = 66; omega)))
        · exact .inr (.inr (.inr (by change 119 = _ at shifted; change _ = 87; omega)))
      rcases codes with code | code | code | code <;> rw [Char.toNat_inj.mp code] <;> simp
  · intro member
    simp only [List.mem_cons, List.not_mem_nil, or_false] at member
    rcases member with rfl | rfl | rfl | rfl | rfl | rfl | rfl | rfl <;> decide

theorem isSocketGroup_iff (value : String) : isSocketGroup value = true ↔ SocketGroup value := by
  simp only [isSocketGroup, SocketGroup, Bool.and_eq_true, decide_eq_true_eq, List.all_eq_true, isSocketColor_iff,
    and_assoc]

end Rule

namespace Grammar

variable {cursor : Cursor} {middle : List Char} (equality : Equality cursor.rest middle)
include equality

theorem Equality.readOperator (apart : ∀ operator rest, ¬Follows Shape.operator middle operator rest) :
    (∀ operator, cursor.readOperator.1 = some operator → operator.value = .equal) ∧
      cursor.readOperator.2.rest = middle := by
  rcases result : cursor.readOperator with ⟨operator?, next⟩
  cases operator? with
  | none =>
    obtain ⟨rfl, nothing⟩ := Cursor.read_eq_none Lexeme.captures_operator result
    exact ⟨nofun, equality.resolve_right (nothing _ _)⟩
  | some operator =>
    have follows := (Cursor.read_eq_some Lexeme.captures_operator result).1
    obtain same | follows' := equality
    · exact absurd (same ▸ follows) (apart _ _)
    · obtain ⟨equal, left⟩ := Lexeme.captures_operator.follows_unique follows follows'
      refine ⟨?_, left⟩
      rintro _ ⟨⟩
      exact equal

theorem Equality.valueTokens {values : List String} {rest : List Char} (strings : Strings middle values rest)
    (some_values : values ≠ []) :
    (Rule.valueTokens cursor).map Token.value = values ∧ cursor.readOperator.2.readStrings.2.rest = rest := by
  have read := cursor.readOperator.2.strings_readStrings
  rw [(equality.readOperator (strings.no_operator some_values)).2] at read
  exact read.unique strings

end Grammar

namespace Rule

theorem apart_values (test : String → Prop) : Apart (Values test) := by
  rintro text rest ⟨values, strings, some_value, -, -⟩
  exact strings.no_operator some_value

theorem readValues_clean_iff {accepts : String → Bool} {test : String → Prop}
    (decides : ∀ value, accepts value = true ↔ test value) (keyword : String) (expected : Expectation)
    (cursor : Cursor) :
    (readValues accepts keyword expected cursor).1.findings = [] ↔
      Whole (Then Equality (Values test)) cursor.rest := by
  rw [whole_equality_iff (apart_values test) keyword]
  rcases equality : readEquality keyword cursor with ⟨findings, middle⟩
  -- The strings that are read are the only ones the grammar can have; what is left is to judge them.
  have strings := Cursor.strings_readStrings middle
  rcases result : middle.readStrings with ⟨tokens, last⟩
  rw [result] at strings
  have clean := judge_clean_iff accepts keyword expected [] tokens
  have accepted := judge_accepted accepts keyword expected [] tokens
  simp only [readValues, equality, result, finish_eq_nil_iff, List.append_eq_nil_iff, clean, accepted, and_assoc]
  apply and_congr_right'
  constructor
  · rintro ⟨all, apart, -, some_value, ignorable⟩
    refine ⟨_, ⟨_, strings, ?_, apart, fun value member => (decides value).mp (all value member)⟩, ignorable⟩
    rintro empty
    simp [empty] at some_value
  · rintro ⟨rest, ⟨values, others, some_value, apart, all⟩, ignorable⟩
    obtain ⟨rfl, rfl⟩ := strings.unique others
    have passes : ∀ value ∈ tokens.map Token.value, accepts value = true :=
      fun value member => (decides value).mpr (all value member)
    refine ⟨passes, apart, by simp, ?_, ignorable⟩
    rw [List.nil_append, List.filter_eq_self.mpr passes]
    simpa using some_value

theorem acceptsClass_iff {settings : Settings} {reference : Reference} (value : String) :
    acceptsClass settings reference value = true ↔ ClassName settings reference value := by
  simp only [acceptsClass, ClassName, Bool.or_eq_true, List.any_eq_true, Text.occursIn_iff]

theorem acceptsBase_iff {settings : Settings} {reference : Reference} {asked : List String} (value : String) :
    (Pool.choose reference asked).answers value = true ∧
        (Pool.choose reference asked).accepts settings.baseWhitelist value = true ↔
      BaseName settings reference asked value := by
  rw [Pool.answers_choose_iff, Pool.accepts_iff, BaseName]
  apply and_congr_right'
  apply or_congr_left
  split
  · next nothing =>
    rw [nothing]
    rfl
  · next some_part => exact Pool.finds_choose_of_parts some_part

/-- The values that the grammar has are those that are read, so a test of all of them can be made before. -/
theorem whole_values_and_iff (first second : String → Prop) (cursor : Cursor) :
    Whole (Then Equality (Values fun value => first value ∧ second value)) cursor.rest ↔
      (∀ token ∈ valueTokens cursor, first token.value) ∧ Whole (Then Equality (Values second)) cursor.rest := by
  constructor
  · rintro ⟨rest, ⟨middle, equality, values, strings, some_values, distinct, good⟩, ignorable⟩
    refine ⟨?_, rest, ⟨middle, equality, values, strings, some_values, distinct, fun _ member => (good _ member).2⟩,
      ignorable⟩
    intro token member
    rw [← (equality.valueTokens strings some_values).1] at good
    exact (good _ (List.mem_map_of_mem member)).1
  · rintro ⟨tested, rest, ⟨middle, equality, values, strings, some_values, distinct, good⟩, ignorable⟩
    refine ⟨rest, ⟨middle, equality, values, strings, some_values, distinct, ?_⟩, ignorable⟩
    intro value member
    refine ⟨?_, good value member⟩
    rw [← (equality.valueTokens strings some_values).1] at member
    obtain ⟨token, read, rfl⟩ := List.mem_map.mp member
    exact tested token read

theorem read_baseType_clean_iff {settings : Settings} {reference : Reference} {keyword : String} {head : Range}
    {cursor : Cursor} {block : Block} :
    (∃ outcome next, read settings reference .baseType keyword head cursor block = .ok (outcome, next) ∧
      outcome.findings = []) ↔
        Whole (Then Equality (Values (BaseName settings reference block.classes))) cursor.rest := by
  have judged := readValues_clean_iff
    (fun value => Iff.refl ((Pool.choose reference block.classes).accepts settings.baseWhitelist value = true)) keyword
    (Pool.choose reference block.classes).expectation cursor
  have names : BaseName settings reference block.classes = fun value =>
      (Pool.choose reference block.classes).answers value = true ∧
        (Pool.choose reference block.classes).accepts settings.baseWhitelist value = true := by
    funext value
    exact propext (acceptsBase_iff value).symm
  rw [names, whole_values_and_iff, ← judged]
  constructor
  · rintro ⟨_, next, done, clean⟩
    obtain ⟨answered, rfl, -⟩ := read_baseType_eq_ok_iff.mp done
    exact ⟨answered, clean⟩
  · rintro ⟨answered, clean⟩
    exact ⟨_, block, read_baseType_eq_ok_iff.mpr ⟨answered, rfl, rfl⟩, clean⟩

/-! ## Booleans and sounds -/

theorem apart_boolean : Apart fun text rest => ∃ value, Follows Shape.boolean text value rest := by
  rintro text rest ⟨value, follows⟩
  exact no_operator Lexeme.captures_boolean operandlike_boolean follows

theorem readBoolean_clean_iff {reference : Reference} (words : reference.HasWords) (keyword : String)
    (cursor : Cursor) :
    ∃ outcome, readBoolean reference keyword cursor = .ok outcome ∧
      (outcome.findings = [] ↔
        Whole (Then Equality fun text rest => ∃ value, Follows Shape.boolean text value rest) cursor.rest) := by
  rw [whole_equality_iff apart_boolean keyword]
  rcases equality : readEquality keyword cursor with ⟨findings, middle⟩
  rcases result : middle.readBoolean with ⟨token?, next⟩
  cases token? with
  | none =>
    obtain ⟨rfl, nothing⟩ := Cursor.read_eq_none Lexeme.captures_boolean result
    obtain ⟨names, found⟩ := Reference.booleanWords_ok words keyword
    simp only [readBoolean, equality, result, found]
    refine ⟨_, rfl, ?_⟩
    simp only [List.append_eq_nil_iff, reduceCtorEq, and_false, false_iff, not_and]
    rintro - ⟨rest, ⟨value, follows⟩, -⟩
    exact nothing _ _ follows
  | some token =>
    have follows := (Cursor.read_eq_some Lexeme.captures_boolean result).1
    simp only [readBoolean, equality, result]
    refine ⟨_, rfl, ?_⟩
    simp only [finish_eq_nil_iff]
    apply and_congr_right'
    constructor
    · exact fun ignorable => ⟨_, ⟨_, follows⟩, ignorable⟩
    · rintro ⟨rest, ⟨value, other⟩, ignorable⟩
      obtain ⟨-, rfl⟩ := Lexeme.captures_boolean.follows_unique follows other
      exact ignorable

theorem labels_contains_iff {labels : Labels} {name : String} :
    labels.contains name = true ↔ ∃ label, (.text name, label) ∈ labels.entries := by
  simp only [Labels.contains, Labels.get?, Option.isSome_map, List.find?_isSome]
  constructor
  · rintro ⟨⟨held, label⟩, member, same⟩
    cases held <;> simp only [Value.isText, Bool.false_eq_true, beq_iff_eq] at same
    exact ⟨label, same ▸ member⟩
  · exact fun ⟨label, member⟩ => ⟨_, member, by simp [Value.isText]⟩

/-- The reader tries a word first; a text that goes on with a number has none. -/
theorem soundIdentifier_iff (settings : Settings) (sounds : Sounds) (keyword : String) (cursor : Cursor)
    (rest : List Char) :
    SoundIdentifier settings sounds cursor.rest rest ↔
      (∃ identifier?, (readIdentifier settings sounds keyword cursor).1 = some ([], identifier?)) ∧
        (readIdentifier settings sounds keyword cursor).2.rest = rest := by
  rcases word : cursor.readWord with ⟨word?, next⟩
  cases word? with
  | some token =>
    have follows := (Cursor.read_eq_some Lexeme.captures_word word).1
    have here : SoundIdentifier settings sounds cursor.rest rest ↔
        ((∃ label, (.text token.value, label) ∈ sounds.labels.entries) ∨ token.value ∈ settings.soundWhitelist) ∧
          next.rest = rest := by
      constructor
      · rintro (⟨name, other, allowed⟩ | ⟨value, other, -⟩)
        · obtain ⟨rfl, rfl⟩ := Lexeme.captures_word.follows_unique follows other
          exact ⟨allowed, rfl⟩
        · exact absurd follows (no_word_of_number other _ _)
      · rintro ⟨allowed, rfl⟩
        exact .inl ⟨_, follows, allowed⟩
    rw [here, ← labels_contains_iff]
    by_cases known : sounds.labels.contains token.value = true
    · simp [readIdentifier, word, known]
    · by_cases allowed : token.value ∈ settings.soundWhitelist
      · simp [readIdentifier, word, known, allowed]
      · simp [readIdentifier, word, known, allowed]
  | none =>
    obtain ⟨rfl, nothing⟩ := Cursor.read_eq_none Lexeme.captures_word word
    rcases number : next.readNumber with ⟨number?, last⟩
    cases number? with
    | none =>
      obtain ⟨rfl, none⟩ := Cursor.read_eq_none Lexeme.captures_number number
      simp only [readIdentifier, word, number, reduceCtorEq, exists_false, false_and, iff_false]
      rintro (⟨name, other, -⟩ | ⟨value, other, -⟩)
      · exact nothing _ _ other
      · exact none _ _ other
    | some token =>
      have follows := (Cursor.read_eq_some Lexeme.captures_number number).1
      have here : SoundIdentifier settings sounds next.rest rest ↔
          (sounds.least ≤ token.value ∧ token.value ≤ sounds.greatest) ∧ last.rest = rest := by
        constructor
        · rintro (⟨name, other, -⟩ | ⟨value, other, inside⟩)
          · exact absurd other (nothing _ _)
          · obtain ⟨rfl, rfl⟩ := Lexeme.captures_number.follows_unique follows other
            exact ⟨inside, rfl⟩
        · rintro ⟨inside, rfl⟩
          exact .inr ⟨_, follows, inside⟩
      rw [here]
      by_cases inside : sounds.least ≤ token.value ∧ token.value ≤ sounds.greatest
      · simp [readIdentifier, word, number, inside]
      · simp [readIdentifier, word, number, inside]

theorem readVolume_clean_iff (keyword : String) (cursor : Cursor) :
    (readVolume keyword cursor).1 = [] ∧ Ignorable (readVolume keyword cursor).2.2.rest ↔
      Whole (PerhapsNumber fun volume => 0 ≤ volume ∧ volume ≤ greatestVolume) cursor.rest := by
  rw [whole_perhapsNumber_iff]
  rcases result : cursor.readNumber with ⟨token?, next⟩
  cases token? with
  | none => simp [readVolume, result]
  | some token =>
    by_cases inside : 0 ≤ token.value ∧ token.value ≤ greatestVolume
    · simp [readVolume, result, inside]
    · simp [readVolume, result, inside]

theorem apart_sound (settings : Settings) (sounds : Sounds) (part : List Char → List Char → Prop) :
    Apart (Then (SoundIdentifier settings sounds) part) := by
  rintro text rest ⟨middle, ⟨name, follows, -⟩ | number, -⟩
  · exact no_operator Lexeme.captures_word operandlike_word follows
  · exact apart_number _ number

theorem readSound_clean_iff (settings : Settings) (sounds : Sounds) (keyword : String) (cursor : Cursor) :
    (readSound settings sounds keyword cursor).findings = [] ↔
      Whole (Then Equality (Then (SoundIdentifier settings sounds)
        (PerhapsNumber fun volume => 0 ≤ volume ∧ volume ≤ greatestVolume))) cursor.rest := by
  rw [whole_equality_iff (apart_sound settings sounds _) keyword]
  rcases equality : readEquality keyword cursor with ⟨findings, middle⟩
  have spec := soundIdentifier_iff settings sounds keyword middle
  rcases result : readIdentifier settings sounds keyword middle with ⟨answer, last⟩
  rw [result] at spec
  simp only
  rw [whole_then_iff spec, ← readVolume_clean_iff keyword]
  cases answer with
  | none => simp [readSound, equality, result]
  | some found =>
    obtain ⟨own, identifier?⟩ := found
    rcases volume : readVolume keyword last with ⟨late, loudness, final⟩
    simp only [readSound, equality, result, volume, finish_eq_nil_iff, List.append_eq_nil_iff, Option.some.injEq,
      Prod.mk.injEq, exists_and_left, exists_eq', and_true, and_assoc]

/-! ## Rules and lines -/

theorem whole_limits_iff {reference : Reference} {keyword : String} {limits : Limits}
    (found : reference.limits.get? keyword = some limits) (part : Limits → List Char → List Char → Prop)
    (text : List Char) :
    Whole (fun text rest => ∃ limits, reference.limits.get? keyword = some limits ∧ part limits text rest) text ↔
      Whole (part limits) text := by
  simp [Whole, found]

-- A rule that is read for sure is clean if its findings are none.
theorem exists_clean_iff {result : Except Reference.Gap (Outcome × Block)} (answer : Outcome × Block) {whole : Prop}
    (done : result = .ok answer) (clean : answer.1.findings = [] ↔ whole) :
    (∃ outcome next, result = .ok (outcome, next) ∧ outcome.findings = []) ↔ whole := by
  obtain ⟨outcome, next⟩ := answer
  simpa [done, and_assoc] using clean

theorem read_clean_iff (settings : Settings) {reference : Reference} (covered : reference.HasLimits)
    (words : reference.HasWords) {kind : Kind} {keyword : String} (known : Kind.ofKeyword? keyword = some kind)
    (head : Range) (cursor : Cursor) (block : Block) :
    (∃ outcome next, read settings reference kind keyword head cursor block = .ok (outcome, next) ∧
      outcome.findings = []) ↔ Whole (Body settings reference block keyword kind) cursor.rest := by
  cases kind with
  | block =>
    refine exists_clean_iff _ rfl ?_
    simp only [readBlock, Body, Whole, exists_eq_left', ← Cursor.isIgnorable_iff]
    cases cursor.isIgnorable <;> simp
  | number =>
    obtain ⟨limits, found, ok⟩ := Reference.limitsOf_ok covered known rfl
    refine exists_clean_iff (readNumber limits keyword cursor, block) (by simp only [read, ok]; rfl) ?_
    simp only [Body]
    rw [whole_limits_iff found, whole_anyOperator_iff (apart_number _), readNumber, readNumberAfter_clean_iff]
    simp
  | fontSize =>
    obtain ⟨limits, found, ok⟩ := Reference.limitsOf_ok covered known rfl
    refine exists_clean_iff (readFontSize limits keyword cursor, block) (by simp only [read, ok]; rfl) ?_
    simp only [Body]
    rw [whole_limits_iff found, whole_equality_iff (apart_number _) keyword, readFontSize, readNumberAfter_clean_iff]
  | rarity =>
    obtain ⟨names, ok⟩ := Reference.rarityWords_ok words keyword
    refine exists_clean_iff (_, block) (by simp only [read, readRarity, ok]; rfl) ?_
    simp only [Body]
    rw [whole_anyOperator_iff (apart_choice _), readChoice_clean_iff (fun _ => hasRarity_iff)]
    simp
  | socketGroup =>
    refine exists_clean_iff _ rfl ?_
    simp only [Body]
    rw [whole_equality_iff (apart_choice _) keyword, readSocketGroup, readChoice_clean_iff isSocketGroup_iff]
  | boolean =>
    obtain ⟨outcome, ok, clean⟩ := readBoolean_clean_iff words keyword cursor
    exact exists_clean_iff (outcome, block) (by simp only [read, ok]; rfl) clean
  | color =>
    obtain ⟨limits, found, ok⟩ := Reference.limitsOf_ok covered known rfl
    refine exists_clean_iff (readColor limits keyword cursor, block) (by simp only [read, ok]; rfl) ?_
    simp only [Body]
    rw [whole_limits_iff found, readColor_clean_iff]
  | itemClass => exact exists_clean_iff _ rfl (readValues_clean_iff acceptsClass_iff keyword .itemClass cursor)
  | baseType => exact read_baseType_clean_iff
  | sound => exact exists_clean_iff _ rfl (readSound_clean_iff settings reference.sounds keyword cursor)

end Rule

theorem Grammar.line_iff_of_word {settings : Settings} {reference : Reference} {block : Block}
    {text rest : List Char} {word : String} (visible : ¬Ignorable text) (follows : Follows Shape.word text word rest) :
    Grammar.Line settings reference block text ↔
      (Kind.ofKeyword? word = none ∧ word ∈ settings.ruleWhitelist) ∨
        ∃ kind, Kind.ofKeyword? word = some kind ∧ Whole (Body settings reference block word kind) rest := by
  constructor
  · rintro (ignorable | ⟨other, rest', found, unknown, allowed⟩ | ⟨other, kind, rest', found, known, whole⟩)
    · exact absurd ignorable visible
    · obtain ⟨rfl, rfl⟩ := Lexeme.captures_word.follows_unique follows found
      exact .inl ⟨unknown, allowed⟩
    · obtain ⟨rfl, rfl⟩ := Lexeme.captures_word.follows_unique follows found
      exact .inr ⟨kind, known, whole⟩
  · rintro (⟨unknown, allowed⟩ | ⟨kind, known, whole⟩)
    · exact .inr (.inl ⟨word, rest, follows, unknown, allowed⟩)
    · exact .inr (.inr ⟨word, kind, rest, follows, known, whole⟩)

namespace Line

theorem readFrom_clean_iff (settings : Settings) {reference : Reference} (covered : reference.HasLimits)
    (words : reference.HasWords) (cursor : Cursor) (block : Block) :
    (∃ line next, readFrom settings reference cursor block = .ok (line, next) ∧ line.findings = []) ↔
      Grammar.Line settings reference block cursor.rest := by
  by_cases ignored : cursor.isIgnorable = true
  · simp only [readFrom, ignored, if_true]
    exact ⟨fun _ => .inl (Cursor.isIgnorable_iff.mp ignored), fun _ => ⟨_, _, rfl, rfl⟩⟩
  · have visible : ¬Ignorable cursor.rest := fun ignorable => ignored (Cursor.isIgnorable_iff.mpr ignorable)
    rcases result : cursor.readWord with ⟨word?, next⟩
    simp only [readFrom, ignored, result]
    cases word? with
    | none =>
      obtain ⟨rfl, nothing⟩ := Cursor.read_eq_none Lexeme.captures_word result
      constructor
      · rintro ⟨_, _, ⟨⟩, clean⟩
        cases clean
      · rintro (ignorable | ⟨word, rest, follows, -⟩ | ⟨word, kind, rest, follows, -⟩)
        · exact absurd ignorable visible
        · exact absurd follows (nothing _ _)
        · exact absurd follows (nothing _ _)
    | some word =>
      have follows := (Cursor.read_eq_some Lexeme.captures_word result).1
      rw [Grammar.line_iff_of_word visible follows]
      cases known : Kind.ofKeyword? word.value with
      | none =>
        by_cases allowed : word.value ∈ settings.ruleWhitelist
        · simp [known, allowed]
        · simp [known, allowed]
      | some kind =>
        have rule := Rule.read_clean_iff settings covered words known word.range next block
        simp only [Bool.false_eq_true, if_false, known, reduceCtorEq, false_and, false_or, Option.some.injEq,
          exists_eq_left', ← rule]
        constructor
        · rintro ⟨_, _, done, clean⟩
          obtain ⟨⟨outcome, after⟩, ok, same⟩ := ok_of_bind done
          cases same
          exact ⟨outcome, after, ok, clean⟩
        · rintro ⟨outcome, after, ok, clean⟩
          exact ⟨_, after, by rw [ok]; rfl, clean⟩

theorem readFrom_ok (settings : Settings) {reference : Reference} (covered : reference.HasLimits)
    (words : reference.HasWords) (searchable : reference.lengthIndex.Searchable) (cursor : Cursor) (block : Block) :
    ∃ answer, readFrom settings reference cursor block = .ok answer := by
  unfold readFrom
  split
  · exact ⟨_, rfl⟩
  · split
    · exact ⟨_, rfl⟩
    · next word next found =>
      cases known : Kind.ofKeyword? word.value with
      | none =>
        simp only
        split
        · exact ⟨_, rfl⟩
        · exact ⟨_, rfl⟩
      | some kind =>
        obtain ⟨answer, ok⟩ := Rule.read_ok settings covered words searchable known word.range next block
        exact ⟨_, by simp only [ok]; rfl⟩

theorem read_ok (settings : Settings) {reference : Reference} (covered : reference.HasLimits)
    (words : reference.HasWords) (searchable : reference.lengthIndex.Searchable) (row : Int) {text : List Char}
    (oneLine : ∀ c ∈ text, Text.isBreak c = false) (block : Block) :
    ∃ line next, Line.read settings reference row text block = .ok (line, next) := by
  have start : Cursor.ofLine? row text = some ⟨row, text, 0⟩ := by simpa [Cursor.ofLine?] using oneLine
  obtain ⟨⟨line, next⟩, ok⟩ := readFrom_ok settings covered words searchable ⟨row, text, 0⟩ block
  exact ⟨line, next, by simp only [Line.read, start, mapError_eq_ok_iff, ok]⟩

/-- A line is read without findings if and only if it is in the language of the rules. It can be read at all if every
search for a base answers; on one that does not, a line is not read, and the language does not have the line. -/
theorem read_clean_iff_grammar (settings : Settings) (reference : Reference) (covered : reference.HasLimits)
    (words : reference.HasWords) (row : Int) (text : List Char) (oneLine : ∀ c ∈ text, Text.isBreak c = false)
    (block : Block) :
    (reference.lengthIndex.Searchable → ∃ line next, Line.read settings reference row text block = .ok (line, next)) ∧
      ((∃ line next, Line.read settings reference row text block = .ok (line, next) ∧ line.findings = []) ↔
        Grammar.Line settings reference block text) := by
  have start : Cursor.ofLine? row text = some ⟨row, text, 0⟩ := by simpa [Cursor.ofLine?] using oneLine
  refine ⟨fun searchable => read_ok settings covered words searchable row oneLine block, ?_⟩
  simp only [Line.read, start, mapError_eq_ok_iff]
  exact readFrom_clean_iff settings covered words ⟨row, text, 0⟩ block

end Line

theorem grammar_itemLevel_line : Grammar.Line {} Bundled.reference {} "\tItemLevel >= +70 # late game".toList := by
  refine (Line.read_clean_iff_grammar {} Bundled.reference Bundled.hasLimits Bundled.hasWords 0
    "\tItemLevel >= +70 # late game".toList (by simp [Text.isBreak]) {}).2.mp ?_
  exact ⟨_, _, rfl, rfl⟩

end LootFilter
