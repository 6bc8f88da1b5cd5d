import LootFilter.Proofs.Editor.Agreement
import LootFilter.Proofs.Line.Comment
import LootFilter.Proofs.Rule.Severity

/-! Another value in the place of one. What stands before the place is read as before, for a blank stands between; what
stands behind it follows the new value as it has followed the old one. So a clean line stays without errors if the new
value is one that its rule takes. -/

set_option autoImplicit false

namespace LootFilter

open Grammar
open Text (isBlank endsHere)

def Range.replace (range : Range) (line new : List Char) : List Char :=
  line.take range.start.character.toNat ++ (new ++ line.drop range.stop.character.toNat)

namespace Cursor

/-- A lexeme in a range behind a cursor, with the text before it and the text behind it. -/
structure Slot (cursor : Cursor) (range : Range) (front chars after : List Char) : Prop where
  split : cursor.rest = front ++ (chars ++ after)
  place : range = Range.onLine cursor.row (cursor.column + front.length : Nat)
    (cursor.column + front.length + chars.length : Nat)
  visible : ∃ c tail, chars = c :: tail ∧ isBlank c = false
  ends : endsHere after = true

theorem column_of_rest {cursor next : Cursor} {lead : List Char} (line : next.line = cursor.line)
    (split : cursor.rest = lead ++ next.rest) (left : next.rest ≠ []) : next.column = cursor.column + lead.length := by
  have lengths := congrArg List.length split
  have some_left := List.length_pos_iff.mpr left
  simp only [rest, line, List.length_append, List.length_drop] at lengths some_left
  omega

section
variable {α : Type} {reader : Reader α} {shape : Shape α} {cursor next : Cursor} {range : Range}
  {front chars after : List Char}

theorem Slot.replace {row : Int} {line : List Char} (slot : Slot ⟨row, line, 0⟩ range front chars after)
    (new : List Char) : range.replace line new = front ++ (new ++ after) := by
  have whole : line = front ++ (chars ++ after) := slot.split
  have stop : line.drop (front.length + chars.length) = after := by
    rw [whole, ← List.drop_drop, List.drop_left, List.drop_left]
  have start : line.take front.length = front := by rw [whole, List.take_left]
  rw [Range.replace, slot.place]
  simp only [Range.onLine, Int.toNat_natCast, Nat.zero_add, start, stop]

theorem slot_of_read (captures : Captures reader shape) {token : Token α}
    (found : cursor.read reader = (some token, next)) :
    ∃ blanks chars, cursor.Slot token.range blanks chars next.rest ∧ (∀ c ∈ blanks, isBlank c = true) ∧
      shape chars token.value := by
  obtain ⟨blanks, chars, split, all, shaped, ends, range, -⟩ := read_extent captures found
  exact ⟨blanks, chars, ⟨split, range, captures.visible shaped, ends⟩, all, shaped⟩

theorem Slot.back (captures : Captures reader shape) {token : Token α}
    (found : cursor.read reader = (some token, next)) (slot : next.Slot range front chars after) :
    ∃ lead, cursor.Slot range (lead ++ front) chars after ∧
      ∀ new, Follows shape (lead ++ (front ++ (new ++ after))) token.value (front ++ (new ++ after)) := by
  obtain ⟨blanks, lexeme, split, all, shaped, ends, -, same⟩ := read_extent captures found
  -- The text behind a lexeme starts with a blank, so it is not the other lexeme at once.
  obtain ⟨first, others, rfl, blank⟩ : ∃ first others, front = first :: others ∧ isBlank first = true := by
    rw [slot.split] at ends
    obtain ⟨c, tail, rfl, plain⟩ := slot.visible
    cases front with
    | nil => exact absurd (plain.symm.trans ends) Bool.false_ne_true
    | cons first others => exact ⟨first, others, rfl, ends⟩
  refine ⟨blanks ++ lexeme, ⟨?_, ?_, slot.visible, slot.ends⟩, ?_⟩
  · rw [split, slot.split]
    simp
  · have column : next.column = cursor.column + blanks.length + lexeme.length := by rw [same]
    have row : next.row = cursor.row := by rw [same]
    rw [slot.place, column, row]
    simp only [List.length_append, Nat.add_assoc]
  · intro new
    exact ⟨blanks, lexeme, by simp, all, shaped, blank⟩

theorem slot_of_string {tokens : List (Token String)} (yields : cursor.Yields tokens) {last : List Char}
    (strings : Strings cursor.rest (tokens.map Token.value) last) {token : Token String} (member : token ∈ tokens) :
    ∃ front chars after earlier later, cursor.Slot token.range front chars after ∧
      tokens.map Token.value = earlier ++ token.value :: later ∧
      ∀ new value, Shape.string new value →
        Strings (front ++ (new ++ after)) (earlier ++ value :: later) last := by
  induction yields with
  | done => cases member
  | @next cursor next first tokens found _ ih =>
    have follows := (read_eq_some Lexeme.captures_string found).1
    cases strings with
    | next follows' strings =>
      obtain ⟨-, rfl⟩ := Lexeme.captures_string.follows_unique follows follows'
      obtain rfl | behind := List.mem_cons.mp member
      · obtain ⟨blanks, chars, slot, all, -⟩ := slot_of_read Lexeme.captures_string found
        refine ⟨blanks, chars, next.rest, [], tokens.map Token.value, slot, rfl, ?_⟩
        intro new value shaped
        exact .next ⟨blanks, new, rfl, all, shaped, slot.ends⟩ strings
      · obtain ⟨front, chars, after, earlier, later, slot, values, others⟩ := ih strings behind
        obtain ⟨lead, slot', before⟩ := slot.back Lexeme.captures_string found
        refine ⟨lead ++ front, chars, after, first.value :: earlier, later, slot', by simp [values], ?_⟩
        intro new value shaped
        rw [List.append_assoc]
        exact .next (before new) (others new value shaped)

end

end Cursor

/-! ## Rules -/

namespace Rule

theorem readEquality_clean_iff {keyword : String} {cursor : Cursor} :
    (readEquality keyword cursor).1 = [] ↔
      ∀ operator, cursor.readOperator.1 = some operator → operator.value = .equal := by
  unfold readEquality
  rcases cursor.readOperator with ⟨operator?, next⟩
  cases operator? with
  | none => simp
  | some operator => simp

theorem judge_errorFree {accepts : String → Bool} (keyword : String) (expected : Expectation) (accepted : List String)
    {tokens : List (Token String)} (passes : ∀ value ∈ tokens.map Token.value, accepts value = true) :
    ErrorFree (judge accepts keyword expected accepted tokens).1 := by
  induction tokens generalizing accepted with
  | nil => exact List.forall_mem_nil _
  | cons token rest ih =>
    obtain ⟨first, others⟩ := List.forall_mem_cons.mp passes
    simp only [judge, first, if_true]
    refine List.forall_mem_append.mpr ⟨?_, ih _ others⟩
    split
    · exact List.forall_mem_singleton.mpr rfl
    · exact List.forall_mem_nil _

theorem finish_of_ignorable (findings : List Finding) {cursor : Cursor} (ignorable : Ignorable cursor.rest) :
    finish findings cursor = findings := by
  rw [finish, Cursor.isIgnorable_iff.mpr ignorable]
  simp

theorem readValues_errorFree {accepts : String → Bool} (keyword : String) (expected : Expectation) {cursor : Cursor}
    {held : List String} (some_values : held ≠ []) (passes : ∀ value ∈ held, accepts value = true)
    (whole : Whole (Then Equality fun text rest => Strings text held rest) cursor.rest) :
    ErrorFree (readValues accepts keyword expected cursor).1.findings := by
  have apart : Apart fun text rest => Strings text held rest := fun strings => strings.no_operator some_values
  obtain ⟨equal, rest, strings, ignorable⟩ := (whole_equality_iff apart keyword cursor).mp whole
  obtain ⟨rfl, rfl⟩ := (Cursor.strings_readStrings _).unique strings
  have accepted := judge_accepted accepts keyword expected [] (readEquality keyword cursor).2.readStrings.1
  rw [List.nil_append, List.filter_eq_self.mpr passes] at accepted
  have taken : (judge accepts keyword expected [] (readEquality keyword cursor).2.readStrings.1).2.isEmpty = false := by
    rw [accepted]
    simpa using some_values
  simp only [readValues, equal, taken, finish_of_ignorable _ ignorable, Bool.false_eq_true, if_false, List.nil_append,
    List.append_nil]
  exact judge_errorFree keyword expected [] passes

def valueRanges (kind : Kind) (cursor : Cursor) : List Range :=
  let start := cursor.readOperator.2
  match kind with
  | .itemClass => (valueTokens cursor).map Token.range
  | .baseType => (valueTokens cursor).map Token.range
  | .rarity => start.readString.1.toList.map Token.range
  | .boolean => start.readBoolean.1.toList.map Token.range
  | .sound =>
    match start.readWord.1 with
    | some word => [word.range]
    | none => start.readNumber.1.toList.map Token.range
  | _ => []

end Rule

def Grammar.ValueText (settings : Settings) (reference : Reference) (kind : Kind) (new : List Char) : Prop :=
  match kind with
  | .itemClass => ∃ name, Shape.string new name ∧ ClassName settings reference name
  | .baseType => ∃ name, Shape.string new name ∧ BaseName settings reference [] name
  | .rarity => ∃ name, Shape.string new name ∧ .text name ∈ reference.rarities
  | .boolean => ∃ value, Shape.boolean new value
  | .sound => ∃ name, Shape.word new name ∧ ∃ label, (.text name, label) ∈ reference.sounds.labels.entries
  | _ => False

namespace Cursor

theorem Slot.behind_operator {cursor : Cursor} {range : Range} {front chars after : List Char}
    (slot : cursor.readOperator.2.Slot range front chars after) :
    ∃ lead, cursor.Slot range (lead ++ front) chars after ∧
      (∀ new, AnyOperator (lead ++ (front ++ (new ++ after))) (front ++ (new ++ after))) ∧
      ((∀ operator, cursor.readOperator.1 = some operator → operator.value = .equal) →
        ∀ new, Equality (lead ++ (front ++ (new ++ after))) (front ++ (new ++ after))) := by
  rcases result : cursor.readOperator with ⟨operator?, next⟩
  rw [result] at slot
  cases operator? with
  | none =>
    obtain ⟨rfl, -⟩ := read_eq_none Lexeme.captures_operator result
    exact ⟨[], slot, fun new => .inl rfl, fun _ new => .inl rfl⟩
  | some operator =>
    obtain ⟨lead, slot', follows⟩ := slot.back Lexeme.captures_operator result
    refine ⟨lead, slot', fun new => .inr ⟨operator.value, follows new⟩, fun equal new => .inr ?_⟩
    rw [← equal operator rfl]
    exact follows new

end Cursor

theorem Cursor.slot_of_value {α : Type} {reader : Reader α} {shape : Shape α} (captures : Captures reader shape)
    {cursor next : Cursor} {token : Token α} (found : cursor.readOperator.2.read reader = (some token, next)) :
    ∃ front chars, cursor.Slot token.range front chars next.rest ∧
      ∀ {β : Type} {other : Shape β} {new : List Char} {value : β}, other new value →
        Then AnyOperator (fun text rest => Follows other text value rest) (front ++ (new ++ next.rest)) next.rest ∧
        ((∀ operator, cursor.readOperator.1 = some operator → operator.value = .equal) →
          Then Equality (fun text rest => Follows other text value rest) (front ++ (new ++ next.rest)) next.rest) := by
  obtain ⟨blanks, chars, slot, all, -⟩ := slot_of_read captures found
  obtain ⟨lead, slot', any, equality⟩ := slot.behind_operator
  refine ⟨lead ++ blanks, chars, slot', ?_⟩
  intro β other new value shaped
  have follows : Follows other (blanks ++ (new ++ next.rest)) value next.rest :=
    ⟨blanks, new, rfl, all, shaped, slot.ends⟩
  rw [List.append_assoc]
  exact ⟨⟨_, any new, follows⟩, fun equal => ⟨_, equality equal new, follows⟩⟩

namespace Rule

section
variable {cursor : Cursor} {range : Range}

theorem replace_choice {test : String → Prop} (whole : Whole (Then AnyOperator (Choice test)) cursor.rest)
    (member : range ∈ cursor.readOperator.2.readString.1.toList.map Token.range) :
    ∃ front chars after, cursor.Slot range front chars after ∧
      ∀ new name, Shape.string new name → test name →
        Whole (Then AnyOperator (Choice test)) (front ++ (new ++ after)) := by
  obtain ⟨rest, ⟨name, follows, -⟩, ignorable⟩ := (whole_anyOperator_iff (apart_choice test) cursor).mp whole
  obtain ⟨token, next, found, -, rfl⟩ := Cursor.read_of_follows Lexeme.captures_string follows
  rw [Cursor.readString, found] at member
  obtain rfl : range = token.range := by simpa using member
  obtain ⟨front, chars, slot, others⟩ := Cursor.slot_of_value Lexeme.captures_string found
  refine ⟨front, chars, next.rest, slot, ?_⟩
  intro new other shaped good
  obtain ⟨middle, any, follows⟩ := (others shaped).1
  exact ⟨next.rest, ⟨middle, any, other, follows, good⟩, ignorable⟩

theorem replace_boolean
    (whole : Whole (Then Equality fun text rest => ∃ value, Follows Shape.boolean text value rest) cursor.rest)
    (member : range ∈ cursor.readOperator.2.readBoolean.1.toList.map Token.range) :
    ∃ front chars after, cursor.Slot range front chars after ∧
      ∀ new value, Shape.boolean new value →
        Whole (Then Equality fun text rest => ∃ value, Follows Shape.boolean text value rest)
          (front ++ (new ++ after)) := by
  obtain ⟨equal, rest, ⟨value, follows⟩, ignorable⟩ := (whole_equality_iff apart_boolean "" cursor).mp whole
  rw [readEquality_cursor] at follows
  obtain ⟨token, next, found, -, rfl⟩ := Cursor.read_of_follows Lexeme.captures_boolean follows
  rw [Cursor.readBoolean, found] at member
  obtain rfl : range = token.range := by simpa using member
  obtain ⟨front, chars, slot, others⟩ := Cursor.slot_of_value Lexeme.captures_boolean found
  refine ⟨front, chars, next.rest, slot, ?_⟩
  intro new other shaped
  obtain ⟨middle, equality, follows⟩ := (others shaped).2 (readEquality_clean_iff.mp equal)
  exact ⟨next.rest, ⟨middle, equality, other, follows⟩, ignorable⟩

/-- The identifier of a sound is a word or a number, and either may give way to a name. -/
theorem replace_sound {settings : Settings} {sounds : Sounds} {volume : List Char → List Char → Prop}
    (whole : Whole (Then Equality (Then (SoundIdentifier settings sounds) volume)) cursor.rest)
    (member : range ∈ valueRanges .sound cursor) :
    ∃ front chars after, cursor.Slot range front chars after ∧
      ∀ new name, Shape.word new name → (∃ label, (.text name, label) ∈ sounds.labels.entries) →
        Whole (Then Equality (Then (SoundIdentifier settings sounds) volume)) (front ++ (new ++ after)) := by
  obtain ⟨equal, rest, ⟨after, identifier, loud⟩, ignorable⟩ :=
    (whole_equality_iff (apart_sound settings sounds volume) "" cursor).mp whole
  rw [readEquality_cursor] at identifier
  have spot : ∃ front chars, cursor.Slot range front chars after ∧
      ∀ {new name}, Shape.word new name →
        Then Equality (fun text rest => Follows Shape.word text name rest) (front ++ (new ++ after)) after := by
    obtain ⟨name, follows, -⟩ | ⟨number, follows, -⟩ := identifier
    · obtain ⟨token, next, found, -, rfl⟩ := Cursor.read_of_follows Lexeme.captures_word follows
      simp only [valueRanges, Cursor.readWord, found] at member
      obtain rfl := List.mem_singleton.mp member
      obtain ⟨front, chars, slot, others⟩ := Cursor.slot_of_value Lexeme.captures_word found
      exact ⟨front, chars, slot, fun shaped => (others shaped).2 (readEquality_clean_iff.mp equal)⟩
    · obtain ⟨token, next, found, -, rfl⟩ := Cursor.read_of_follows Lexeme.captures_number follows
      have nothing : (cursor.readOperator.2.read Lexeme.word).1 = none := by
        rcases word : cursor.readOperator.2.read Lexeme.word with ⟨word?, last⟩
        cases word? with
        | none => rfl
        | some token => exact absurd (Cursor.read_eq_some Lexeme.captures_word word).1 (no_word_of_number follows _ _)
      simp only [valueRanges, Cursor.readWord, nothing, Cursor.readNumber, found] at member
      obtain rfl : range = token.range := by simpa using member
      obtain ⟨front, chars, slot, others⟩ := Cursor.slot_of_value Lexeme.captures_number found
      exact ⟨front, chars, slot, fun shaped => (others shaped).2 (readEquality_clean_iff.mp equal)⟩
  obtain ⟨front, chars, slot, others⟩ := spot
  refine ⟨front, chars, after, slot, ?_⟩
  intro new name shaped known
  obtain ⟨middle, equality, follows⟩ := others shaped
  exact ⟨rest, ⟨middle, equality, after, .inl ⟨name, follows, .inl known⟩, loud⟩, ignorable⟩

theorem replace_listed {test : String → Prop} (whole : Whole (Then Equality (Values test)) cursor.rest)
    (member : range ∈ (valueTokens cursor).map Token.range) :
    ∃ front chars after, cursor.Slot range front chars after ∧
      ∀ new name, Shape.string new name → test name →
        ∃ held, held ≠ [] ∧ (∀ value ∈ held, test value) ∧
          Whole (Then Equality fun text rest => Strings text held rest) (front ++ (new ++ after)) := by
  obtain ⟨equal, rest, ⟨values, strings, -, -, good⟩, ignorable⟩ :=
    (whole_equality_iff (apart_values test) "" cursor).mp whole
  rw [readEquality_cursor] at strings
  obtain ⟨rfl, rfl⟩ := (Cursor.strings_readStrings _).unique strings
  obtain ⟨token, inside, rfl⟩ := List.mem_map.mp member
  obtain ⟨front, chars, after, earlier, later, slot, values, others⟩ :=
    Cursor.slot_of_string (Cursor.yields_readStrings _) strings inside
  obtain ⟨lead, slot', -, equality⟩ := slot.behind_operator
  refine ⟨lead ++ front, chars, after, slot', ?_⟩
  intro new name shaped passes
  rw [values] at good
  refine ⟨earlier ++ name :: later, by simp, ?_, _, ⟨_, ?_, others new name shaped⟩, ignorable⟩
  · obtain ⟨first, second⟩ := List.forall_mem_append.mp good
    exact List.forall_mem_append.mpr ⟨first, List.forall_mem_cons.mpr ⟨passes, (List.forall_mem_cons.mp second).2⟩⟩
  · rw [List.append_assoc]
    exact equality (readEquality_clean_iff.mp equal) new

end

theorem replace_value (settings : Settings) {reference : Reference} (covered : reference.HasLimits)
    (words : reference.HasWords) (searchable : reference.lengthIndex.Searchable) {kind : Kind} {keyword : String}
    (known : Kind.ofKeyword? keyword = some kind) {cursor : Cursor} (whole : Whole (Body settings reference {} keyword kind) cursor.rest) {range : Range}
    (member : range ∈ valueRanges kind cursor) :
    ∃ front chars after, cursor.Slot range front chars after ∧
      ∀ new, ValueText settings reference kind new →
        ∀ head (other : Cursor), other.rest = front ++ (new ++ after) →
          ∃ outcome next, Rule.read settings reference kind keyword head other {} = .ok (outcome, next) ∧
            ErrorFree outcome.findings := by
  -- A rule of one value stays clean altogether.
  have clean {new : List Char} {other : Cursor} (head : Range)
      (body : Whole (Body settings reference {} keyword kind) new) (same : other.rest = new) :
      ∃ outcome next, Rule.read settings reference kind keyword head other {} = .ok (outcome, next) ∧
        ErrorFree outcome.findings := by
    obtain ⟨outcome, next, done, nothing⟩ :=
      (read_clean_iff settings covered words known head other {}).mpr (same ▸ body)
    refine ⟨outcome, next, done, ?_⟩
    rw [nothing]
    exact List.forall_mem_nil _
  cases kind with
  | rarity =>
    obtain ⟨front, chars, after, slot, others⟩ := replace_choice whole member
    refine ⟨front, chars, after, slot, ?_⟩
    rintro new ⟨name, shaped, rarity⟩ head other same
    exact clean head (others new name shaped rarity) same
  | boolean =>
    obtain ⟨front, chars, after, slot, others⟩ := replace_boolean whole member
    refine ⟨front, chars, after, slot, ?_⟩
    rintro new ⟨value, shaped⟩ head other same
    exact clean head (others new value shaped) same
  | sound =>
    obtain ⟨front, chars, after, slot, others⟩ := replace_sound whole member
    refine ⟨front, chars, after, slot, ?_⟩
    rintro new ⟨name, shaped, label⟩ head other same
    exact clean head (others new name shaped label) same
  | itemClass =>
    obtain ⟨front, chars, after, slot, others⟩ := replace_listed whole member
    refine ⟨front, chars, after, slot, ?_⟩
    rintro new ⟨name, shaped, named⟩ head other same
    obtain ⟨held, some_values, all, body⟩ := others new name shaped named
    refine ⟨_, _, rfl, readValues_errorFree keyword .itemClass some_values ?_ (same ▸ body)⟩
    exact fun value inside => (acceptsClass_iff value).mpr (all value inside)
  | baseType =>
    obtain ⟨front, chars, after, slot, others⟩ := replace_listed whole member
    refine ⟨front, chars, after, slot, ?_⟩
    rintro new ⟨name, shaped, named⟩ head other same
    obtain ⟨held, some_values, all, body⟩ := others new name shaped named
    obtain ⟨outcome, done⟩ := read_baseType_ok settings searchable keyword head other {}
    refine ⟨outcome, {}, done, ?_⟩
    rw [(read_baseType_eq_ok_iff.mp done).2.1]
    exact readValues_errorFree keyword _ some_values
      (fun value inside => ((acceptsBase_iff value).mpr (all value inside)).2) (same ▸ body)
  | _ => cases member

end Rule

theorem Range.unbroken_replace (range : Range) {line new : List Char} (oneLine : ∀ c ∈ line, Text.isBreak c = false)
    (oneLine' : ∀ c ∈ new, Text.isBreak c = false) : ∀ c ∈ range.replace line new, Text.isBreak c = false := by
  rw [replace, List.forall_mem_append, List.forall_mem_append]
  exact ⟨fun c member => oneLine c (List.mem_of_mem_take member), oneLine',
    fun c member => oneLine c (List.mem_of_mem_drop member)⟩

namespace Line

theorem head?_replace {row : Int} {text : List Char} {word : Token String} {cursor : Cursor}
    (found : head? ⟨row, text, 0⟩ = some (word, cursor)) {range : Range} {front chars after : List Char}
    (slot : cursor.Slot range front chars after) (new : List Char) :
    ∃ again behind, head? ⟨row, range.replace text new, 0⟩ = some (again, behind) ∧ again.value = word.value ∧
      behind.rest = front ++ (new ++ after) ∧
      (new ≠ [] → range.start = ⟨behind.row, (behind.column + front.length : Nat)⟩) := by
  obtain ⟨lead, slot', follows⟩ := slot.back Lexeme.captures_word (readWord_of_head? found)
  rw [slot'.replace, List.append_assoc]
  have start : Follows Shape.word (⟨row, lead ++ (front ++ (new ++ after)), 0⟩ : Cursor).rest word.value
      (front ++ (new ++ after)) := follows new
  obtain ⟨again, behind, head, same, rest⟩ := head?_of_follows start
  refine ⟨again, behind, head, same, rest, ?_⟩
  intro some_new
  have left : behind.rest ≠ [] := by simp [rest, some_new]
  have stays := (Cursor.read_eq_some Lexeme.captures_word (readWord_of_head? head)).2.1
  have row_eq : behind.row = row := by rw [stays]
  have line_eq : behind.line = lead ++ (front ++ (new ++ after)) := by rw [stays]
  have split : (⟨row, lead ++ (front ++ (new ++ after)), 0⟩ : Cursor).rest = lead ++ behind.rest := by
    rw [rest]
    rfl
  rw [slot'.place, row_eq, Cursor.column_of_rest line_eq split left]
  simp only [Range.onLine, List.length_append, Nat.add_assoc]

section
variable (settings : Settings) {reference : Reference} (covered : reference.HasLimits) (words : reference.HasWords)
  {row : Int} {text : List Char} {line : Line} {next : Block}
include covered words

theorem body_of_clean (done : Line.read settings reference row text {} = .ok (line, next)) (clean : line.findings = [])
    {word : Token String} {cursor : Cursor} (found : head? ⟨row, text, 0⟩ = some (word, cursor)) {kind : Kind}
    (known : Kind.ofKeyword? word.value = some kind) :
    Whole (Body settings reference {} word.value kind) cursor.rest := by
  obtain ⟨-, outcome, rule, rfl⟩ := (read_eq_ok_iff_rule found known).mp done
  exact (Rule.read_clean_iff settings covered words known word.range cursor {}).mp ⟨outcome, next, rule, clean⟩

/-- A line without findings has no errors after one of its values has given way to another. -/
theorem replace_value (searchable : reference.lengthIndex.Searchable)
    (done : Line.read settings reference row text {} = .ok (line, next)) (clean : line.findings = [])
    {word : Token String} {cursor : Cursor} (found : head? ⟨row, text, 0⟩ = some (word, cursor)) {kind : Kind}
    (known : Kind.ofKeyword? word.value = some kind) {range : Range} (member : range ∈ Rule.valueRanges kind cursor)
    {new : List Char} (fits : ValueText settings reference kind new)
    (oneLine : ∀ c ∈ new, Text.isBreak c = false) :
    ∃ line next, Line.read settings reference row (range.replace text new) {} = .ok (line, next) ∧
      ErrorFree line.findings := by
  have body := body_of_clean settings covered words done clean found known
  obtain ⟨front, chars, after, slot, others⟩ := Rule.replace_value settings covered words searchable known body member
  obtain ⟨again, behind, head, same, rest, -⟩ := head?_replace found slot new
  obtain ⟨outcome, last, read, free⟩ := others new fits again.range behind rest
  rw [← same] at known read
  exact ⟨_, last, read_eq_ok_iff_dispatch.mpr ⟨range.unbroken_replace (read_eq_ok_iff.mp done).1 oneLine,
    .inr ⟨again, behind, kind, outcome, head, known, read, rfl⟩⟩, free⟩

end

end Line

end LootFilter
