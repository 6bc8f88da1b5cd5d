import LootFilter.Proofs.Scanner.Reading
import LootFilter.Proofs.Text.Visible

/-! Where things stand in a line: the ranges that a cursor answers cover text of its line, without blanks around it. -/

set_option autoImplicit false

namespace LootFilter

open Text (isBlank endsHere)

/-- The range is text of a line in its row: it is not empty, and neither its first nor its last character is blank. -/
structure Range.Covers (row : Int) (text : List Char) (range : Range) : Prop where
  starts_on : range.start.line = row
  stops_on : range.stop.line = row
  starts_inside : 0 ≤ range.start.character
  not_empty : range.start.character < range.stop.character
  stops_inside : range.stop.character ≤ text.length
  first : ∃ c, text[range.start.character.toNat]? = some c ∧ isBlank c = false
  last : ∃ c, text[(range.stop.character - 1).toNat]? = some c ∧ isBlank c = false

def Range.textOf (range : Range) (line : List Char) : List Char :=
  (line.drop range.start.character.toNat).take (range.stop.character.toNat - range.start.character.toNat)

namespace Range

theorem covers_of_visible (row : Int) (before : List Char) {text : List Char} (visible : Text.Visible text)
    (after : List Char) :
    (onLine row before.length (before.length + text.length : Nat)).Covers row (before ++ (text ++ after)) := by
  have some_text : 0 < text.length := List.length_pos_iff.mpr visible.ne_nil
  obtain ⟨first, head, first_plain⟩ := visible.first
  obtain ⟨last, end_, last_plain⟩ := visible.last
  refine ⟨rfl, rfl, ?_, ?_, ?_, ⟨first, ?_, first_plain⟩, last, ?_, last_plain⟩
  · exact Int.natCast_nonneg _
  · simp only [onLine]
    omega
  · simp only [onLine, List.length_append]
    omega
  · simp only [onLine, Int.toNat_natCast]
    rw [List.getElem?_append_right (Nat.le_refl _), Nat.sub_self, List.getElem?_append_left some_text,
      ← List.head?_eq_getElem?, head]
  · have place : (((before.length + text.length : Nat) : Int) - 1).toNat = before.length + (text.length - 1) := by omega
    simp only [onLine, place]
    rw [List.getElem?_append_right (by omega), Nat.add_sub_cancel_left, List.getElem?_append_left (by omega),
      ← List.getLast?_eq_getElem?, end_]

theorem Covers.length_textOf {row : Int} {line : List Char} {range : Range} (covers : range.Covers row line) :
    ((range.textOf line).length : Int) = range.stop.character - range.start.character := by
  have starts := covers.starts_inside
  have some_text := covers.not_empty
  have stops := covers.stops_inside
  rw [textOf, List.length_take, List.length_drop]
  omega

theorem Covers.split {row : Int} {line : List Char} {range : Range} (covers : range.Covers row line) :
    ∃ before after, line = before ++ (range.textOf line ++ after) ∧ (before.length : Int) = range.start.character := by
  let length := range.stop.character.toNat - range.start.character.toNat
  refine ⟨line.take range.start.character.toNat, (line.drop range.start.character.toNat).drop length, ?_, ?_⟩
  · rw [textOf, List.take_append_drop, List.take_append_drop]
  · have starts := covers.starts_inside
    have some_text := covers.not_empty
    have stops := covers.stops_inside
    rw [List.length_take]
    omega

theorem Covers.join {row : Int} {line : List Char} {first second : Range} (covers : first.Covers row line)
    (covers' : second.Covers row line) (ordered : first.start.character ≤ second.start.character) :
    Covers row line ⟨first.start, second.stop⟩ where
  starts_on := covers.starts_on
  stops_on := covers'.stops_on
  starts_inside := covers.starts_inside
  not_empty := Int.lt_of_le_of_lt ordered covers'.not_empty
  stops_inside := covers'.stops_inside
  first := covers.first
  last := covers'.last

end Range

/-! ## Lexemes -/

def Shape.Trimmed {α : Type} (shape : Shape α) : Prop :=
  ∀ {chars : List Char} {value : α}, shape chars value → Text.Visible chars

namespace Shape

theorem trimmed_number : Trimmed number := by
  rintro chars value ⟨sign, digits, rfl, sign_eq, some_digits, all, -⟩
  refine Text.visible_of_forall (by simp [some_digits]) ?_
  intro c member
  obtain signed | digit := List.mem_append.mp member
  · rcases sign_eq with rfl | rfl | rfl
    · cases signed
    · rw [List.mem_singleton.mp signed]
      rfl
    · rw [List.mem_singleton.mp signed]
      rfl
  · exact Lexeme.digit_not_blank (all c digit)

theorem trimmed_word : Trimmed word := by
  rintro chars value ⟨some_letters, all, -⟩
  exact Text.visible_of_forall some_letters fun c member => Lexeme.letter_not_blank (all c member)

theorem trimmed_operator : Trimmed operator := by
  rintro chars value rfl
  cases value with
  | equal => exact ⟨⟨'=', rfl, rfl⟩, ⟨'=', rfl, rfl⟩⟩
  | less => exact ⟨⟨'<', rfl, rfl⟩, ⟨'<', rfl, rfl⟩⟩
  | greater => exact ⟨⟨'>', rfl, rfl⟩, ⟨'>', rfl, rfl⟩⟩
  | atMost => exact ⟨⟨'<', rfl, rfl⟩, ⟨'=', rfl, rfl⟩⟩
  | atLeast => exact ⟨⟨'>', rfl, rfl⟩, ⟨'=', rfl, rfl⟩⟩

theorem cased_not_blank {letters : String} (small : ∀ letter ∈ letters.toList, 33 ≤ letter.toNat ∧ letter.toNat ≤ 126)
    {chars : List Char} (named : Cased letters chars) : ∀ c ∈ chars, isBlank c = false := by
  unfold Cased at named
  generalize letters.toList = spelling at small named
  induction named with
  | nil => nofun
  | cons same _ ih =>
    intro c member
    obtain rfl | later := List.mem_cons.mp member
    · exact Lexeme.sameLetter_not_blank same (small _ List.mem_cons_self)
    · exact ih (fun letter inside => small letter (List.mem_cons_of_mem _ inside)) c later

theorem boolean_not_blank {chars : List Char} {value : Bool} (shaped : boolean chars value) :
    ∀ c ∈ chars, isBlank c = false := by
  obtain ⟨inner, named, form⟩ := shaped
  have plain : ∀ c ∈ inner, isBlank c = false := by
    cases value with
    | true =>
      have small : ∀ letter ∈ "true".toList, 33 ≤ letter.toNat ∧ letter.toNat ≤ 126 := by simp
      exact cased_not_blank small named
    | false =>
      have small : ∀ letter ∈ "false".toList, 33 ≤ letter.toNat ∧ letter.toNat ≤ 126 := by simp
      exact cased_not_blank small named
  obtain rfl | rfl := form
  · exact plain
  · have quote : ∀ c ∈ ['"'], isBlank c = false := List.forall_mem_singleton.mpr rfl
    exact List.forall_mem_append.mpr ⟨List.forall_mem_cons.mpr ⟨rfl, plain⟩, quote⟩

theorem trimmed_boolean : Trimmed boolean := by
  intro chars value shaped
  obtain ⟨c, rest, rfl, -⟩ := Lexeme.captures_boolean.visible shaped
  exact Text.visible_of_forall (List.cons_ne_nil c rest) (boolean_not_blank shaped)

theorem trimmed_string : Trimmed string := by
  rintro chars value (⟨inner, rfl, -, -⟩ | ⟨some_chars, all, -⟩)
  · exact Text.visible_quoted inner
  · exact Text.visible_of_forall some_chars fun c member => Lexeme.bare_not_blank (all c member)

end Shape

/-! ## Cursors -/

namespace Cursor

/-- A token covers a lexeme that follows after blanks, and the cursor stops right behind it. -/
theorem read_extent {α : Type} {reader : Reader α} {shape : Shape α} (captures : Captures reader shape)
    {cursor next : Cursor} {token : Token α} (found : cursor.read reader = (some token, next)) :
    ∃ blanks chars, cursor.rest = blanks ++ (chars ++ next.rest) ∧ (∀ c ∈ blanks, isBlank c = true) ∧
      shape chars token.value ∧ endsHere next.rest = true ∧
      token.range = Range.onLine cursor.row (cursor.column + blanks.length : Nat)
        (cursor.column + blanks.length + chars.length : Nat) ∧
      next = { cursor with column := cursor.column + blanks.length + chars.length } := by
  simp only [read] at found
  split at found
  · cases found
  · next lexeme taken =>
    split at found
    · next ends =>
      cases found
      obtain ⟨shaped, head⟩ := captures.sound taken
      have rest := rest_advance cursor lexeme.chars.length
      refine ⟨cursor.rest.takeWhile isBlank, lexeme.chars, ?_, ?_, shaped, ?_, rfl, rfl⟩
      · rw [rest, List.prefix_iff_eq_append.mp head, Text.blanks_append_trimStart]
      · exact fun c member => List.all_eq_true.mp List.all_takeWhile c member
      · rw [rest]
        exact ends
    · cases found

theorem read_of_extent {α : Type} {reader : Reader α} {shape : Shape α} (captures : Captures reader shape)
    {cursor : Cursor} {blanks chars rest : List Char} {value : α} (split : cursor.rest = blanks ++ (chars ++ rest))
    (all : ∀ c ∈ blanks, isBlank c = true) (shaped : shape chars value) (ends : endsHere rest = true) :
    cursor.read reader =
      (some ⟨value, Range.onLine cursor.row (cursor.column + blanks.length : Nat)
        (cursor.column + blanks.length + chars.length : Nat)⟩,
        { cursor with column := cursor.column + blanks.length + chars.length }) := by
  have plain := captures.startsPlain shaped rest
  have text : Text.trimStart cursor.rest = chars ++ rest := by rw [split, Text.trimStart_append all plain]
  have start : Text.blanksBefore cursor.rest = blanks.length := by rw [split, Text.blanksBefore_append all plain]
  simp only [read, text, start, captures.complete shaped ends, List.drop_left, ends, if_true]

theorem column_le {cursor : Cursor} {blanks rest : List Char} {c : Char} (split : cursor.rest = blanks ++ c :: rest) :
    cursor.column ≤ cursor.line.length := by
  have left := congrArg List.length split
  simp only [Cursor.rest, List.length_drop, List.length_append, List.length_cons] at left
  omega

theorem covers_of_rest {cursor : Cursor} {blanks text after : List Char}
    (split : cursor.rest = blanks ++ (text ++ after)) (visible : Text.Visible text) :
    (Range.onLine cursor.row (cursor.column + blanks.length : Nat)
      (cursor.column + blanks.length + text.length : Nat)).Covers cursor.row cursor.line := by
  have inside : cursor.column ≤ cursor.line.length := by
    obtain ⟨c, others, rfl⟩ := List.exists_cons_of_ne_nil visible.ne_nil
    exact column_le split
  have whole : cursor.line = (cursor.line.take cursor.column ++ blanks) ++ (text ++ after) := by
    rw [List.append_assoc, ← split, rest, List.take_append_drop]
  have place : (cursor.line.take cursor.column ++ blanks).length = cursor.column + blanks.length := by
    rw [List.length_append, List.length_take, Nat.min_eq_left inside]
  have covers := Range.covers_of_visible cursor.row (cursor.line.take cursor.column ++ blanks) visible after
  rwa [← whole, place] at covers

structure On (row : Int) (text : List Char) (cursor : Cursor) : Prop where
  row : cursor.row = row
  line : cursor.line = text
  visible : ∃ c ∈ text, isBlank c = false

section
variable {row : Int} {line : List Char} {cursor next : Cursor}

theorem On.read {α : Type} {reader : Reader α} {shape : Shape α} (captures : Captures reader shape)
    (trimmed : shape.Trimmed) (on : cursor.On row line) {token? : Option (Token α)}
    (found : cursor.read reader = (token?, next)) :
    next.On row line ∧ ∀ token, token? = some token → token.range.Covers row line := by
  cases token? with
  | none =>
    obtain ⟨rfl, -⟩ := read_eq_none captures found
    exact ⟨on, nofun⟩
  | some token =>
    obtain ⟨blanks, chars, split, -, shaped, -, range, same⟩ := read_extent captures found
    refine ⟨?_, ?_⟩
    · rw [same]
      exact ⟨on.row, on.line, on.visible⟩
    · intro other same
      cases same
      rw [range, ← on.row, ← on.line]
      exact covers_of_rest split (trimmed shaped)

theorem On.number (on : cursor.On row line) {token? : Option (Token Int)} (found : cursor.readNumber = (token?, next)) :
    next.On row line ∧ ∀ token, token? = some token → token.range.Covers row line :=
  on.read Lexeme.captures_number Shape.trimmed_number found

theorem On.boolean (on : cursor.On row line) {token? : Option (Token Bool)}
    (found : cursor.readBoolean = (token?, next)) :
    next.On row line ∧ ∀ token, token? = some token → token.range.Covers row line :=
  on.read Lexeme.captures_boolean Shape.trimmed_boolean found

theorem On.operator (on : cursor.On row line) {token? : Option (Token Operator)}
    (found : cursor.readOperator = (token?, next)) :
    next.On row line ∧ ∀ token, token? = some token → token.range.Covers row line :=
  on.read Lexeme.captures_operator Shape.trimmed_operator found

theorem On.word (on : cursor.On row line) {token? : Option (Token String)} (found : cursor.readWord = (token?, next)) :
    next.On row line ∧ ∀ token, token? = some token → token.range.Covers row line :=
  on.read Lexeme.captures_word Shape.trimmed_word found

theorem On.string (on : cursor.On row line) {token? : Option (Token String)}
    (found : cursor.readString = (token?, next)) :
    next.On row line ∧ ∀ token, token? = some token → token.range.Covers row line :=
  on.read Lexeme.captures_string Shape.trimmed_string found

/-! ## The text of a line -/

theorem textSpan_eq {blanks rest : List Char} {c : Char} (all : ∀ d ∈ blanks, isBlank d = true)
    (plain : isBlank c = false) :
    textSpan (blanks ++ c :: rest) = (blanks.length, blanks.length + (Text.trimEnd (c :: rest)).length) := by
  have starts : Text.startsPlain (c :: rest) = true := by simp [Text.startsPlain, plain]
  have trimmed : Text.trim (blanks ++ c :: rest) = Text.trimEnd (c :: rest) := by
    rw [Text.trim, Text.trimStart_append all starts]
  unfold textSpan
  rw [trimmed, Text.blanksBefore_append all starts]
  split
  · next nothing => exact absurd nothing (Text.visible_trimEnd plain rest).ne_nil
  · rfl

theorem textSpan_stop (before : List Char) {c : Char} (plain : isBlank c = false) (rest : List Char) :
    (textSpan (before ++ c :: rest)).2 = before.length + (Text.trimEnd (c :: rest)).length := by
  obtain ⟨blanks, d, others, split, all, plain'⟩ :=
    Text.split_blanks ⟨c, List.mem_append_right before List.mem_cons_self, plain⟩
  -- Trimming the end leaves what stands before, whichever of the two tails it is trimmed from.
  have whole := Text.trimEnd_append before (Text.visible_trimEnd plain rest).ne_nil
  have same := Text.trimEnd_append blanks (Text.visible_trimEnd plain' others).ne_nil
  rw [split, same] at whole
  have lengths := congrArg List.length whole
  rw [List.length_append, List.length_append] at lengths
  rw [split, textSpan_eq all plain', ← lengths]

theorem On.lineRange (on : cursor.On row line) : cursor.lineRange.Covers row line := by
  obtain ⟨blanks, c, rest, split, all, plain⟩ := Text.split_blanks on.visible
  obtain ⟨after, whole⟩ := Text.trimEnd_prefix (c :: rest)
  have covers := Range.covers_of_visible row blanks (Text.visible_trimEnd plain rest) after
  rw [Cursor.lineRange, on.row, on.line, split, textSpan_eq all plain]
  rwa [whole] at covers

theorem restRange_eq {blanks rest : List Char} {c : Char} (split : cursor.rest = blanks ++ c :: rest)
    (all : ∀ d ∈ blanks, isBlank d = true) (plain : isBlank c = false) :
    cursor.restRange = Range.onLine cursor.row (cursor.column + blanks.length : Nat)
      (cursor.column + blanks.length + (Text.trimEnd (c :: rest)).length : Nat) := by
  have starts : Text.startsPlain (c :: rest) = true := by simp [Text.startsPlain, plain]
  have stop := textSpan_stop (cursor.line.take cursor.column ++ blanks) plain rest
  rw [List.append_assoc, ← split, Cursor.rest, List.take_append_drop, List.length_append, List.length_take,
    Nat.min_eq_left (column_le split)] at stop
  rw [Cursor.restRange, stop, split, Text.blanksBefore_append all starts]
  congr 1
  omega

theorem visible_of_not_ignorable (visible : cursor.isIgnorable = false) : ∃ c ∈ cursor.rest, isBlank c = false := by
  by_contra blank
  have ignorable : cursor.isIgnorable = true := isIgnorable_iff.mpr (.inl (by simpa using blank))
  rw [visible] at ignorable
  cases ignorable

theorem On.restRange (on : cursor.On row line) (visible : cursor.isIgnorable = false) :
    cursor.restRange.Covers row line := by
  obtain ⟨blanks, c, rest, split, all, plain⟩ := Text.split_blanks (visible_of_not_ignorable visible)
  obtain ⟨after, whole⟩ := Text.trimEnd_prefix (c :: rest)
  rw [restRange_eq split all plain, ← on.row, ← on.line]
  rw [← whole] at split
  exact covers_of_rest split (Text.visible_trimEnd plain rest)

end

end Cursor

end LootFilter
