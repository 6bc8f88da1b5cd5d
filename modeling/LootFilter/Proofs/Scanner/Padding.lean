import LootFilter.Proofs.Scanner.Extension
import LootFilter.Proofs.Scanner.Extent
import LootFilter.Proofs.Scanner.Motion

/-! Blanks around a line. What is read of the line is read with them too, further to the right by the blanks before it.
The blanks behind it neither end a lexeme that has no end nor start one. -/

set_option autoImplicit false

namespace LootFilter

open Text (isBlank endsHere trimStart)

/-! ## Blanks behind a text -/

namespace Text

theorem visible_before_blanks {text first rest blanks : List Char}
    (last : ∃ c, first.getLast? = some c ∧ isBlank c = false) (all : ∀ c ∈ blanks, isBlank c = true)
    (same : text ++ blanks = first ++ rest) : ∃ left, text = first ++ left ∧ rest = left ++ blanks := by
  obtain ⟨more, rfl, split⟩ | split := List.append_eq_append_iff.mp same
  · cases more with
    | nil => exact ⟨[], by simp, split.symm⟩
    | cons d others =>
      -- The last of the characters would be one of the blanks.
      obtain ⟨c, ending, plain⟩ := last
      rw [List.getLast?_append_cons] at ending
      have blank := all c (split ▸ List.mem_append_left rest (List.mem_of_getLast? ending))
      rw [plain] at blank
      cases blank
  · exact split

theorem trimStart_append_blanks (text : List Char) {blanks : List Char} (all : ∀ c ∈ blanks, isBlank c = true) :
    (trimStart (text ++ blanks)).head? = (trimStart text).head? := by
  have nothing : blanks.dropWhile isBlank = [] := List.dropWhile_eq_nil_iff.mpr all
  rw [trimStart, trimStart, List.dropWhile_append, nothing]
  cases text.dropWhile isBlank with
  | nil => rfl
  | cons c others => rfl

end Text

theorem Follows.of_blanks_behind {α : Type} {shape : Shape α} (trimmed : shape.Trimmed)
    {text rest blanks : List Char} {value : α} (all : ∀ c ∈ blanks, isBlank c = true)
    (follows : Follows shape (text ++ blanks) value rest) : ∃ left, Follows shape text value left := by
  obtain ⟨before, chars, split, blank, shaped, ends⟩ := follows
  obtain ⟨c, last, plain⟩ := (trimmed shaped).last
  have ending : (before ++ chars).getLast? = some c := by rw [List.getLast?_append, last]; rfl
  rw [← List.append_assoc] at split
  obtain ⟨left, rfl, rfl⟩ := Text.visible_before_blanks ⟨c, ending, plain⟩ all split
  exact ⟨left, before, chars, List.append_assoc _ _ _, blank, shaped, Text.endsHere_of_append ends⟩

/-! ## To the right -/

def Move.right (count : Int) : Move := fun position => ⟨position.line, position.character + count⟩

theorem Range.move_right (row : Int) (start length count : Nat) :
    (onLine row start (start + length : Nat)).move (Move.right count) =
      onLine row (start + count : Nat) (start + count + length : Nat) := by
  rw [Nat.add_right_comm start count length]
  rfl

namespace Cursor

/-- The second cursor stands at the same character of the line with blanks around it, or among the blanks before it. -/
structure Padded (before after : List Char) (cursor other : Cursor) : Prop where
  row : other.row = cursor.row
  line : other.line = before ++ (cursor.line ++ after)
  visible : ∃ c ∈ cursor.line, isBlank c = false
  rest : ∃ blanks, other.rest = blanks ++ (cursor.rest ++ after) ∧ (∀ c ∈ blanks, isBlank c = true) ∧
    other.column + blanks.length = cursor.column + before.length

section
variable {before after : List Char} (blankBefore : ∀ c ∈ before, isBlank c = true)
  (blankAfter : ∀ c ∈ after, isBlank c = true)

include blankBefore in
theorem padded_start (row : Int) {text : List Char} (visible : ∃ c ∈ text, isBlank c = false) :
    Padded before after ⟨row, text, 0⟩ ⟨row, before ++ (text ++ after), 0⟩ where
  row := rfl
  line := rfl
  visible := visible
  rest := ⟨before, rfl, blankBefore, rfl⟩

include blankAfter

theorem Padded.read {α : Type} {reader : Reader α} {shape : Shape α} (captures : Captures reader shape)
    (trimmed : shape.Trimmed) {cursor other : Cursor} (padded : Padded before after cursor other) :
    Moved (Move.right before.length) (Padded before after) (cursor.read reader) (other.read reader) := by
  obtain ⟨blanks, left, all, column⟩ := padded.rest
  rcases result : cursor.read reader with ⟨token?, next⟩
  cases token? with
  | some token =>
    obtain ⟨middle, chars, split, blank, shaped, ends, range, same⟩ := read_extent captures result
    have longer : other.rest = (blanks ++ middle) ++ (chars ++ (next.rest ++ after)) := by
      rw [left, split]
      simp
    have ends' := Text.endsHere_append ends (Text.endsHere_of_all blankAfter)
    have found := read_of_extent captures longer (List.forall_mem_append.mpr ⟨all, blank⟩) shaped ends'
    have start : other.column + (blanks ++ middle).length = cursor.column + middle.length + before.length := by
      rw [List.length_append]
      omega
    have behind : (other.rest.drop (blanks ++ middle).length).drop chars.length = next.rest ++ after := by
      rw [longer, List.drop_left, List.drop_left]
    have stop : next.column = cursor.column + middle.length + chars.length := by rw [same]
    have line : next.line = cursor.line := by rw [same]
    have row : next.row = cursor.row := by rw [same]
    rw [found]
    constructor
    · simp only [start, padded.row, Option.map_some, Token.move, range, Range.move_right]
    · refine ⟨padded.row.trans row.symm, line ▸ padded.line, line ▸ padded.visible, [], ?_, nofun, ?_⟩
      · rw [List.nil_append, ← behind]
        simp only [Cursor.rest, List.drop_drop, Nat.add_assoc]
      · simp only [start, stop, List.length_nil]
        omega
  | none =>
    obtain ⟨rfl, nothing⟩ := read_eq_none captures result
    rcases result' : other.read reader with ⟨token?, next'⟩
    cases token? with
    | none =>
      obtain ⟨rfl, -⟩ := read_eq_none captures result'
      exact ⟨rfl, padded⟩
    | some token =>
      have follows := (read_eq_some captures result').1
      rw [left, captures.follows_blanks_iff all] at follows
      obtain ⟨rest, before⟩ := follows.of_blanks_behind trimmed blankAfter
      exact absurd before (nothing _ _)

theorem Padded.isIgnorable {cursor other : Cursor} (padded : Padded before after cursor other) :
    other.isIgnorable = cursor.isIgnorable := by
  obtain ⟨blanks, left, all, -⟩ := padded.rest
  have trimmed : trimStart other.rest = trimStart (cursor.rest ++ after) := by
    rw [left]
    exact List.dropWhile_append_of_pos all
  have spent : other.isSpent = cursor.isSpent := by
    have before : blanks.all isBlank = true := List.all_eq_true.mpr all
    have behind : after.all isBlank = true := List.all_eq_true.mpr blankAfter
    simp only [isSpent, Text.allBlank, left, List.all_append, before, behind, Bool.true_and, Bool.and_true]
  have comment : other.isAtComment = cursor.isAtComment := by
    rw [isAtComment, trimmed, Text.trimStart_append_blanks cursor.rest blankAfter, isAtComment]
  rw [Cursor.isIgnorable, spent, comment, Cursor.isIgnorable]

theorem Padded.restRange {cursor other : Cursor} (padded : Padded before after cursor other)
    (visible : cursor.isIgnorable = false) : other.restRange = cursor.restRange.move (Move.right before.length) := by
  obtain ⟨blanks, left, all, column⟩ := padded.rest
  obtain ⟨middle, c, rest, split, blank, plain⟩ := Text.split_blanks (visible_of_not_ignorable visible)
  have longer : other.rest = (blanks ++ middle) ++ c :: (rest ++ after) := by
    rw [left, split]
    simp
  have start : other.column + (blanks ++ middle).length = cursor.column + middle.length + before.length := by
    rw [List.length_append]
    omega
  have trimmed : Text.trimEnd (c :: (rest ++ after)) = Text.trimEnd (c :: rest) :=
    Text.trimEnd_append_blanks (c :: rest) blankAfter
  rw [restRange_eq longer (List.forall_mem_append.mpr ⟨all, blank⟩) plain, restRange_eq split blank plain, start, trimmed,
    padded.row, Range.move_right]

include blankBefore

theorem Padded.lineRange {cursor other : Cursor} (padded : Padded before after cursor other) :
    other.lineRange = cursor.lineRange.move (Move.right before.length) := by
  obtain ⟨blanks, c, rest, split, all, plain⟩ := Text.split_blanks padded.visible
  have longer : other.line = (before ++ blanks) ++ c :: (rest ++ after) := by
    rw [padded.line, split]
    simp
  have trimmed : Text.trimEnd (c :: (rest ++ after)) = Text.trimEnd (c :: rest) :=
    Text.trimEnd_append_blanks (c :: rest) blankAfter
  have start : (before ++ blanks).length = blanks.length + before.length := by
    rw [List.length_append, Nat.add_comm]
  rw [Cursor.lineRange, Cursor.lineRange, longer, split,
    textSpan_eq (List.forall_mem_append.mpr ⟨blankBefore, all⟩) plain, textSpan_eq all plain, trimmed, start, padded.row,
    Range.move_right]

/-- Reading moves to the right with the line. -/
theorem motion_right : Motion (Move.right before.length) (Padded before after) where
  number := Padded.read blankAfter Lexeme.captures_number Shape.trimmed_number
  boolean := Padded.read blankAfter Lexeme.captures_boolean Shape.trimmed_boolean
  operator := Padded.read blankAfter Lexeme.captures_operator Shape.trimmed_operator
  word := Padded.read blankAfter Lexeme.captures_word Shape.trimmed_word
  string := Padded.read blankAfter Lexeme.captures_string Shape.trimmed_string
  isIgnorable := Padded.isIgnorable blankAfter
  lineRange := Padded.lineRange blankBefore blankAfter
  restRange := Padded.restRange blankAfter

end

end Cursor

end LootFilter
