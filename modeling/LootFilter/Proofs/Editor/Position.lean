import LootFilter.Proofs.Editor.Agreement
import LootFilter.Proofs.Line.Head

/-! Where the editor looks on a line with a keyword of the language: it goes on from where the scanner does, and the
values of the line stand behind a blank at least. -/

set_option autoImplicit false

namespace LootFilter

open Text (endsHere)

namespace Stretch

theorem column_le_skipBlanks (stretch : Stretch) : stretch.column ≤ stretch.skipBlanks.column := by
  simp only [skipBlanks, drop]
  omega

theorem nextValue?_bounds {row : Int} {stretch rest : Stretch} {range : Range}
    (found : stretch.nextValue? row = some (range, rest)) :
    stretch.column ≤ range.start.character ∧ stretch.column ≤ rest.column := by
  have start := column_le_skipBlanks stretch
  simp only [nextValue?] at found
  split at found
  · cases found
  · cases found
    refine ⟨start, ?_⟩
    simp only [drop]
    omega

/-- The one stretch is what is left of the other behind some of its values. -/
inductive Passes (row : Int) : Stretch → Stretch → Prop where
  | here {stretch : Stretch} : Passes row stretch stretch
  | next {stretch middle last : Stretch} {range : Range} :
      stretch.nextValue? row = some (range, middle) → Passes row middle last → Passes row stretch last

theorem Passes.column_le {row : Int} {stretch last : Stretch} (passes : Passes row stretch last) :
    stretch.column ≤ last.column := by
  induction passes with
  | here => exact Int.le_refl _
  | next found _ ih => exact Int.le_trans (nextValue?_bounds found).2 ih

theorem valueAt?_eq_some {position : Position} {values : Stretch} {range : Range}
    (found : values.valueAt? position = some range) :
    ∃ before rest, Passes position.line values before ∧ before.nextValue? position.line = some (range, rest) ∧
      touches range position = true := by
  unfold valueAt? at found
  generalize values.chars.length = count at found
  induction count generalizing values with
  | zero => cases found
  | succ count ih =>
    unfold valueAtUpTo at found
    split at found
    · cases found
    · next first rest next =>
      split at found
      · next touched =>
        cases found
        exact ⟨values, rest, .here, next, touched⟩
      · split at found
        · cases found
        · obtain ⟨before, last, passes, value, touched⟩ := ih found
          exact ⟨before, last, .next next passes, value, touched⟩

theorem column_le_valueAt {position : Position} {values : Stretch} {range : Range}
    (found : values.valueAt? position = some range) : values.column ≤ range.start.character := by
  obtain ⟨before, rest, passes, next, -⟩ := valueAt?_eq_some found
  exact Int.le_trans passes.column_le (nextValue?_bounds next).1

end Stretch

theorem Cursor.column_lt_value {cursor : Cursor} (ends : endsHere cursor.rest = true) :
    ∀ token ∈ Rule.valueTokens cursor, (cursor.column : Int) < token.range.start.character := by
  intro token member
  have yields := yields_readStrings cursor.readOperator.2
  unfold Rule.valueTokens at member
  rcases result : cursor.readOperator with ⟨operator?, next⟩
  rw [result] at yields member
  cases operator? with
  | none =>
    obtain ⟨rfl, -⟩ := read_eq_none Lexeme.captures_operator result
    exact yields.behind ends token member
  | some operator =>
    obtain ⟨blanks, chars, -, -, -, ends', -, same⟩ := read_extent Lexeme.captures_operator result
    have column : next.column = cursor.column + blanks.length + chars.length := by rw [same]
    have later : (next.column : Int) < token.range.start.character := yields.behind ends' token member
    omega

theorem Kind.plain_of_keyword {name : String} {kind : Kind} (known : ofKeyword? name = some kind) :
    'ö' ∉ name.toList := by
  have plain : ∀ entry ∈ keywords, 'ö' ∉ entry.1.toList := by decide
  exact plain _ (mem_keywords known)

theorem Head.ofLine?_of_head? {row : Int} {text : List Char} {word : Token String} {cursor : Cursor} {kind : Kind}
    (found : Line.head? ⟨row, text, 0⟩ = some (word, cursor)) (known : Kind.ofKeyword? word.value = some kind) :
    ∃ head, ofLine? row text = some head ∧ head.word = word.value ∧ head.rest = cursor.stretch ∧
      head.range.start.character ≤ head.range.stop.character ∧ head.range.stop.character = cursor.column ∧
      cursor.row = row ∧ cursor.line = text ∧ endsHere cursor.rest = true := by
  have read := Line.readWord_of_head? found
  obtain ⟨head, keyword, name, range⟩ := ofLine?_of_readWord read (Kind.plain_of_keyword known)
  obtain ⟨next, again, row_eq, line_eq, column, rest⟩ := readWord_of_ofLine? keyword
  cases read.symm.trans again
  obtain ⟨blanks, chars, -, -, -, ends, covered, -⟩ := Cursor.read_extent Lexeme.captures_word read
  refine ⟨head, keyword, rfl, rest.symm, ?_, column.symm, row_eq, line_eq, ends⟩
  have bounds : head.range = _ := covered
  rw [bounds]
  simp only [Range.onLine]
  omega

end LootFilter
