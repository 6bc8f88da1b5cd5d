import LootFilter.Proofs.Scanner.Extension
import LootFilter.Proofs.Scanner.Extent

/-! A comment behind a line, after a blank. What was read of the line is read again, and the numbers, words and
operators that were not there are not there now: none of them starts like a comment or runs over a blank. -/

set_option autoImplicit false

namespace LootFilter

open Text (isBlank endsHere)

def Remark (tail : List Char) : Prop :=
  ∃ blanks comment, tail = blanks ++ '#' :: comment ∧ blanks ≠ [] ∧ ∀ c ∈ blanks, isBlank c = true

theorem Remark.endsHere {tail : List Char} (remark : Remark tail) : Text.endsHere tail = true := by
  obtain ⟨blanks, comment, rfl, some_blanks, all⟩ := remark
  exact Text.endsHere_of_blanks some_blanks all _

theorem Ignorable.remark {rest tail : List Char} (ignorable : Ignorable rest) (remark : Remark tail) :
    Ignorable (rest ++ tail) := by
  obtain blank | ⟨before, comment, rfl, all⟩ := ignorable
  · obtain ⟨blanks, comment, rfl, -, all⟩ := remark
    exact .inr ⟨rest ++ blanks, comment, by simp, List.forall_mem_append.mpr ⟨blank, all⟩⟩
  · exact .inr ⟨before, comment ++ tail, by simp, all⟩

/-! ## Lexemes without blanks -/

def Shape.Compact {α : Type} (shape : Shape α) : Prop :=
  ∀ {chars : List Char} {value : α}, shape chars value →
    (∀ c ∈ chars, isBlank c = false) ∧ chars.head? ≠ some '#'

namespace Shape

theorem compact_word : Compact word := by
  rintro chars value ⟨-, all, -⟩
  refine ⟨fun c member => Lexeme.letter_not_blank (all c member), fun first => ?_⟩
  have letter := all '#' (List.mem_of_mem_head? first)
  exact absurd letter (by decide)

theorem compact_operator : Compact operator := by
  rintro chars value rfl
  have solid : (value.spelling.toList.all fun c => !isBlank c) = true := by cases value <;> rfl
  refine ⟨fun c member => by simpa using List.all_eq_true.mp solid c member, ?_⟩
  cases value <;> exact nofun

theorem compact_number : Compact number := by
  intro chars value shaped
  refine ⟨?_, fun first => ?_⟩
  · obtain ⟨sign, digits, rfl, sign_eq, -, all, -⟩ := shaped
    refine List.forall_mem_append.mpr ⟨?_, fun c member => Lexeme.digit_not_blank (all c member)⟩
    rcases sign_eq with rfl | rfl | rfl
    · nofun
    · exact List.forall_mem_singleton.mpr rfl
    · exact List.forall_mem_singleton.mpr rfl
  · obtain ⟨others, rfl⟩ := List.head?_eq_some_iff.mp first
    exact absurd (number_head shaped) (by decide)

end Shape

section
variable {α : Type} {reader : Reader α} {shape : Shape α} {tail : List Char}

theorem Follows.of_remark (captures : Captures reader shape) (compact : shape.Compact) (remark : Remark tail)
    {text rest : List Char} {value : α} (follows : Follows shape (text ++ tail) value rest) :
    ∃ left, Follows shape text value left := by
  obtain ⟨blanks, chars, same, all, shaped, ends⟩ := follows
  obtain ⟨plain, other⟩ := compact shaped
  obtain ⟨more, rfl, split⟩ | ⟨more, rfl, split⟩ := List.append_eq_append_iff.mp same
  · -- The lexeme would be the comment itself.
    obtain ⟨before, comment, rfl, -, blank⟩ := remark
    have behind : ∀ c ∈ more, isBlank c = true := (List.forall_mem_append.mp all).2
    have heads := congrArg Text.trimStart split
    rw [Text.trimStart_append blank rfl, Text.trimStart_append behind (captures.startsPlain shaped rest)] at heads
    obtain ⟨c, others, rfl, -⟩ := captures.visible shaped
    rw [← (List.cons.inj heads).1] at other
    exact absurd rfl other
  · obtain ⟨left, rfl, rfl⟩ := plain_before_blank plain remark.endsHere split.symm
    exact ⟨left, blanks, chars, rfl, all, shaped, Text.endsHere_of_append ends⟩

end

/-! ## Cursors -/

namespace Cursor

/-- The second cursor stands at the same place of a line that has more text at its end. -/
structure Prolonged (tail : List Char) (cursor other : Cursor) : Prop where
  row : other.row = cursor.row
  column : other.column = cursor.column
  rest : other.rest = cursor.rest ++ tail

def Alike {α : Type} (tail : List Char) (first second : Option (Token α) × Cursor) : Prop :=
  second.1 = first.1 ∧ Prolonged tail first.2 second.2

section
variable {α : Type} {reader : Reader α} {shape : Shape α} {tail : List Char} {cursor other next : Cursor}

theorem Alike.cases {first second : Option (Token α) × Cursor} (alike : Alike tail first second) :
    ∃ token? next next', first = (token?, next) ∧ second = (token?, next') ∧ Prolonged tail next next' :=
  ⟨first.1, first.2, second.2, rfl, Prod.ext alike.1 rfl, alike.2⟩

theorem Prolonged.isIgnorable (prolonged : Prolonged tail cursor other) (remark : Remark tail)
    (ignored : cursor.isIgnorable = true) : other.isIgnorable = true := by
  rw [isIgnorable_iff, prolonged.rest]
  exact (isIgnorable_iff.mp ignored).remark remark

theorem Prolonged.read_some (captures : Captures reader shape) (prolonged : Prolonged tail cursor other)
    (blank : endsHere tail = true) {token : Token α} (found : cursor.read reader = (some token, next)) :
    ∃ next', other.read reader = (some token, next') ∧ Prolonged tail next next' := by
  obtain ⟨blanks, chars, split, all, shaped, ends, range, same⟩ := read_extent captures found
  have longer : other.rest = blanks ++ (chars ++ (next.rest ++ tail)) := by
    rw [prolonged.rest, split]
    simp
  refine ⟨{ other with column := other.column + blanks.length + chars.length }, ?_, ?_⟩
  · rw [read_of_extent captures longer all shaped (Text.endsHere_append ends blank), prolonged.row, prolonged.column,
      ← range]
  · refine ⟨by rw [same]; exact prolonged.row, by simp only [same, prolonged.column], ?_⟩
    have behind : (other.rest.drop blanks.length).drop chars.length = next.rest ++ tail := by
      rw [longer, List.drop_left, List.drop_left]
    rw [← behind]
    simp only [Cursor.rest, List.drop_drop, Nat.add_assoc]

theorem Prolonged.read (captures : Captures reader shape) (compact : shape.Compact) (remark : Remark tail)
    (prolonged : Prolonged tail cursor other) : Alike tail (cursor.read reader) (other.read reader) := by
  rcases result : cursor.read reader with ⟨token?, next⟩
  cases token? with
  | some token =>
    obtain ⟨next', result', nexts⟩ := prolonged.read_some captures remark.endsHere result
    rw [result']
    exact ⟨rfl, nexts⟩
  | none =>
    obtain ⟨rfl, nothing⟩ := read_eq_none captures result
    rcases result' : other.read reader with ⟨token?, next'⟩
    cases token? with
    | none =>
      obtain ⟨rfl, -⟩ := read_eq_none captures result'
      exact ⟨rfl, prolonged⟩
    | some token =>
      have follows := (read_eq_some captures result').1
      rw [prolonged.rest] at follows
      obtain ⟨left, before⟩ := follows.of_remark captures compact remark
      exact absurd before (nothing _ _)

theorem Prolonged.word (remark : Remark tail) (prolonged : Prolonged tail cursor other) :
    Alike tail cursor.readWord other.readWord :=
  prolonged.read Lexeme.captures_word Shape.compact_word remark

theorem Prolonged.number (remark : Remark tail) (prolonged : Prolonged tail cursor other) :
    Alike tail cursor.readNumber other.readNumber :=
  prolonged.read Lexeme.captures_number Shape.compact_number remark

theorem Prolonged.operator (remark : Remark tail) (prolonged : Prolonged tail cursor other) :
    Alike tail cursor.readOperator other.readOperator :=
  prolonged.read Lexeme.captures_operator Shape.compact_operator remark

end

end Cursor

end LootFilter
