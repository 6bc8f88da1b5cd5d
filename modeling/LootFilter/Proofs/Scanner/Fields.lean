import LootFilter.Proofs.Scanner.Annotation

/-! What each reading takes of a line, said of the field that comes next: the characters behind the blanks, up to the
next blank. A reading takes the whole field or nothing, but for a span in double quotes and for a comment, which may go
on over blanks. -/

set_option autoImplicit false

namespace LootFilter

open Text (isBlank endsHere trimStart blanksBefore)

/-! ## Fields -/

theorem Text.eq_takeWhile_iff {text chars : List Char} (plain : ∀ c ∈ chars, isBlank c = false) :
    chars = text.takeWhile (fun c => !isBlank c) ↔ ∃ rest, text = chars ++ rest ∧ endsHere rest = true := by
  constructor
  · rintro rfl
    refine ⟨text.dropWhile fun c => !isBlank c, List.takeWhile_append_dropWhile.symm, ?_⟩
    have head := List.head?_dropWhile_not (fun c => !isBlank c) text
    generalize text.dropWhile (fun c => !isBlank c) = rest at head ⊢
    cases rest with
    | nil => rfl
    | cons c others =>
      have blank : isBlank c = true := by simpa using head
      exact blank
  · rintro ⟨rest, rfl, ends⟩
    have kept : ∀ c ∈ chars, (!isBlank c) = true := by simpa using plain
    rw [List.takeWhile_append_of_pos kept]
    cases rest with
    | nil => simp
    | cons c others => simp [show isBlank c = true from ends]

namespace Cursor

def field (cursor : Cursor) : List Char := (trimStart cursor.rest).takeWhile fun c => !isBlank c

def rangeOf (cursor : Cursor) (chars : List Char) : Range :=
  let start := cursor.column + blanksBefore cursor.rest
  Range.onLine cursor.row start (start + chars.length : Nat)

def behind (cursor : Cursor) (chars : List Char) : Cursor :=
  { cursor with column := cursor.column + blanksBefore cursor.rest + chars.length }

/-- The answer has a token if and only if some characters fit: their value and their range, with the cursor behind
them. Without a token the cursor stays where it is. -/
structure Takes {α : Type} (cursor : Cursor) (answer : Option (Token α) × Cursor) (fits : List Char → α → Prop) :
    Prop where
  some_iff : ∀ token next, answer = (some token, next) ↔
    ∃ chars, fits chars token.value ∧ token.range = cursor.rangeOf chars ∧ next = cursor.behind chars
  none_iff : ∀ next, answer = (none, next) ↔ next = cursor ∧ ∀ chars value, ¬fits chars value

section
variable {α : Type} {cursor : Cursor} {answer : Option (Token α) × Cursor} {fits : List Char → α → Prop}

theorem Takes.of_answers
    (hit : ∀ chars value, fits chars value → answer = (some ⟨value, cursor.rangeOf chars⟩, cursor.behind chars))
    (miss : (∀ chars value, ¬fits chars value) → answer = (none, cursor)) : cursor.Takes answer fits where
  some_iff := by
    intro token next
    constructor
    · intro same
      by_cases fit : ∃ chars value, fits chars value
      · obtain ⟨chars, value, fit⟩ := fit
        cases same.symm.trans (hit chars value fit)
        exact ⟨chars, fit, rfl, rfl⟩
      · rw [miss fun chars value found => fit ⟨chars, value, found⟩] at same
        cases same
    · rintro ⟨chars, fit, range, rfl⟩
      rw [hit chars token.value fit, ← range]
  none_iff := by
    intro next
    constructor
    · intro same
      have nothing : ∀ chars value, ¬fits chars value := by
        intro chars value fit
        cases same.symm.trans (hit chars value fit)
      rw [miss nothing] at same
      exact ⟨(Prod.mk.inj same).2.symm, nothing⟩
    · rintro ⟨rfl, nothing⟩
      exact miss nothing

theorem Takes.congr {fits' : List Char → α → Prop} (takes : cursor.Takes answer fits)
    (same : ∀ chars value, fits chars value ↔ fits' chars value) : cursor.Takes answer fits' := by
  have equal : fits = fits' := by
    funext chars value
    exact propext (same chars value)
  exact equal ▸ takes

end

section
variable {α : Type} {reader : Reader α} {shape : Shape α}

/-- A reading takes a lexeme of its shape that is followed by a blank or by the end of the line. -/
theorem takes_lexeme (captures : Captures reader shape) (cursor : Cursor) :
    cursor.Takes (cursor.read reader) fun chars value =>
      shape chars value ∧ ∃ rest, trimStart cursor.rest = chars ++ rest ∧ endsHere rest = true := by
  apply Takes.of_answers
  · rintro chars value ⟨shaped, rest, split, ends⟩
    simp only [read, split, captures.complete shaped ends, List.drop_left, ends, if_true]
    rfl
  · intro nothing
    rcases result : cursor.read reader with ⟨token?, next⟩
    cases token? with
    | none => rw [(read_eq_none captures result).1]
    | some token =>
      obtain ⟨chars, found, split, ends⟩ := captures.follows_iff.mp (read_eq_some captures result).1
      exact absurd ⟨(captures.sound found).1, next.rest, split, ends⟩ (nothing chars token.value)

theorem takes_field (captures : Captures reader shape)
    (plain : ∀ {chars value}, shape chars value → ∀ c ∈ chars, isBlank c = false) (cursor : Cursor) :
    cursor.Takes (cursor.read reader) fun chars value => chars = cursor.field ∧ shape chars value := by
  apply (takes_lexeme captures cursor).congr
  intro chars value
  constructor
  · rintro ⟨shaped, whole⟩
    exact ⟨(Text.eq_takeWhile_iff (plain shaped)).mpr whole, shaped⟩
  · rintro ⟨same, shaped⟩
    exact ⟨shaped, (Text.eq_takeWhile_iff (plain shaped)).mp same⟩

end

/-! ## Strings -/

/-- A span in double quotes up to the next double quote, which a blank or the end of the line follows. -/
def QuotedSpan (cursor : Cursor) (chars : List Char) (value : String) : Prop :=
  ∃ inner after, trimStart cursor.rest = '"' :: inner ++ '"' :: after ∧ '"' ∉ inner ∧ endsHere after = true ∧
    chars = '"' :: inner ++ ['"'] ∧ value = String.ofList inner

def BareField (cursor : Cursor) (chars : List Char) (value : String) : Prop :=
  chars = cursor.field ∧ chars ≠ [] ∧ (∀ c ∈ chars, c ∉ ['"', '\'', '<', '>', '=']) ∧ value = String.ofList chars

theorem field_not_blank (cursor : Cursor) : ∀ c ∈ cursor.field, isBlank c = false := by
  intro c member
  simpa using List.mem_takeWhile_imp member

theorem isBare_iff {c : Char} : Lexeme.isBare c = true ↔ isBlank c = false ∧ c ∉ ['"', '\'', '<', '>', '='] := by
  simp [Lexeme.isBare, and_assoc]

theorem takes_string (cursor : Cursor) :
    cursor.Takes cursor.readString fun chars value => cursor.QuotedSpan chars value ∨ cursor.BareField chars value := by
  apply (takes_lexeme Lexeme.captures_string cursor).congr
  intro chars value
  constructor
  · rintro ⟨⟨inner, rfl, closed, rfl⟩ | ⟨some_chars, bare, rfl⟩, rest, split, ends⟩
    · exact .inl ⟨inner, rest, by simpa using split, closed, ends, rfl, rfl⟩
    · have whole := (Text.eq_takeWhile_iff fun c member => Lexeme.bare_not_blank (bare c member)).mpr ⟨rest, split, ends⟩
      exact .inr ⟨whole, some_chars, fun c member => (isBare_iff.mp (bare c member)).2, rfl⟩
  · rintro (⟨inner, after, split, closed, ends, rfl, rfl⟩ | ⟨whole, some_chars, plain, rfl⟩)
    · exact ⟨.inl ⟨inner, rfl, closed, rfl⟩, after, by simpa using split, ends⟩
    · have solid : ∀ c ∈ chars, isBlank c = false := fun c member => cursor.field_not_blank c (whole ▸ member)
      refine ⟨.inr ⟨some_chars, fun c member => isBare_iff.mpr ⟨solid c member, plain c member⟩, rfl⟩, ?_⟩
      exact (Text.eq_takeWhile_iff solid).mp whole

/-! ## Comments -/

theorem head?_field (cursor : Cursor) : cursor.field.head? = (trimStart cursor.rest).head? := by
  have plain := Text.startsPlain_trimStart cursor.rest
  rw [field]
  cases left : trimStart cursor.rest with
  | nil => rfl
  | cons c others =>
    rw [left] at plain
    simp [show isBlank c = false by simpa [Text.startsPlain] using plain]

/-- All that is left of the line, without the blanks around it, if it starts with the sign of a comment. -/
def TrimmedComment (cursor : Cursor) (chars : List Char) (value : String) : Prop :=
  cursor.field.head? = some '#' ∧ Text.Visible chars ∧ value = String.ofList chars ∧
    ∃ blanks, trimStart cursor.rest = chars ++ blanks ∧ ∀ c ∈ blanks, isBlank c = true

theorem exists_trimmedComment {cursor : Cursor} (sign : cursor.field.head? = some '#') :
    ∃ chars value, cursor.TrimmedComment chars value := by
  obtain ⟨others, left⟩ := List.head?_eq_some_iff.mp (cursor.head?_field ▸ sign)
  obtain ⟨blanks, split, all⟩ := Text.split_trimEnd ('#' :: others)
  exact ⟨_, _, sign, Text.visible_trimEnd rfl others, rfl, blanks, left.trans split, all⟩

theorem takes_comment (cursor : Cursor) : cursor.Takes cursor.readComment cursor.TrimmedComment := by
  apply Takes.of_answers
  · rintro chars value ⟨sign, visible, rfl, blanks, split, all⟩
    obtain ⟨others, left⟩ := List.head?_eq_some_iff.mp (cursor.head?_field ▸ sign)
    have trimmed : Text.trimEnd ('#' :: others) = chars := by
      rw [← left, split, Text.trimEnd_append_blanks chars all, Text.trimEnd_of_visible visible]
    have ends : endsHere (('#' :: others).drop chars.length) = true := by
      rw [← left, split, List.drop_left]
      exact Text.endsHere_of_all all
    simp only [readComment, read, left, Lexeme.comment, trimmed, ends, if_true]
    rfl
  · intro nothing
    have unsigned : (trimStart cursor.rest).head? ≠ some '#' := by
      intro sign
      obtain ⟨chars, value, fits⟩ := exists_trimmedComment (cursor.head?_field.trans sign)
      exact nothing chars value fits
    have other : Lexeme.comment (trimStart cursor.rest) = none := by
      unfold Lexeme.comment
      split
      · next same => exact absurd (congrArg List.head? same) unsigned
      · rfl
    simp only [readComment, read, other]

theorem isSome_readComment_iff (cursor : Cursor) :
    cursor.readComment.1.isSome = true ↔ cursor.field.head? = some '#' := by
  constructor
  · intro found
    obtain ⟨token, same⟩ := Option.isSome_iff_exists.mp found
    obtain ⟨chars, ⟨sign, -⟩, -⟩ := (cursor.takes_comment.some_iff token _).mp (Prod.ext same rfl)
    exact sign
  · intro sign
    obtain ⟨chars, value, fits⟩ := exists_trimmedComment sign
    rw [(cursor.takes_comment.some_iff ⟨value, cursor.rangeOf chars⟩ _).mpr ⟨chars, fits, rfl, rfl⟩]
    rfl

/-! ## All shapes -/

/-- At any place of a line each shape of lexeme is taken by its grammar: numbers, words, operators and booleans are
whole fields, a string is a span in double quotes or a field, and a comment is what is left of the line. There is one
wherever the field starts with its sign. -/
theorem readings_take_by_grammar (cursor : Cursor) :
    cursor.Takes cursor.readNumber (fun chars value => chars = cursor.field ∧ Shape.number chars value) ∧
    cursor.Takes cursor.readWord (fun chars value => chars = cursor.field ∧ Shape.word chars value) ∧
    cursor.Takes cursor.readOperator (fun chars value => chars = cursor.field ∧ Shape.operator chars value) ∧
    cursor.Takes cursor.readBoolean (fun chars value => chars = cursor.field ∧ Shape.boolean chars value) ∧
    cursor.Takes cursor.readString (fun chars value => cursor.QuotedSpan chars value ∨ cursor.BareField chars value) ∧
    cursor.Takes cursor.readComment cursor.TrimmedComment ∧
    (cursor.readComment.1.isSome = true ↔ cursor.field.head? = some '#') ∧
    (cursor.isAtComment = true ↔ cursor.field.head? = some '#') := by
  refine ⟨?_, ?_, ?_, ?_, cursor.takes_string, cursor.takes_comment, cursor.isSome_readComment_iff, ?_⟩
  · exact takes_field Lexeme.captures_number (fun shaped => (Shape.compact_number shaped).1) cursor
  · exact takes_field Lexeme.captures_word (fun shaped => (Shape.compact_word shaped).1) cursor
  · exact takes_field Lexeme.captures_operator (fun shaped => (Shape.compact_operator shaped).1) cursor
  · exact takes_field Lexeme.captures_boolean Shape.boolean_not_blank cursor
  · rw [isAtComment, head?_field, beq_iff_eq]

end Cursor

end LootFilter
