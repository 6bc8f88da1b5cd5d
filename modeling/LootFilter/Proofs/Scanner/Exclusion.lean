import LootFilter.Proofs.Scanner.Reading

/-! Shapes that exclude each other: a text does not go on both with an operator and with a value, nor both with a number
and with a word or ignored text. The first character tells. -/

set_option autoImplicit false

namespace LootFilter

def Operandlike {α : Type} (shape : Shape α) : Prop :=
  ∀ {c : Char} {tail : List Char} {value : α}, shape (c :: tail) value → c ≠ '=' ∧ c ≠ '<' ∧ c ≠ '>'

theorem operator_head {c : Char} {tail : List Char} {operator : Operator}
    (shaped : Shape.operator (c :: tail) operator) : c = '=' ∨ c = '<' ∨ c = '>' := by
  cases operator with
  | equal => exact .inl (List.cons.inj shaped).1
  | less => exact .inr (.inl (List.cons.inj shaped).1)
  | greater => exact .inr (.inr (List.cons.inj shaped).1)
  | atMost => exact .inr (.inl (List.cons.inj shaped).1)
  | atLeast => exact .inr (.inr (List.cons.inj shaped).1)

theorem no_operator {α : Type} {reader : Reader α} {shape : Shape α} (captures : Captures reader shape)
    (operandlike : Operandlike shape) {text rest : List Char} {value : α} (follows : Follows shape text value rest)
    (operator : Operator) (rest' : List Char) : ¬Follows Shape.operator text operator rest' := by
  intro other
  -- Both lexemes start at the first character that is not blank.
  obtain ⟨c, tail, shaped, first⟩ := captures.head follows
  obtain ⟨c', tail', shaped', first'⟩ := Lexeme.captures_operator.head other
  obtain rfl : c = c' := Option.some.inj (first.symm.trans first')
  have apart := operandlike shaped
  rcases operator_head shaped' with rfl | rfl | rfl
  · exact apart.1 rfl
  · exact apart.2.1 rfl
  · exact apart.2.2 rfl

theorem operandlike_of {member : Char → Bool} {c : Char} (inside : member c = true)
    (outside : member '=' = false ∧ member '<' = false ∧ member '>' = false) : c ≠ '=' ∧ c ≠ '<' ∧ c ≠ '>' := by
  refine ⟨?_, ?_, ?_⟩ <;> rintro rfl
  · exact Bool.false_ne_true (outside.1.symm.trans inside)
  · exact Bool.false_ne_true (outside.2.1.symm.trans inside)
  · exact Bool.false_ne_true (outside.2.2.symm.trans inside)

theorem operandlike_word : Operandlike Shape.word := fun shaped =>
  operandlike_of (shaped.2.1 _ List.mem_cons_self) (by decide)

theorem number_head {c : Char} {tail : List Char} {value : Int} (shaped : Shape.number (c :: tail) value) :
    c = '+' ∨ c = '-' ∨ c.isDigit = true := by
  obtain ⟨sign, digits, same, sign_eq, some_digits, all, -⟩ := shaped
  rcases sign_eq with rfl | rfl | rfl
  · obtain ⟨rfl⟩ : digits = c :: tail := same.symm
    exact .inr (.inr (all c List.mem_cons_self))
  · exact .inl (List.cons.inj same).1
  · exact .inr (.inl (List.cons.inj same).1)

theorem operandlike_number : Operandlike Shape.number := by
  intro c tail value shaped
  rcases number_head shaped with rfl | rfl | digit
  · decide
  · decide
  · exact operandlike_of digit (by decide)

theorem operandlike_boolean : Operandlike Shape.boolean := by
  rintro c tail value ⟨inner, named, bare | quoted⟩
  · subst bare
    cases value with
    | true =>
      obtain ⟨c', tail', first, -, same⟩ := List.forall₂_cons_left_iff.mp named
      cases same
      exact operandlike_of first (by decide)
    | false =>
      obtain ⟨c', tail', first, -, same⟩ := List.forall₂_cons_left_iff.mp named
      cases same
      exact operandlike_of first (by decide)
  · cases quoted
    decide

theorem operandlike_string : Operandlike Shape.string := by
  rintro c tail value (⟨inner, quoted, -, -⟩ | ⟨-, all, -⟩)
  · cases quoted
    decide
  · exact operandlike_of (all c List.mem_cons_self) (by decide)

theorem Strings.no_operator {text rest : List Char} {values : List String} (strings : Strings text values rest)
    (some : values ≠ []) (operator : Operator) (rest' : List Char) : ¬Follows Shape.operator text operator rest' := by
  cases strings with
  | done => exact absurd rfl some
  | next follows => exact LootFilter.no_operator Lexeme.captures_string operandlike_string follows operator rest'

theorem not_ignorable_of_number {text rest : List Char} {value : Int} (follows : Follows Shape.number text value rest) :
    ¬Ignorable text := by
  intro ignorable
  obtain ⟨c, tail, shaped, first⟩ := Lexeme.captures_number.head follows
  obtain rfl := ignorable.head first
  exact absurd (number_head shaped) (by decide)

theorem no_word_of_number {text rest : List Char} {value : Int} (follows : Follows Shape.number text value rest)
    (name : String) (rest' : List Char) : ¬Follows Shape.word text name rest' := by
  intro other
  obtain ⟨c, tail, shaped, first⟩ := Lexeme.captures_number.head follows
  obtain ⟨c', tail', shaped', first'⟩ := Lexeme.captures_word.head other
  obtain rfl : c = c' := Option.some.inj (first.symm.trans first')
  have letter : Lexeme.isLetter c = true := shaped'.2.1 c List.mem_cons_self
  rcases number_head shaped with rfl | rfl | digit
  · exact absurd letter (by decide)
  · exact absurd letter (by decide)
  · have bounds := Lexeme.digit_bounds digit
    have codes := Lexeme.letter_codes letter
    omega

end LootFilter
