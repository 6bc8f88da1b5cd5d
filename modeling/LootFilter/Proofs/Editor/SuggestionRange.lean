import LootFilter.Editor.Suggestion
import LootFilter.Proofs.Editor.Position
import LootFilter.Proofs.Line.Replacement

/-! Where suggestions go. Whatever a rule reads as its value is a string too, so on a value of a clean line the
suggestions are for the range of this value. -/

set_option autoImplicit false

namespace LootFilter

open Grammar
open Text (isBlank endsHere)

/-! ## Values are strings -/

namespace Lexeme

theorem bare_of {member : Char → Bool} {c : Char} (inside : member c = true) (plain : isBlank c = false)
    (outside : ['"', '\'', '<', '>', '='].any member = false) : isBare c = true := by
  have apart : ∀ d ∈ ['"', '\'', '<', '>', '='], c ≠ d := by
    rintro d listed rfl
    exact List.any_eq_false.mp outside c listed inside
  simp only [List.forall_mem_cons] at apart
  simp [isBare, plain, apart]

theorem letter_bare {c : Char} (letter : isLetter c = true) : isBare c = true :=
  bare_of letter (letter_not_blank letter) rfl

theorem digit_bare {c : Char} (digit : c.isDigit = true) : isBare c = true :=
  bare_of digit (digit_not_blank digit) rfl

end Lexeme

namespace Shape

theorem string_of_word {chars : List Char} {name : String} (shaped : word chars name) : string chars name :=
  .inr ⟨shaped.1, fun c member => Lexeme.letter_bare (shaped.2.1 c member), shaped.2.2⟩

theorem string_of_number {chars : List Char} {value : Int} (shaped : number chars value) :
    ∃ name, string chars name := by
  obtain ⟨sign, digits, rfl, signed, some_digits, all, -⟩ := shaped
  refine ⟨_, .inr ⟨by simp [some_digits], List.forall_mem_append.mpr ⟨?_, ?_⟩, rfl⟩⟩
  · rcases signed with rfl | rfl | rfl
    · exact List.forall_mem_nil _
    · exact List.forall_mem_singleton.mpr (by decide)
    · exact List.forall_mem_singleton.mpr (by decide)
  · exact fun c member => Lexeme.digit_bare (all c member)

theorem cased_bare {letters : String}
    (small : ∀ letter ∈ letters.toList, 33 ≤ letter.toNat ∧ letter.toNat ≤ 126)
    (plain : ∀ letter ∈ letters.toList, ['"', '\'', '<', '>', '='].any (Lexeme.sameLetter letter) = false)
    {chars : List Char} (named : Cased letters chars) : ∀ c ∈ chars, Lexeme.isBare c = true := by
  unfold Cased at named
  generalize letters.toList = spelling at small plain named
  induction named with
  | nil => exact List.forall_mem_nil _
  | cons same _ ih =>
    obtain ⟨first, others⟩ := List.forall_mem_cons.mp small
    obtain ⟨first', others'⟩ := List.forall_mem_cons.mp plain
    exact List.forall_mem_cons.mpr
      ⟨Lexeme.bare_of same (Lexeme.sameLetter_not_blank same first) first', ih others others'⟩

theorem string_of_boolean {chars : List Char} {value : Bool} (shaped : boolean chars value) :
    ∃ name, string chars name := by
  obtain ⟨inner, named, written⟩ := shaped
  have some_letters : inner ≠ [] := by
    rintro rfl
    cases value with
    | true => cases named
    | false => cases named
  have bare : ∀ c ∈ inner, Lexeme.isBare c = true := by
    cases value with
    | true => exact cased_bare (by simp [booleanName]) (by simp [booleanName, Lexeme.sameLetter]) named
    | false => exact cased_bare (by simp [booleanName]) (by simp [booleanName, Lexeme.sameLetter]) named
  obtain rfl | rfl := written
  · exact ⟨_, .inr ⟨some_letters, bare, rfl⟩⟩
  · exact ⟨_, .inl ⟨inner, rfl, Stretch.bare_no_quote bare, rfl⟩⟩

theorem boolean_of_string {chars : List Char} {name : String} {value : Bool} (shaped : string chars name)
    (named : Cased (booleanName value) name.toList) : boolean chars value := by
  obtain ⟨inner, rfl, -, rfl⟩ | ⟨-, -, rfl⟩ := shaped
  · rw [String.toList_ofList] at named
    exact ⟨inner, named, .inr rfl⟩
  · rw [String.toList_ofList] at named
    exact ⟨chars, named, .inl rfl⟩

end Shape

theorem Stretch.skipOperator_of_sign {stretch start : Stretch} (skipped : stretch.skipBlanks = start) {c : Char}
    {rest : List Char} (first : start.chars = c :: rest) (sign : isOperatorChar c = true) :
    stretch.skipOperator = (start.drop start.operatorLength).skipAfter isOperatorChar := by
  simp only [skipOperator, skipped, first, sign, if_true]

namespace Cursor

theorem readString_of_read {α : Type} {reader : Reader α} {shape : Shape α} (captures : Captures reader shape)
    (strings : ∀ {chars value}, shape chars value → ∃ name, Shape.string chars name) {cursor next : Cursor}
    {token : Token α} (found : cursor.read reader = (some token, next)) :
    ∃ name, cursor.readString = (some ⟨name, token.range⟩, next) := by
  obtain ⟨blanks, chars, split, all, shaped, ends, range, same⟩ := read_extent captures found
  obtain ⟨name, shaped'⟩ := strings shaped
  refine ⟨name, ?_⟩
  rw [readString, read_of_extent Lexeme.captures_string split all shaped' ends, range, ← same]

theorem mem_readStrings {cursor next : Cursor} {token : Token String} (found : cursor.readString = (some token, next)) :
    token ∈ cursor.readStrings.1 := by
  have left := Lexeme.captures_string.length_lt (read_eq_some Lexeme.captures_string found).1
  obtain ⟨count, same⟩ := Nat.exists_eq_add_one_of_ne_zero (show cursor.rest.length ≠ 0 by omega)
  rw [readStrings, same, readStringsUpTo, found]
  exact List.mem_cons_self

theorem operatorLength_spelling (operator : Operator) (column : Nat) {rest : List Char} (ends : endsHere rest = true) :
    Stretch.operatorLength ⟨column, operator.spelling.toList ++ rest⟩ = operator.spelling.toList.length := by
  have inside : ((column : Int) != -1) = true := bne_iff_ne.mpr (by omega)
  cases rest with
  | nil =>
    cases operator with
    | equal => rfl
    | less => rfl
    | greater => rfl
    | atMost => simp [Stretch.operatorLength, Operator.spelling, inside]
    | atLeast => simp [Stretch.operatorLength, Operator.spelling, inside]
  | cons c tail =>
    have apart : c ≠ '=' := by
      rintro rfl
      have blank : isBlank '=' = true := ends
      exact absurd blank (by decide)
    cases operator with
    | equal => simp [Stretch.operatorLength, Operator.spelling, apart]
    | less => simp [Stretch.operatorLength, Operator.spelling, apart]
    | greater => simp [Stretch.operatorLength, Operator.spelling, apart]
    | atMost => simp [Stretch.operatorLength, Operator.spelling, inside]
    | atLeast => simp [Stretch.operatorLength, Operator.spelling, inside]

theorem skipOperator_stretch {cursor next : Cursor} {token : Token String}
    (found : cursor.readOperator.2.readString = (some token, next)) :
    cursor.stretch.skipOperator = some cursor.readOperator.2.stretch.skipBlanks := by
  obtain ⟨blanks, chars, split, all, shaped, -, -, -⟩ := read_extent Lexeme.captures_string found
  have plain := Lexeme.captures_string.startsPlain shaped next.rest
  have start := skipBlanks_stretch split all plain
  obtain ⟨c, tail, rfl⟩ := List.exists_cons_of_ne_nil (Shape.trimmed_string shaped).ne_nil
  have apart : Stretch.isOperatorChar c = false := by
    obtain ⟨equal, less, greater⟩ := operandlike_string shaped
    simp [Stretch.isOperatorChar, equal, less, greater]
  rcases result : cursor.readOperator with ⟨operator?, after⟩
  rw [result] at start
  cases operator? with
  | none =>
    obtain ⟨rfl, -⟩ := read_eq_none Lexeme.captures_operator result
    rw [Stretch.skipOperator, start]
    simp [apart]
  | some operator =>
    obtain ⟨before, sign, split', all', shaped', ends, -, same⟩ := read_extent Lexeme.captures_operator result
    have plain' := Lexeme.captures_operator.startsPlain shaped' after.rest
    obtain rfl : sign = operator.value.spelling.toList := shaped'
    have length := operatorLength_spelling operator.value (cursor.column + before.length) ends
    have behind : Stretch.drop ⟨(cursor.column + before.length : Nat), operator.value.spelling.toList ++ after.rest⟩
        operator.value.spelling.toList.length = after.stretch := by
      rw [stretch, Stretch.drop, List.drop_left, same]
      rfl
    obtain ⟨d, others, first, sign⟩ : ∃ d others, operator.value.spelling.toList ++ after.rest = d :: others ∧
        Stretch.isOperatorChar d = true := by
      cases operator.value <;> exact ⟨_, _, rfl, rfl⟩
    rw [Stretch.skipOperator_of_sign (skipBlanks_stretch split' all' plain') first sign, length, behind,
      Stretch.skipAfter, start]
    simp [apart]

theorem read_of_mem_range {α : Type} {reader : Reader α} {cursor : Cursor} {range : Range}
    (member : range ∈ (cursor.read reader).1.toList.map Token.range) :
    ∃ token next, cursor.read reader = (some token, next) ∧ token.range = range := by
  rcases found : cursor.read reader with ⟨token?, next⟩
  rw [found] at member
  cases token? with
  | none => cases member
  | some token => exact ⟨token, next, rfl, (List.mem_singleton.mp member).symm⟩

end Cursor

/-! ## The range of a value -/

namespace Rule

section
variable {kind : Kind} {cursor : Cursor} {range : Range}

theorem first_string_of_value (member : range ∈ valueRanges kind cursor)
    (single : kind = .rarity ∨ kind = .boolean ∨ kind = .sound) :
    ∃ token next, cursor.readOperator.2.readString = (some token, next) ∧ token.range = range := by
  obtain rfl | rfl | rfl := single
  · exact Cursor.read_of_mem_range member
  · obtain ⟨token, next, found, rfl⟩ := Cursor.read_of_mem_range member
    obtain ⟨name, string⟩ := Cursor.readString_of_read Lexeme.captures_boolean Shape.string_of_boolean found
    exact ⟨_, next, string, rfl⟩
  · rcases word : cursor.readOperator.2.readWord with ⟨word?, next⟩
    simp only [valueRanges, word] at member
    cases word? with
    | some token =>
      obtain rfl := List.mem_singleton.mp member
      obtain ⟨name, string⟩ :=
        Cursor.readString_of_read Lexeme.captures_word (fun shaped => ⟨_, Shape.string_of_word shaped⟩) word
      exact ⟨_, next, string, rfl⟩
    | none =>
      obtain ⟨token, next, found, rfl⟩ := Cursor.read_of_mem_range member
      obtain ⟨name, string⟩ := Cursor.readString_of_read Lexeme.captures_number Shape.string_of_number found
      exact ⟨_, next, string, rfl⟩

theorem string_of_value (member : range ∈ valueRanges kind cursor) :
    ∃ token ∈ valueTokens cursor, token.range = range := by
  have first (single : kind = .rarity ∨ kind = .boolean ∨ kind = .sound) :
      ∃ token ∈ valueTokens cursor, token.range = range := by
    obtain ⟨token, next, found, same⟩ := first_string_of_value member single
    exact ⟨token, Cursor.mem_readStrings found, same⟩
  cases kind with
  | itemClass => exact List.mem_map.mp member
  | baseType => exact List.mem_map.mp member
  | rarity => exact first (.inl rfl)
  | boolean => exact first (.inr (.inl rfl))
  | sound => exact first (.inr (.inr rfl))
  | _ => cases member

/-- Of the rules whose values can be suggested, only one of a rarity takes an operator other than equality. -/
theorem equal_of_clean {settings : Settings} {reference : Reference} {keyword : String}
    (whole : Whole (Body settings reference {} keyword kind) cursor.rest) (member : range ∈ valueRanges kind cursor)
    (other : kind ≠ .rarity) : ∀ operator, cursor.readOperator.1 = some operator → operator.value = .equal := by
  have equal {part : List Char → List Char → Prop} (apart : Apart part)
      (body : Whole (Then Equality part) cursor.rest) :
      ∀ operator, cursor.readOperator.1 = some operator → operator.value = .equal :=
    readEquality_clean_iff.mp ((whole_equality_iff apart keyword cursor).mp body).1
  cases kind with
  | itemClass => exact equal (apart_values _) whole
  | baseType => exact equal (apart_values _) whole
  | boolean => exact equal apart_boolean whole
  | sound => exact equal (apart_sound settings reference.sounds _) whole
  | rarity => exact absurd rfl other
  | _ => cases member

end

end Rule

namespace Suggestion

section
variable {cursor next : Cursor} {token : Token String} {column : Int}

theorem rangeInList_of_value (equal : ∀ operator, cursor.readOperator.1 = some operator → operator.value = .equal)
    (member : token ∈ Rule.valueTokens cursor) (behind : token.range.start.character ≤ column)
    (before : column ≤ token.range.stop.character) :
    rangeInList ⟨cursor.row, column⟩ cursor.stretch.skipEquality = some token.range := by
  obtain ⟨values, skipped, starts⟩ := Cursor.starts_behind_equality equal (List.ne_nil_of_mem member)
  have touched := starts.touched token member column behind before
  have reached : ¬column < values.column := by
    have := Stretch.column_le_valueAt touched
    omega
  simp only [rangeInList, skipped, reached, if_false, touched, Option.getD_some]

theorem rangeOfOne_of_value (found : cursor.readString = (some token, next))
    (behind : token.range.start.character ≤ column) (before : column ≤ token.range.stop.character) :
    rangeOfOne ⟨cursor.row, column⟩ (some cursor.stretch.skipBlanks) = some token.range := by
  have value := Cursor.nextValue?_stretch found
  rw [← Stretch.nextValue?_skipBlanks] at value
  have reached : ¬column < cursor.stretch.skipBlanks.column := by
    have := (Stretch.nextValue?_bounds value).1
    omega
  have touched : Stretch.touches token.range ⟨cursor.row, column⟩ = true := by
    obtain ⟨blanks, chars, -, -, -, -, range, -⟩ := Cursor.read_extent Lexeme.captures_string found
    have here : token.range.start.line = cursor.row := by rw [range]; rfl
    simp [Stretch.touches, here, behind, before]
  simp only [rangeOfOne, reached, if_false, value, touched, if_true]

end

def ofKind (settings : Settings) (reference : Reference) (kind : Kind) (range : Range) :
    Except Unfit (List Suggestion) :=
  match kind with
  | .itemClass => classes settings reference range
  | .baseType => bases settings reference range
  | .sound => sounds settings reference range
  | .rarity => ofValues .reference settings.rarityQuotes range reference.rarities
  | .boolean => ofValues .reference settings.booleanQuotes range reference.booleans
  | _ => .ok []

/-- Anywhere on a value of a clean line, the suggestions are for this value. -/
theorem suggest_of_value (settings : Settings) (reference : Reference) {row : Int} {text : List Char}
    {word : Token String} {cursor : Cursor} (found : Line.head? ⟨row, text, 0⟩ = some (word, cursor)) {kind : Kind}
    (known : Kind.ofKeyword? word.value = some kind)
    (whole : Whole (Body settings reference {} word.value kind) cursor.rest) {range : Range}
    (member : range ∈ Rule.valueRanges kind cursor) {column : Int} (behind : range.start.character ≤ column)
    (before : column ≤ range.stop.character) :
    suggest settings reference text ⟨row, column⟩ = ofKind settings reference kind range := by
  obtain ⟨head, keyword, name, rest, ordered, stop, row_eq, line_eq, ends⟩ := Head.ofLine?_of_head? found known
  obtain ⟨token, inside, rfl⟩ := Rule.string_of_value member
  have apart := Cursor.column_lt_value ends token inside
  have start_passed : ¬column < head.range.start.character := by omega
  have stop_passed : ¬column ≤ head.range.stop.character := by omega
  simp only [suggest, keyword, start_passed, stop_passed, if_false, name, known, rest]
  have equal := Rule.equal_of_clean whole member
  subst row_eq
  -- A rule of one value looks at the first string only, which is its value.
  have single (one : kind = .rarity ∨ kind = .boolean ∨ kind = .sound) :
      ∃ other next, cursor.readOperator.2.readString = (some other, next) ∧
        rangeOfOne ⟨cursor.row, column⟩ (some cursor.readOperator.2.stretch.skipBlanks) = some token.range := by
    obtain ⟨other, next, first, same⟩ := Rule.first_string_of_value member one
    rw [← same] at behind before ⊢
    have range := rangeOfOne_of_value first behind before
    rw [(Cursor.readOperator_stays cursor).1] at range
    exact ⟨other, next, first, range⟩
  cases kind with
  | itemClass => simp only [valuesAt, rangeInList_of_value (equal (by decide)) inside behind before, ofKind]
  | baseType => simp only [valuesAt, rangeInList_of_value (equal (by decide)) inside behind before, ofKind]
  | rarity =>
    obtain ⟨other, next, first, range⟩ := single (.inl rfl)
    simp only [valuesAt, Cursor.skipOperator_stretch first, range, ofKind]
  | boolean =>
    obtain ⟨other, next, first, range⟩ := single (.inr (.inl rfl))
    simp only [valuesAt, Cursor.skipEquality_stretch (equal (by decide)) first, range, ofKind]
  | sound =>
    obtain ⟨other, next, first, range⟩ := single (.inr (.inr rfl))
    simp only [valuesAt, Cursor.skipEquality_stretch (equal (by decide)) first, range, ofKind]
  | _ => cases member

end Suggestion

end LootFilter
