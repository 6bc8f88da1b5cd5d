import LootFilter.Color
import LootFilter.Finding
import LootFilter.Proofs.Scanner.Reading

/-! Lines that move to another place. A motion relates cursors that see the same lexemes at positions which a move takes
to each other; what is read from related cursors differs by the move only. -/

set_option autoImplicit false

namespace LootFilter

abbrev Move := Position → Position

def Range.move (move : Move) (range : Range) : Range := ⟨move range.start, move range.stop⟩

def Token.move {α : Type} (move : Move) (token : Token α) : Token α := ⟨token.value, token.range.move move⟩

def Finding.move (move : Move) (finding : Finding) : Finding := ⟨finding.problem, finding.range.move move⟩

def ColorMark.move (move : Move) (mark : ColorMark) : ColorMark := ⟨mark.color, mark.range.move move⟩

def SoundMark.move (move : Move) (mark : SoundMark) : SoundMark := { mark with range := mark.range.move move }

def Moved {α : Type} (move : Move) (related : Cursor → Cursor → Prop) (first second : Option (Token α) × Cursor) :
    Prop :=
  second.1 = first.1.map (Token.move move) ∧ related first.2 second.2

theorem Moved.cases {α : Type} {move : Move} {related : Cursor → Cursor → Prop}
    {first second : Option (Token α) × Cursor} (moved : Moved move related first second) :
    ∃ token? next next', first = (token?, next) ∧ second = (token?.map (Token.move move), next') ∧
      related next next' :=
  ⟨first.1, first.2, second.2, rfl, Prod.ext moved.1 rfl, moved.2⟩

structure Motion (move : Move) (related : Cursor → Cursor → Prop) : Prop where
  number : ∀ {cursor other}, related cursor other → Moved move related cursor.readNumber other.readNumber
  boolean : ∀ {cursor other}, related cursor other → Moved move related cursor.readBoolean other.readBoolean
  operator : ∀ {cursor other}, related cursor other → Moved move related cursor.readOperator other.readOperator
  word : ∀ {cursor other}, related cursor other → Moved move related cursor.readWord other.readWord
  string : ∀ {cursor other}, related cursor other → Moved move related cursor.readString other.readString
  isIgnorable : ∀ {cursor other}, related cursor other → other.isIgnorable = cursor.isIgnorable
  lineRange : ∀ {cursor other}, related cursor other → other.lineRange = cursor.lineRange.move move
  restRange : ∀ {cursor other}, related cursor other → cursor.isIgnorable = false →
    other.restRange = cursor.restRange.move move

/-! ## Strings in a row -/

namespace Cursor

theorem readStringsUpTo_eq {first second : Nat} {cursor : Cursor} (enough : cursor.rest.length ≤ first)
    (enough' : cursor.rest.length ≤ second) : readStringsUpTo first cursor = readStringsUpTo second cursor := by
  induction first generalizing second cursor with
  | zero =>
    have nothing : ∀ count, readStringsUpTo count cursor = ([], cursor) := by
      intro count
      cases count with
      | zero => rfl
      | succ count =>
        rcases result : cursor.readString with ⟨token?, next⟩
        cases token? with
        | none => simp only [readStringsUpTo, result]
        | some token =>
          have shorter := Lexeme.captures_string.length_lt (read_eq_some Lexeme.captures_string result).1
          omega
    rw [nothing, nothing]
  | succ first ih =>
    rcases result : cursor.readString with ⟨token?, next⟩
    cases token? with
    | none =>
      cases second with
      | zero => simp only [readStringsUpTo, result]
      | succ second => simp only [readStringsUpTo, result]
    | some token =>
      have shorter := Lexeme.captures_string.length_lt (read_eq_some Lexeme.captures_string result).1
      cases second with
      | zero => omega
      | succ second =>
        have later : readStringsUpTo first next = readStringsUpTo second next := ih (by omega) (by omega)
        simp only [readStringsUpTo, result, later]

end Cursor

section
variable {move : Move} {related : Cursor → Cursor → Prop}

theorem Motion.stringsUpTo (motion : Motion move related) (count : Nat) {cursor other : Cursor}
    (same : related cursor other) :
    (other.readStringsUpTo count).1 = (cursor.readStringsUpTo count).1.map (Token.move move) ∧
      related (cursor.readStringsUpTo count).2 (other.readStringsUpTo count).2 := by
  induction count generalizing cursor other with
  | zero => exact ⟨rfl, same⟩
  | succ count ih =>
    obtain ⟨token?, next, next', result, result', cursors⟩ := (motion.string same).cases
    cases token? with
    | none =>
      simp only [Cursor.readStringsUpTo, result, result', Option.map_none, List.map_nil, true_and]
      exact same
    | some token =>
      obtain ⟨later, last⟩ := ih cursors
      simp only [Cursor.readStringsUpTo, result, result', Option.map_some, List.map_cons, later, true_and]
      exact last

/-- The two lines need not have the same length: both readings are given what the longer one needs. -/
theorem Motion.strings (motion : Motion move related) {cursor other : Cursor} (same : related cursor other) :
    other.readStrings.1 = cursor.readStrings.1.map (Token.move move) ∧
      related cursor.readStrings.2 other.readStrings.2 := by
  -- A bound that is large enough does not matter, so both take the larger one.
  have first : cursor.readStrings = cursor.readStringsUpTo (max cursor.rest.length other.rest.length) :=
    Cursor.readStringsUpTo_eq (Nat.le_refl _) (Nat.le_max_left _ _)
  have second : other.readStrings = other.readStringsUpTo (max cursor.rest.length other.rest.length) :=
    Cursor.readStringsUpTo_eq (Nat.le_refl _) (Nat.le_max_right _ _)
  rw [first, second]
  exact motion.stringsUpTo _ same

end

/-! ## Down to another row -/

def Move.down (count : Int) : Move := fun position => ⟨position.line + count, position.character⟩

namespace Cursor

def down (count : Int) (cursor : Cursor) : Cursor := { cursor with row := cursor.row + count }

theorem read_down {α : Type} (reader : Reader α) (count : Int) (cursor : Cursor) :
    (cursor.down count).read reader =
      ((cursor.read reader).1.map (Token.move (Move.down count)), (cursor.read reader).2.down count) := by
  have same : (cursor.down count).rest = cursor.rest := rfl
  simp only [read, same]
  split
  · rfl
  · split
    · rfl
    · rfl

def Below (count : Int) (cursor other : Cursor) : Prop := other = cursor.down count

theorem moved_down {α : Type} (reader : Reader α) {count : Int} {cursor other : Cursor}
    (below : Below count cursor other) :
    Moved (Move.down count) (Below count) (cursor.read reader) (other.read reader) := by
  rw [below, read_down]
  exact ⟨rfl, rfl⟩

theorem motion_down (count : Int) : Motion (Move.down count) (Below count) where
  number := moved_down _
  boolean := moved_down _
  operator := moved_down _
  word := moved_down _
  string := moved_down _
  isIgnorable := by
    intro cursor other below
    rw [below]
    rfl
  lineRange := by
    intro cursor other below
    rw [below]
    rfl
  restRange := by
    intro cursor other below _
    rw [below]
    rfl

end Cursor

end LootFilter
