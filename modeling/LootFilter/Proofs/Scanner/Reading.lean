import LootFilter.Proofs.Scanner.Shapes
import LootFilter.Scanner.Cursor
import Mathlib.Data.List.TakeWhile

/-! What a cursor reads, said of the text that is left: after blanks, a lexeme of the shape that was asked for. -/

set_option autoImplicit false

namespace LootFilter

open Text (isBlank endsHere trimStart blanksBefore)

/-- After blanks the text goes on with a lexeme, which ends at a blank or at the end of the text. -/
def Follows {α : Type} (shape : Shape α) (text : List Char) (value : α) (rest : List Char) : Prop :=
  ∃ blanks chars, text = blanks ++ (chars ++ rest) ∧ (∀ c ∈ blanks, isBlank c = true) ∧ shape chars value ∧
    endsHere rest = true

section
variable {α : Type} {reader : Reader α} {shape : Shape α}

theorem Captures.startsPlain (captures : Captures reader shape) {chars : List Char} {value : α}
    (shaped : shape chars value) (rest : List Char) : Text.startsPlain (chars ++ rest) = true := by
  obtain ⟨c, tail, rfl, plain⟩ := captures.visible shaped
  simp [Text.startsPlain, plain]

/-- The reader answers the lexeme that follows. -/
theorem Captures.follows_iff (captures : Captures reader shape) {text rest : List Char} {value : α} :
    Follows shape text value rest ↔
      ∃ chars, reader (trimStart text) = some ⟨chars, value⟩ ∧ trimStart text = chars ++ rest ∧
        endsHere rest = true := by
  constructor
  · rintro ⟨blanks, chars, rfl, all, shaped, ends⟩
    rw [Text.trimStart_append all (captures.startsPlain shaped rest)]
    exact ⟨chars, captures.complete shaped ends, rfl, ends⟩
  · rintro ⟨chars, found, same, ends⟩
    refine ⟨text.takeWhile isBlank, chars, ?_, ?_, (captures.sound found).1, ends⟩
    · rw [← same, Text.blanks_append_trimStart]
    · exact fun c member => List.all_eq_true.mp List.all_takeWhile c member

theorem Captures.follows_unique (captures : Captures reader shape) {text rest rest' : List Char} {value value' : α}
    (first : Follows shape text value rest) (second : Follows shape text value' rest') :
    value = value' ∧ rest = rest' := by
  obtain ⟨chars, found, same, -⟩ := captures.follows_iff.mp first
  obtain ⟨chars', found', same', -⟩ := captures.follows_iff.mp second
  rw [found] at found'
  obtain ⟨rfl, rfl⟩ := Lexeme.mk.inj (Option.some.inj found')
  exact ⟨rfl, List.append_cancel_left (same.symm.trans same')⟩

theorem Captures.length_lt (captures : Captures reader shape) {text rest : List Char} {value : α}
    (follows : Follows shape text value rest) : rest.length < text.length := by
  obtain ⟨blanks, chars, rfl, -, shaped, -⟩ := follows
  obtain ⟨c, tail, rfl, -⟩ := captures.visible shaped
  simp only [List.length_append, List.length_cons]
  omega

theorem Captures.head (captures : Captures reader shape) {text rest : List Char} {value : α}
    (follows : Follows shape text value rest) :
    ∃ c tail, shape (c :: tail) value ∧ (trimStart text).head? = some c := by
  obtain ⟨blanks, chars, rfl, all, shaped, -⟩ := follows
  have plain := captures.startsPlain shaped rest
  obtain ⟨c, tail, rfl, -⟩ := captures.visible shaped
  exact ⟨c, tail, shaped, by rw [Text.trimStart_append all plain]; rfl⟩

end

namespace Cursor

theorem ofLine?_of_unbroken (row : Int) {line : List Char} (unbroken : ∀ c ∈ line, Text.isBreak c = false) :
    ofLine? row line = some ⟨row, line, 0⟩ := by
  apply if_neg
  rw [List.any_eq_true]
  intro broken
  obtain ⟨c, member, breaks⟩ := broken
  rw [unbroken c member] at breaks
  cases breaks

section
variable {α : Type} {reader : Reader α} {shape : Shape α}

theorem rest_advance (cursor : Cursor) (count : Nat) :
    ({ cursor with column := cursor.column + blanksBefore cursor.rest + count } : Cursor).rest =
      (trimStart cursor.rest).drop count := by
  rw [← Text.drop_blanksBefore, List.drop_drop]
  simp only [rest, List.drop_drop, Nat.add_assoc]

theorem read_eq_some (captures : Captures reader shape) {cursor next : Cursor} {token : Token α}
    (found : cursor.read reader = (some token, next)) :
    Follows shape cursor.rest token.value next.rest ∧ next = { cursor with column := next.column } ∧
      ∃ start, cursor.column ≤ start ∧ start < next.column ∧
        token.range = Range.onLine cursor.row start next.column := by
  simp only [read] at found
  split at found
  · cases found
  · next lexeme taken =>
    split at found
    · next ends =>
      cases found
      obtain ⟨shaped, chars_prefix⟩ := captures.sound taken
      obtain ⟨c, tail, same, -⟩ := captures.visible shaped
      refine ⟨captures.follows_iff.mpr ⟨lexeme.chars, taken, ?_, ?_⟩, rfl,
        cursor.column + blanksBefore cursor.rest, by omega, ?_, rfl⟩
      · rw [rest_advance]
        exact (List.prefix_iff_eq_append.mp chars_prefix).symm
      · rw [rest_advance]
        exact ends
      · simp [same]
    · cases found

theorem read_eq_none (captures : Captures reader shape) {cursor next : Cursor}
    (found : cursor.read reader = (none, next)) :
    next = cursor ∧ ∀ value rest, ¬Follows shape cursor.rest value rest := by
  simp only [read] at found
  split at found
  · next nothing =>
    obtain ⟨-, rfl⟩ := Prod.mk.inj found
    refine ⟨rfl, fun value rest follows => ?_⟩
    obtain ⟨chars, taken, -, -⟩ := captures.follows_iff.mp follows
    rw [nothing] at taken
    cases taken
  · next lexeme taken =>
    split at found
    · cases found
    · next open_end =>
      obtain ⟨-, rfl⟩ := Prod.mk.inj found
      refine ⟨rfl, fun value rest follows => open_end ?_⟩
      obtain ⟨chars, taken', same, ends⟩ := captures.follows_iff.mp follows
      rw [taken] at taken'
      obtain rfl := Option.some.inj taken'
      simpa [same] using ends

end

end Cursor

/-! ## Text that is ignored -/

/-- The game ignores blanks, and a comment after them. -/
def Ignorable (text : List Char) : Prop :=
  (∀ c ∈ text, isBlank c = true) ∨
    ∃ blanks comment, text = blanks ++ '#' :: comment ∧ ∀ c ∈ blanks, isBlank c = true

theorem Ignorable.head {text : List Char} (ignorable : Ignorable text) {c : Char}
    (first : (trimStart text).head? = some c) : c = '#' := by
  rcases ignorable with all | ⟨blanks, comment, rfl, all⟩
  · rw [trimStart, List.dropWhile_eq_nil_iff.mpr all] at first
    cases first
  · rw [Text.trimStart_append all rfl] at first
    exact (Option.some.inj first).symm

theorem Cursor.isIgnorable_iff {cursor : Cursor} : cursor.isIgnorable = true ↔ Ignorable cursor.rest := by
  simp only [isIgnorable, isSpent, isAtComment, Text.allBlank, Bool.or_eq_true, List.all_eq_true, beq_iff_eq]
  apply or_congr Iff.rfl
  constructor
  · intro comment
    obtain ⟨tail, same⟩ := List.head?_eq_some_iff.mp comment
    refine ⟨cursor.rest.takeWhile isBlank, tail, ?_, fun c member => List.all_eq_true.mp List.all_takeWhile c member⟩
    rw [← same, Text.blanks_append_trimStart]
  · rintro ⟨blanks, comment, same, all⟩
    rw [same, Text.trimStart_append all rfl]
    rfl

/-! ## Strings in a row -/

inductive Strings : List Char → List String → List Char → Prop where
  | done {text : List Char} : (∀ value rest, ¬Follows Shape.string text value rest) → Strings text [] text
  | next {text middle rest : List Char} {value : String} {values : List String} :
      Follows Shape.string text value middle → Strings middle values rest → Strings text (value :: values) rest

theorem Strings.unique {text rest rest' : List Char} {values values' : List String}
    (first : Strings text values rest) (second : Strings text values' rest') : values = values' ∧ rest = rest' := by
  -- Both runs stop for the same reason or go on with the same string.
  induction first generalizing values' with
  | done nothing =>
    cases second with
    | done => exact ⟨rfl, rfl⟩
    | next follows => exact absurd follows (nothing _ _)
  | next follows _ ih =>
    cases second with
    | done nothing => exact absurd follows (nothing _ _)
    | next follows' strings =>
      obtain ⟨rfl, rfl⟩ := Lexeme.captures_string.follows_unique follows follows'
      obtain ⟨rfl, rfl⟩ := ih strings
      exact ⟨rfl, rfl⟩

theorem Strings.ended {text rest : List Char} {values : List String} (strings : Strings text values rest) :
    ∀ value after, ¬Follows Shape.string rest value after := by
  induction strings with
  | done nothing => exact nothing
  | next _ _ ih => exact ih

namespace Cursor

theorem strings_readStringsUpTo (count : Nat) (cursor : Cursor) (enough : cursor.rest.length ≤ count) :
    Strings cursor.rest ((readStringsUpTo count cursor).1.map Token.value) (readStringsUpTo count cursor).2.rest := by
  induction count generalizing cursor with
  | zero =>
    refine .done fun value rest follows => ?_
    have := Lexeme.captures_string.length_lt follows
    omega
  | succ count ih =>
    rcases result : cursor.readString with ⟨token?, next⟩
    cases token? with
    | none => simpa only [readStringsUpTo, result] using .done (read_eq_none Lexeme.captures_string result).2
    | some token =>
      have follows := (read_eq_some Lexeme.captures_string result).1
      have shorter := Lexeme.captures_string.length_lt follows
      simpa only [readStringsUpTo, result, List.map_cons] using .next follows (ih next (by omega))

theorem strings_readStrings (cursor : Cursor) :
    Strings cursor.rest (cursor.readStrings.1.map Token.value) cursor.readStrings.2.rest :=
  strings_readStringsUpTo _ cursor (Nat.le_refl _)

theorem ranges_readStringsUpTo (count : Nat) (cursor : Cursor) :
    (∀ token ∈ (readStringsUpTo count cursor).1, (cursor.column : Int) ≤ token.range.start.character) ∧
      ((readStringsUpTo count cursor).1.map Token.range).Nodup := by
  induction count generalizing cursor with
  | zero => simp [readStringsUpTo]
  | succ count ih =>
    rcases result : cursor.readString with ⟨token?, next⟩
    cases token? with
    | none => simp [readStringsUpTo, result]
    | some token =>
      -- The cursor stops behind the string, and all later ones start at the cursor or after it.
      obtain ⟨-, -, start, le, lt, range⟩ := read_eq_some Lexeme.captures_string result
      obtain ⟨later, apart⟩ := ih next
      simp only [readStringsUpTo, result, List.mem_cons, List.map_cons, List.nodup_cons]
      refine ⟨?_, ?_, apart⟩
      · rintro other (rfl | member)
        · rw [range]
          exact Int.ofNat_le.mpr le
        · have := later other member
          omega
      · intro member
        obtain ⟨other, member, same⟩ := List.mem_map.mp member
        have behind := later other member
        rw [same, range] at behind
        have : (next.column : Int) ≤ start := behind
        omega

end Cursor

end LootFilter
