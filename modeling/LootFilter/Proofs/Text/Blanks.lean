import LootFilter.Text.Blank

/-! Blanks at the head of a text, and characters that are never blank. -/

set_option autoImplicit false

namespace LootFilter.Text

theorem blank_codes {c : Char} (blank : isBlank c = true) :
    (9 ≤ c.toNat ∧ c.toNat ≤ 13) ∨ (28 ≤ c.toNat ∧ c.toNat ≤ 32) ∨ c.toNat = 133 ∨ c.toNat = 160 ∨
      5760 ≤ c.toNat := by
  simp only [isBlank, Bool.or_eq_true, Bool.and_eq_true, decide_eq_true_eq, beq_iff_eq] at blank
  omega

def startsPlain : List Char → Bool
  | [] => true
  | c :: _ => !isBlank c

theorem blanks_append_trimStart (text : List Char) : text.takeWhile isBlank ++ trimStart text = text :=
  List.takeWhile_append_dropWhile

theorem startsPlain_trimStart (text : List Char) : startsPlain (trimStart text) = true := by
  have head := List.head?_dropWhile_not isBlank text
  rw [trimStart]
  cases left : text.dropWhile isBlank with
  | nil => rfl
  | cons c rest =>
    rw [left] at head
    simpa [startsPlain] using head

theorem drop_blanksBefore (text : List Char) : text.drop (blanksBefore text) = trimStart text := by
  have whole := congrArg (List.drop (blanksBefore text)) (blanks_append_trimStart text)
  rw [← whole, blanksBefore, List.drop_left]

theorem takeWhile_blanks {blanks text : List Char} (all : ∀ c ∈ blanks, isBlank c = true)
    (plain : startsPlain text = true) : (blanks ++ text).takeWhile isBlank = blanks := by
  rw [List.takeWhile_append_of_pos all]
  cases text with
  | nil => simp
  | cons c rest => simp [show isBlank c = false by simpa [startsPlain] using plain]

theorem blanksBefore_append {blanks text : List Char} (all : ∀ c ∈ blanks, isBlank c = true)
    (plain : startsPlain text = true) : blanksBefore (blanks ++ text) = blanks.length := by
  rw [blanksBefore, takeWhile_blanks all plain]

theorem blanksBefore_trimStart (text : List Char) : blanksBefore (trimStart text) = 0 := by
  change blanksBefore ([] ++ trimStart text) = 0
  exact blanksBefore_append nofun (startsPlain_trimStart text)

theorem trimStart_append {blanks text : List Char} (all : ∀ c ∈ blanks, isBlank c = true)
    (plain : startsPlain text = true) : trimStart (blanks ++ text) = text := by
  rw [← drop_blanksBefore, blanksBefore_append all plain, List.drop_left]

end LootFilter.Text
