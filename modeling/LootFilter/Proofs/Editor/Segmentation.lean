import LootFilter.Proofs.Editor.EditRange
import LootFilter.Proofs.Scanner.Tiling

/-! The values of a line, sought one behind the other. They take the line apart from any column on, so the value at a
position is the first of them that the position touches, and the search for it may end at the first value behind the
position. -/

set_option autoImplicit false

namespace LootFilter.Stretch

open Text (isBlank)

/-! ## One value -/

theorem valueLength_pos {c : Char} (plain : isBlank c = false) (rest : List Char) : 0 < valueLength (c :: rest) := by
  unfold valueLength
  split
  · simp only
    split
    · exact Nat.succ_pos _
    · exact Nat.succ_pos _
  · simp [plain]

/-- Behind a column of a line there are blanks only, or blanks and a value that starts with another character. -/
inductive Next (row : Int) (text : List Char) (column : Nat) : Option (Range × Stretch) → Prop where
  | nothing : Text.BlankBetween text column text.length → Next row text column none
  | value {start stop : Nat} {c : Char} : column ≤ start → Text.BlankBetween text column start →
      text[start]? = some c → isBlank c = false → start < stop → stop ≤ text.length →
      Next row text column (some (.onLine row start stop, ⟨stop, text.drop stop⟩))

theorem next_nextValue? (row : Int) (line : List Char) (column : Nat) :
    Next row line column (nextValue? row ⟨column, line.drop column⟩) := by
  by_cases visible : ∃ c ∈ line.drop column, isBlank c = false
  · obtain ⟨blanks, c, rest, split, all, plain⟩ := Text.split_blanks visible
    let start := column + blanks.length
    let stop := start + valueLength (c :: rest)
    have starts : Text.startsPlain (c :: rest) = true := by simp [Text.startsPlain, plain]
    have tail : line.drop start = c :: rest := by rw [← List.drop_drop, split, List.drop_left]
    have found : nextValue? row ⟨column, line.drop column⟩ =
        some (.onLine row start stop, ⟨stop, line.drop stop⟩) := by
      rw [nextValue?, split, skipBlanks_eq all starts, ← List.drop_drop, tail]
      rfl
    have length := congrArg List.length tail
    have inside := valueLength_le (c :: rest)
    have some_chars := valueLength_pos plain rest
    rw [List.length_drop, List.length_cons] at length
    rw [found]
    refine .value (c := c) (Nat.le_add_right _ _) (Text.blankBetween_of_rest split all) ?_ plain ?_ ?_
    · rw [← List.head?_drop, tail, List.head?_cons]
    · omega
    · simp only [List.length_cons] at inside
      omega
  · have all : ∀ c ∈ line.drop column, isBlank c = true := by simpa using visible
    have whole := (List.append_nil (line.drop column)).symm
    have blank := Text.blankBetween_of_rest whole all
    have nothing : nextValue? row ⟨column, line.drop column⟩ = none := by
      rw [nextValue?, whole, skipBlanks_eq all rfl]
    rw [nothing]
    refine .nothing fun place c behind before => blank place c behind ?_
    rw [List.length_drop]
    omega

/-! ## Values in a row -/

/-- The range of the next value of a line from an index on, if there is one. There is no answer for an index before the
start of the line. -/
def valueFrom? (row : Int) (line : List Char) (index : Int) : Option (Option Range) :=
  (ofIndex? line index).map fun stretch => (stretch.nextValue? row).map Prod.fst

/-- These are the ranges of the values from an index on: each one is sought from the end of the one before, and behind
the last one there is no value. -/
inductive Exhausts (row : Int) (line : List Char) : Int → List Range → Prop where
  | done {index : Int} : valueFrom? row line index = some none → Exhausts row line index []
  | next {index : Int} {range : Range} {ranges : List Range} : valueFrom? row line index = some (some range) →
      Exhausts row line range.stop.character ranges → Exhausts row line index (range :: ranges)

/-- The search for the value at a position goes from value to value. It ends at a value that the position touches, at
one that starts behind the position, or where there is no value. -/
inductive Seeks (position : Position) (line : List Char) : Int → Option Range → Prop where
  | nothing {index : Int} : valueFrom? position.line line index = some none → Seeks position line index none
  | touched {index : Int} {range : Range} : valueFrom? position.line line index = some (some range) →
      touches range position = true → Seeks position line index (some range)
  | past {index : Int} {range : Range} : valueFrom? position.line line index = some (some range) →
      touches range position = false → position.character < range.start.character → Seeks position line index none
  | further {index : Int} {range : Range} {answer : Option Range} :
      valueFrom? position.line line index = some (some range) → touches range position = false →
      range.start.character ≤ position.character → Seeks position line range.stop.character answer →
      Seeks position line index answer

section
variable {row : Int} {line : List Char}

theorem exists_next (row : Int) (line : List Char) (column : Nat) :
    ∃ answer, nextValue? row ⟨column, line.drop column⟩ = answer ∧
      valueFrom? row line column = some (answer.map Prod.fst) ∧ Next row line column answer := by
  refine ⟨_, rfl, ?_, next_nextValue? row line column⟩
  rw [valueFrom?, ofIndex?_natCast, Option.map_some]

/-- Each value takes at least one character, so none is left behind as many values as there are characters. -/
theorem exhausts_valuesUpTo {count column : Nat} (enough : line.length - column ≤ count) :
    Exhausts row line column (valuesUpTo count row ⟨column, line.drop column⟩) := by
  induction count generalizing column with
  | zero =>
    obtain ⟨answer, -, found, next⟩ := exists_next row line column
    cases next with
    | nothing => exact .done found
    | value => omega
  | succ count ih =>
    obtain ⟨answer, same, found, next⟩ := exists_next row line column
    rw [valuesUpTo, same]
    cases next with
    | nothing => exact .done found
    | value => exact .next found (ih (by omega))

theorem Exhausts.tiling {column : Nat} {ranges : List Range} (exhausts : Exhausts row line column ranges)
    (inside : column ≤ line.length) : Range.Tiling row line column line.length ranges := by
  generalize index_eq : (column : Int) = index at exhausts
  induction exhausts generalizing column with
  | done nothing =>
    obtain ⟨answer, -, found, next⟩ := exists_next row line column
    rw [index_eq, nothing] at found
    cases next with
    | nothing blank => exact .nil inside blank
    | value => cases found
  | next value _ ih =>
    obtain ⟨answer, -, found, next⟩ := exists_next row line column
    rw [index_eq, value] at found
    cases next with
    | nothing => cases found
    | value later blank visible plain some_chars within =>
      cases found
      exact .cons later blank visible plain some_chars (ih within rfl)

theorem seeks_valueAtUpTo {position : Position} {count column : Nat} (enough : line.length - column ≤ count) :
    Seeks position line column (valueAtUpTo count position ⟨column, line.drop column⟩) := by
  induction count generalizing column with
  | zero =>
    obtain ⟨answer, -, found, next⟩ := exists_next position.line line column
    cases next with
    | nothing => exact .nothing found
    | value => omega
  | succ count ih =>
    obtain ⟨answer, same, found, next⟩ := exists_next position.line line column
    rw [valueAtUpTo, same]
    cases next with
    | nothing => exact .nothing found
    | value =>
      simp only
      split
      · next touched => exact .touched found touched
      · next missed =>
        have missed := Bool.of_not_eq_true missed
        split
        · next before => exact .past found missed before
        · next reached => exact .further found missed (Int.not_lt.mp reached) (ih (by omega))

theorem touches_onLine_iff {start stop place : Int} :
    touches (.onLine row start stop) ⟨row, place⟩ = true ↔ start ≤ place ∧ place ≤ stop :=
  touches_iff.trans (and_iff_right rfl)

theorem column_le_of_mem_valuesUpTo {count column : Nat} (enough : line.length - column ≤ count)
    (inside : column ≤ line.length) {range : Range} (member : range ∈ valuesUpTo count row ⟨column, line.drop column⟩) :
    column ≤ range.start.character :=
  (((exhausts_valuesUpTo enough).tiling inside).parts range member).starts_behind

/-- A value that starts behind the position rules out the later ones too, for they stand further to the right. -/
theorem valueAtUpTo_eq_find? (place : Int) {count column : Nat} (enough : line.length - column ≤ count)
    (inside : column ≤ line.length) :
    valueAtUpTo count ⟨row, place⟩ ⟨column, line.drop column⟩ =
      (valuesUpTo count row ⟨column, line.drop column⟩).find? fun range =>
        decide (range.start.character ≤ place ∧ place ≤ range.stop.character) := by
  induction count generalizing column with
  | zero => rfl
  | succ count ih =>
    obtain ⟨answer, same, -, next⟩ := exists_next row line column
    rw [valueAtUpTo, valuesUpTo, same]
    cases next with
    | nothing => rfl
    | @value start stop _ later _ _ _ some_chars within =>
      have enough' : line.length - stop ≤ count := by omega
      simp only
      by_cases touched : start ≤ place ∧ place ≤ stop
      · rw [if_pos (touches_onLine_iff.mpr touched), List.find?_cons_of_pos]
        exact decide_eq_true touched
      · rw [if_neg (mt touches_onLine_iff.mp touched), List.find?_cons_of_neg (by exact mt of_decide_eq_true touched)]
        split
        · next before =>
          have before : place < start := before
          symm
          apply List.find?_eq_none.mpr
          intro range member near
          have further := column_le_of_mem_valuesUpTo enough' within member
          have reached := (of_decide_eq_true near).1
          omega
        · exact ih enough' within

end

/-- From every column of a line on, the values that are sought one behind the other come to an end. Their ranges take
the rest of the line apart: they stand in order and do not overlap, none is empty, each starts at a character that is
not blank, and each such character is in exactly one of them. The search for the value at a position comes to an end as
well, and its answer is the first of these ranges that the position touches, if it touches one. -/
theorem values_take_line_apart (row : Int) (line : List Char) (index : Nat) (inside : index ≤ line.length) :
    ∃ values, ofIndex? line index = some values ∧ Exhausts row line index (values.values row) ∧
      Range.Tiling row line index line.length (values.values row) ∧
      ∀ place : Int, Seeks ⟨row, place⟩ line index (values.valueAt? ⟨row, place⟩) ∧
        values.valueAt? ⟨row, place⟩ = (values.values row).find? fun range =>
          decide (range.start.character ≤ place ∧ place ≤ range.stop.character) := by
  have enough : line.length - index ≤ (line.drop index).length := Nat.le_of_eq List.length_drop.symm
  have exhausts : Exhausts row line index _ := exhausts_valuesUpTo enough
  refine ⟨⟨index, line.drop index⟩, ofIndex?_natCast line index, exhausts, exhausts.tiling inside, ?_⟩
  intro place
  constructor
  · exact seeks_valueAtUpTo enough
  · exact valueAtUpTo_eq_find? place enough inside

theorem touching_values_taken_apart :
    ∃ values, ofIndex? "Class \"Gold Ring\"Arc \"Ma #".toList 5 = some values ∧
      Range.Tiling 3 "Class \"Gold Ring\"Arc \"Ma #".toList 5 26
        [.onLine 3 6 17, .onLine 3 17 20, .onLine 3 21 26] ∧
      Seeks ⟨3, 17⟩ "Class \"Gold Ring\"Arc \"Ma #".toList 5 (some (.onLine 3 6 17)) ∧
      values.valueAt? ⟨3, 17⟩ = some (.onLine 3 6 17) := by
  obtain ⟨values, located, -, tiling, sought⟩ :=
    values_take_line_apart 3 "Class \"Gold Ring\"Arc \"Ma #".toList 5 (by decide)
  cases located
  exact ⟨_, rfl, tiling, sought 17⟩

end LootFilter.Stretch
