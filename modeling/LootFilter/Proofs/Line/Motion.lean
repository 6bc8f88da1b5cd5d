import LootFilter.Proofs.Line.Head
import LootFilter.Proofs.Rule.Motion

/-! Lines that move: a line that is read at another place differs by the move only. -/

set_option autoImplicit false

namespace LootFilter

def KeywordMark.move (move : Move) (mark : KeywordMark) : KeywordMark := { mark with range := mark.range.move move }

namespace Line

/-- The second line is the first one at another place. Their rows are left open. -/
structure Moved (move : Move) (first second : Line) : Prop where
  range : second.range = first.range.move move
  findings : second.findings = first.findings.map (Finding.move move)
  color : second.color = first.color.map (ColorMark.move move)
  sound : second.sound = first.sound.map (SoundMark.move move)
  keyword : second.keyword = first.keyword.map (KeywordMark.move move)

def move (move : Move) (line : Line) : Line :=
  { row := line.row
    range := line.range.move move
    findings := line.findings.map (Finding.move move)
    color := line.color.map (ColorMark.move move)
    sound := line.sound.map (SoundMark.move move)
    keyword := line.keyword.map (KeywordMark.move move) }

theorem Moved.eq_move {move : Move} {first second : Line} (moved : Moved move first second) :
    second = { first.move move with row := second.row } := by
  obtain ⟨range, findings, color, sound, keyword⟩ := moved
  cases second
  cases range
  cases findings
  cases color
  cases sound
  cases keyword
  rfl

theorem kind?_move (move : Move) (line : Line) : (line.move move).kind? = line.kind? := by
  unfold kind? Line.move
  cases line.keyword with
  | none => rfl
  | some mark => rfl

section
variable {move : Move} {related : Cursor → Cursor → Prop}

/-- The blocks may differ in full if the line opens a new one. -/
theorem readFrom_moved (motion : Motion move related) {cursor other : Cursor} (same : related cursor other)
    (settings : Settings) (reference : Reference) {block block' : Block}
    (alike : (head? cursor).bind (fun found => Kind.ofKeyword? found.1.value) ≠ some .block → block.Alike block') :
    Agree (fun first second => Moved move first.1 second.1 ∧ first.2.Alike second.2)
      (readFrom settings reference cursor block) (readFrom settings reference other block') := by
  have range := motion.lineRange same
  by_cases ignored : cursor.isIgnorable = true
  · have unchanged := alike (by simp [head?, ignored])
    simp only [readFrom, motion.isIgnorable same, ignored, if_true]
    exact .ok ⟨⟨range, rfl, rfl, rfl, rfl⟩, unchanged⟩
  · obtain ⟨word?, next, next', result, result', cursors⟩ := (motion.word same).cases
    rw [head?, if_neg ignored, result] at alike
    rw [readFrom, readFrom, motion.isIgnorable same, if_neg ignored, if_neg ignored, result, result']
    cases word? with
    | none => exact .ok ⟨⟨range, by simp [range, Finding.move], rfl, rfl, rfl⟩, alike (by simp)⟩
    | some word =>
      simp only [Option.map_some, Token.move, Option.bind_some] at alike ⊢
      cases known : Kind.ofKeyword? word.value with
      | none =>
        simp only [known] at alike ⊢
        split
        · exact .ok ⟨⟨range, rfl, rfl, rfl, rfl⟩, alike (by simp)⟩
        · exact .ok ⟨⟨range, rfl, rfl, rfl, rfl⟩, alike (by simp)⟩
      | some kind =>
        simp only [known, ne_eq, Option.some.injEq] at alike ⊢
        have moved := Rule.read_moved motion cursors settings reference kind word.value word.range
          (word.range.move move) alike
        -- What the rule answers is all that the line adds to its place.
        generalize Rule.read settings reference kind word.value word.range next block = first at moved ⊢
        generalize Rule.read settings reference kind word.value (word.range.move move) next' block' = second
          at moved ⊢
        cases moved with
        | error gap => exact .error gap
        | ok good =>
          obtain ⟨⟨findings, color, sound⟩, blocks⟩ := good
          exact .ok ⟨⟨range, findings, color, sound, rfl⟩, blocks⟩

end

/-! ## Down to another row -/

def down (count : Int) (line : Line) : Line :=
  { row := line.row + count
    range := line.range.move (Move.down count)
    findings := line.findings.map (Finding.move (Move.down count))
    color := line.color.map (ColorMark.move (Move.down count))
    sound := line.sound.map (SoundMark.move (Move.down count))
    keyword := line.keyword.map (KeywordMark.move (Move.down count)) }

theorem Moved.eq_down {count : Int} {first second : Line} (moved : Moved (Move.down count) first second)
    (row : second.row = first.row + count) : second = first.down count := by
  rw [moved.eq_move, row]
  rfl

theorem read_down (settings : Settings) (reference : Reference) (row count : Int) (text : List Char)
    {block block' : Block} (alike : headKind? text ≠ some .block → block.Alike block') {line : Line} {next : Block}
    (done : Line.read settings reference row text block = .ok (line, next)) :
    ∃ next', Line.read settings reference (row + count) text block' = .ok (line.down count, next') ∧
      next.Alike next' := by
  -- The kind does not depend on the row, so the condition is the same for both lines.
  have head := headKind?_eq row text
  have below : Cursor.Below count ⟨row, text, 0⟩ ⟨row + count, text, 0⟩ := rfl
  have moved := readFrom_moved (Cursor.motion_down count) below settings reference (head ▸ alike)
  obtain ⟨oneLine, same⟩ := read_eq_ok_iff.mp done
  rw [same] at moved
  generalize second : readFrom settings reference ⟨row + count, text, 0⟩ block' = answer at moved
  cases moved with
  | @ok _ found good =>
    have result : Line.read settings reference (row + count) text block' = .ok found :=
      read_eq_ok_iff.mpr ⟨oneLine, second⟩
    have rows : found.1.row = line.row + count := by rw [(read_cases result).1, (read_cases done).1]
    exact ⟨found.2, by rw [result, ← good.1.eq_down rows], good.2⟩

end Line

end LootFilter
