import LootFilter.Bundled
import LootFilter.Proofs.Line.Motion
import LootFilter.Proofs.Scanner.Padding

/-! Blanks around a line only move what is read of it to the right. -/

set_option autoImplicit false

namespace LootFilter

open Text (isBlank)

def Block.moveRoot (move : Move) (block : Block) : Block := { block with root := block.root.map (Range.move move) }

theorem Block.Alike.eq_of_root {first second : Block} (alike : first.Alike second) {root : Option Range}
    (head : second.root = root) : second = { first with root } := by
  obtain ⟨classes, counts⟩ := alike
  cases second
  cases head
  cases classes
  cases counts
  rfl

namespace Line

section
variable {settings : Settings} {reference : Reference} {row : Int} {text : List Char} {block next : Block} {line : Line}

/-- The head of a block is the keyword that opens it, and other lines leave the head as it is. -/
theorem read_root (done : Line.read settings reference row text block = .ok (line, next)) :
    next.root = if line.kind? = some .block then line.keyword.map KeywordMark.range else block.root := by
  obtain ⟨-, keyword, rfl⟩ | ⟨word, cursor, -, -, keyword, rfl⟩ |
    ⟨word, cursor, kind, outcome, -, -, rule, keyword, -⟩ := (read_cases done).2
  · simp [kind?, keyword]
  · simp [kind?, keyword]
  · rw [Rule.read_effect rule]
    simp only [kind?, keyword, Option.bind_some, Option.some.injEq]
    cases kind <;> rfl

theorem block_of_move {move : Move} {text' : List Char} {next' : Block}
    (done : Line.read settings reference row text block = .ok (line, next))
    (done' : Line.read settings reference row text' block = .ok (line.move move, next')) (alike : next.Alike next') :
    next' = if line.kind? = some .block then next.moveRoot move else next := by
  have root := read_root done
  have root' := read_root done'
  rw [kind?_move] at root'
  split
  · next opens =>
    rw [if_pos opens] at root root'
    apply alike.eq_of_root
    rw [root', root, Line.move, Option.map_map, Option.map_map]
    rfl
  · next inner =>
    rw [if_neg inner] at root root'
    exact alike.eq_of_root (root'.trans root.symm)

end

/-- A line with blanks around it is read as the line itself, with all ranges so many columns further to the right as
there are blanks before it: its own, those of its keyword, findings, colour and sound, and the head of the block that it
opens. It leaves the same classes and counts, and fails for the same cause. -/
theorem read_between_blanks (settings : Settings) (reference : Reference) (row : Int) (before text after : List Char)
    (block : Block) (visible : ∃ c ∈ text, isBlank c = false) (oneLine : ∀ c ∈ text, Text.isBreak c = false)
    (blankBefore : ∀ c ∈ before, isBlank c = true ∧ Text.isBreak c = false)
    (blankAfter : ∀ c ∈ after, isBlank c = true ∧ Text.isBreak c = false) :
    Line.read settings reference row (before ++ (text ++ after)) block =
      (Line.read settings reference row text block).map fun answer =>
        (answer.1.move (Move.right before.length),
          if answer.1.kind? = some .block then answer.2.moveRoot (Move.right before.length) else answer.2) := by
  have whole : ∀ c ∈ before ++ (text ++ after), Text.isBreak c = false := by
    refine List.forall_mem_append.mpr ⟨fun c inside => (blankBefore c inside).2, ?_⟩
    exact List.forall_mem_append.mpr ⟨oneLine, fun c inside => (blankAfter c inside).2⟩
  have blanks : ∀ c ∈ before, isBlank c = true := fun c inside => (blankBefore c inside).1
  have blanks' : ∀ c ∈ after, isBlank c = true := fun c inside => (blankAfter c inside).1
  have moved := readFrom_moved (Cursor.motion_right blanks blanks') (Cursor.padded_start blanks row visible) settings
    reference fun _ => (⟨rfl, rfl⟩ : block.Alike block)
  generalize first : readFrom settings reference ⟨row, text, 0⟩ block = answer at moved
  generalize second : readFrom settings reference ⟨row, before ++ (text ++ after), 0⟩ block = answer' at moved
  cases moved with
  | error gap =>
    simp only [Line.read, Cursor.ofLine?_of_unbroken row oneLine, Cursor.ofLine?_of_unbroken row whole, first, second]
    rfl
  | @ok found found' good =>
    have done : Line.read settings reference row text block = .ok found := read_eq_ok_iff.mpr ⟨oneLine, first⟩
    have done' : Line.read settings reference row (before ++ (text ++ after)) block = .ok found' :=
      read_eq_ok_iff.mpr ⟨whole, second⟩
    obtain ⟨line, next⟩ := found
    obtain ⟨line', next'⟩ := found'
    have rows : line'.row = line.row := (read_cases done').1.trans (read_cases done).1.symm
    obtain rfl : line' = line.move (Move.right before.length) := by
      have moved : Moved (Move.right before.length) line line' := good.1
      rw [moved.eq_move, rows]
      rfl
    rw [done, done', block_of_move done done' good.2]
    rfl

theorem indented_block_read :
    Line.read {} Bundled.reference 3 "\t Show all  ".toList {} =
      .ok ({ row := 3
             range := ⟨⟨3, 2⟩, ⟨3, 10⟩⟩
             findings := [⟨.ignoredText, ⟨⟨3, 7⟩, ⟨3, 10⟩⟩⟩]
             keyword := some ⟨"Show", ⟨⟨3, 2⟩, ⟨3, 6⟩⟩, some .block⟩ },
        .start (some ⟨⟨3, 2⟩, ⟨3, 6⟩⟩)) := by
  have moved := read_between_blanks {} Bundled.reference 3 "\t ".toList "Show all".toList "  ".toList {}
    ⟨'S', List.mem_cons_self, rfl⟩ (by simp [Text.isBreak]) (by simp [isBlank, Text.isBreak])
    (by simp [isBlank, Text.isBreak])
  have plain : Line.read {} Bundled.reference 3 "Show all".toList {} =
      .ok ({ row := 3
             range := ⟨⟨3, 0⟩, ⟨3, 8⟩⟩
             findings := [⟨.ignoredText, ⟨⟨3, 5⟩, ⟨3, 8⟩⟩⟩]
             keyword := some ⟨"Show", ⟨⟨3, 0⟩, ⟨3, 4⟩⟩, some .block⟩ },
        .start (some ⟨⟨3, 0⟩, ⟨3, 4⟩⟩)) := by rfl
  rw [plain] at moved
  exact moved

end Line

end LootFilter
