import LootFilter.Proofs.Document.Stepping
import Mathlib.Data.List.DropRight

/-! What the lines read so far leave behind, in terms of their texts: the rules of the current block. -/

set_option autoImplicit false

namespace LootFilter

theorem Block.occurrences_record (block : Block) (name other : String) :
    (block.record name).occurrences other = block.occurrences other + if other = name then 1 else 0 := by
  by_cases same : other = name
  · simp [occurrences, record, Table.getD, same]
  · simp [occurrences, record, Table.getD, same, Table.get?_put_of_ne same]

namespace Progress

def after (settings : Settings) (reference : Reference) : Int → Progress → List (List Char) → Progress
  | _, progress, [] => progress
  | row, progress, text :: rest =>
    after settings reference (row + 1) (progress.step settings reference row text).2 rest

end Progress

namespace Document

/-! ## Lines in a row -/

section
variable {settings : Settings} {reference : Reference} {row : Int} {progress : Progress} {lines : List Line}

theorem readLines_cons_iff {text : List Char} {rest : List (List Char)} :
    readLines settings reference row progress (text :: rest) = .ok lines ↔
      ∃ line next others, progress.step settings reference row text = (.ok line, next) ∧
        readLines settings reference (row + 1) next rest = .ok others ∧ lines = line :: others := by
  rcases first : progress.step settings reference row text with ⟨fault | line, next⟩
  · simp [readLines, first]
  · cases later : readLines settings reference (row + 1) next rest with
    | error fault => simp [readLines, first, later, bind, Except.bind]
    | ok others => simp [readLines, first, later, bind, Except.bind, pure, Except.pure, eq_comm]

theorem readLines_append_iff {first second : List (List Char)} :
    readLines settings reference row progress (first ++ second) = .ok lines ↔
      ∃ leading trailing, readLines settings reference row progress first = .ok leading ∧
        readLines settings reference (row + first.length) (progress.after settings reference row first) second =
          .ok trailing ∧
        lines = leading ++ trailing := by
  induction first generalizing row progress lines with
  | nil => simp [readLines, Progress.after, eq_comm]
  | cons text rest ih =>
    have rows : row + (rest.length + 1 : Nat) = row + 1 + rest.length := by omega
    simp only [List.cons_append, readLines_cons_iff, ih, Progress.after, List.length_cons, rows]
    constructor
    · intro split
      obtain ⟨line, next, _, done, ⟨leading, trailing, first, second, rfl⟩, rfl⟩ := split
      exact ⟨line :: leading, trailing, ⟨line, next, leading, done, first, rfl⟩, by rw [done]; exact second, rfl⟩
    · intro parts
      obtain ⟨_, trailing, ⟨line, next, leading, done, first, rfl⟩, second, rfl⟩ := parts
      rw [done] at second
      exact ⟨line, next, leading ++ trailing, done, ⟨leading, trailing, first, second, rfl⟩, rfl⟩

theorem readLines_length {texts : List (List Char)}
    (done : readLines settings reference row progress texts = .ok lines) : lines.length = texts.length := by
  induction texts generalizing row progress lines with
  | nil =>
    cases done
    rfl
  | cons text rest ih =>
    obtain ⟨line, next, others, -, later, rfl⟩ := readLines_cons_iff.mp done
    rw [List.length_cons, List.length_cons, ih later]

/-- A line of a document is what one step answers, after the lines before it. -/
theorem readLines_line {before rest : List (List Char)} {text : List Char}
    (done : readLines settings reference row progress (before ++ text :: rest) = .ok lines) :
    ∃ leading line trailing next, lines = leading ++ line :: trailing ∧ leading.length = before.length ∧
      readLines settings reference row progress before = .ok leading ∧
      (progress.after settings reference row before).step settings reference (row + before.length) text =
        (.ok line, next) := by
  obtain ⟨leading, _, first, second, rfl⟩ := readLines_append_iff.mp done
  obtain ⟨line, next, trailing, here, -, rfl⟩ := readLines_cons_iff.mp second
  exact ⟨leading, line, trailing, next, rfl, readLines_length first, first, here⟩

theorem readLines_ok (complete : reference.Complete) (row : Int) (progress : Progress) {texts : List (List Char)}
    (oneLine : ∀ text ∈ texts, ∀ c ∈ text, Text.isBreak c = false) :
    ∃ lines, readLines settings reference row progress texts = .ok lines := by
  induction texts generalizing row progress with
  | nil => exact ⟨[], rfl⟩
  | cons text rest ih =>
    obtain ⟨line, next, done⟩ : ∃ line next, progress.step settings reference row text = (.ok line, next) :=
      Progress.step_ok complete (oneLine text List.mem_cons_self)
    obtain ⟨lines, later⟩ := ih (row + 1) next fun text member => oneLine text (List.mem_cons_of_mem _ member)
    exact ⟨line :: lines, readLines_cons_iff.mpr ⟨line, next, lines, done, later, rfl⟩⟩

end

/-! ## The current block -/

def opensBlock (text : List Char) : Bool := Line.headKind? text = some .block

/-- The lines after the last one that opens a block; all of them if none does. -/
def currentBlock (earlier : List (List Char)) : List (List Char) := earlier.rtakeWhile fun text => !opensBlock text

theorem currentBlock_opening (earlier : List (List Char)) {text : List Char} (opens : opensBlock text = true) :
    currentBlock (earlier ++ [text]) = [] :=
  List.rtakeWhile_concat_neg _ _ _ (by simp [opens])

theorem currentBlock_inner (earlier : List (List Char)) {text : List Char} (inner : opensBlock text = false) :
    currentBlock (earlier ++ [text]) = currentBlock earlier ++ [text] :=
  List.rtakeWhile_concat_pos _ _ _ (by simp [inner])

/-- Progress keeps whether a block was opened, and of the current block the classes that it asks for and the count of
each rule. Rules before the first block are not counted. -/
structure Remembers (settings : Settings) (reference : Reference) (earlier : List (List Char)) (progress : Progress) :
    Prop where
  found : progress.blockFound = earlier.any opensBlock
  classes : progress.block.classes = (currentBlock earlier).flatMap (Line.acceptedClasses settings reference)
  counts : progress.blockFound = true → ∀ name kind, Kind.ofKeyword? name = some kind → kind ≠ .block →
    progress.block.occurrences name = ((currentBlock earlier).countP fun text => Line.headword? text = some name)

theorem initial_remembers (settings : Settings) (reference : Reference) : Remembers settings reference [] {} where
  found := rfl
  classes := rfl
  counts := nofun

section
variable {settings : Settings} {reference : Reference} {row : Int} {text : List Char} {earlier : List (List Char)}
  {progress next : Progress} {line : Line}

theorem step_remembers_opening (opens : opensBlock text = true)
    (done : progress.step settings reference row text = (.ok line, next)) :
    Remembers settings reference (earlier ++ [text]) next := by
  obtain ⟨parsed, block, read, placed⟩ := Progress.step_cases done
  obtain ⟨classes, counts⟩ := Line.read_block read
  -- Reading resets the block before the line is placed; placing then marks that a block was found.
  have named : Line.headKind? text = some .block := by simpa [opensBlock] using opens
  have kind := (Line.read_kind? read).trans named
  rw [if_pos named] at classes counts
  have fresh : next = { block, blockFound := true } := by
    obtain ⟨nothing, -⟩ | ⟨-, -, rfl⟩ | ⟨name, range, other, keyword, inner, -⟩ := Progress.place_cases placed
    · rw [nothing] at kind
      cases kind
    · rfl
    · rw [Line.kind?, keyword] at kind
      exact absurd (Option.some.inj kind) inner
  subst fresh
  constructor
  · simp [opens]
  · rw [currentBlock_opening earlier opens]
    exact classes
  · intro _ name kind _ _
    rw [currentBlock_opening earlier opens, Block.occurrences, counts]
    rfl

theorem read_occurrences {block next : Block} (inner : opensBlock text = false)
    (read : Line.read settings reference row text block = .ok (line, next)) (name : String) :
    next.occurrences name = block.occurrences name := by
  have named : Line.headKind? text ≠ some .block := by simpa [opensBlock] using inner
  rw [Block.occurrences, (Line.read_block read).2, if_neg named, Block.occurrences]

theorem step_occurrences (inner : opensBlock text = false)
    (done : progress.step settings reference row text = (.ok line, next)) (found : progress.blockFound = true)
    {name : String} {kind : Kind} (known : Kind.ofKeyword? name = some kind) :
    next.block.occurrences name =
      progress.block.occurrences name + if Line.headword? text = some name then 1 else 0 := by
  obtain ⟨parsed, block, read, placed⟩ := Progress.step_cases done
  have named : Line.headKind? text ≠ some .block := by simpa [opensBlock] using inner
  have before := read_occurrences inner read name
  have kinds := Line.read_kind? read
  obtain ⟨nothing, -, rfl⟩ | ⟨opens, -⟩ | ⟨other, range, _, keyword, -, ⟨outside, -⟩ | ⟨limit, -, -, rfl, -⟩⟩ :=
    Progress.place_cases placed
  · have apart : Line.headword? text ≠ some name := by
      intro same
      rw [nothing, Line.headKind?, same, Option.bind_some, known] at kinds
      cases kinds
    rw [if_neg apart, Int.add_zero]
    exact before
  · exact absurd (kinds.symm.trans opens) named
  · rw [show progress.blockFound = false from outside] at found
    cases found
  · simp only [Block.occurrences_record, before, (Line.read_known read keyword).1, Option.some.injEq, eq_comm]

theorem step_inner (inner : opensBlock text = false)
    (done : progress.step settings reference row text = (.ok line, next)) :
    next.blockFound = progress.blockFound ∧
      next.block.classes = progress.block.classes ++ Line.acceptedClasses settings reference text := by
  obtain ⟨parsed, block, read, placed⟩ := Progress.step_cases done
  have classes := (Line.read_block read).1
  have named : Line.headKind? text ≠ some .block := by simpa [opensBlock] using inner
  rw [if_neg named] at classes
  have kind := Line.read_kind? read
  -- Placing a rule adds to the counts only, so the classes are those that reading has left.
  obtain ⟨-, -, rfl⟩ | ⟨opens, -⟩ | ⟨name, range, other, -, -, ⟨-, -, rfl⟩ | ⟨limit, -, -, rfl, -⟩⟩ :=
    Progress.place_cases placed
  · exact ⟨rfl, classes⟩
  · exact absurd (kind.symm.trans opens) named
  · exact ⟨rfl, classes⟩
  · exact ⟨rfl, classes⟩

theorem step_remembers_inner (remembers : Remembers settings reference earlier progress)
    (inner : opensBlock text = false) (done : progress.step settings reference row text = (.ok line, next)) :
    Remembers settings reference (earlier ++ [text]) next := by
  obtain ⟨kept, classes⟩ := step_inner inner done
  constructor
  · simp [kept, remembers.found, inner]
  · rw [classes, remembers.classes, currentBlock_inner earlier inner]
    simp
  · intro found name nameKind known notBlock
    have count := remembers.counts (kept ▸ found) name nameKind known notBlock
    rw [step_occurrences inner done (kept ▸ found) known, count, currentBlock_inner earlier inner]
    by_cases same : Line.headword? text = some name
    · simp [List.countP_append, same]
    · simp [List.countP_append, same]

theorem step_remembers (remembers : Remembers settings reference earlier progress)
    (done : progress.step settings reference row text = (.ok line, next)) :
    Remembers settings reference (earlier ++ [text]) next := by
  cases opens : opensBlock text with
  | true => exact step_remembers_opening opens done
  | false => exact step_remembers_inner remembers opens done

theorem after_remembers {texts : List (List Char)} {lines : List Line}
    (done : readLines settings reference row progress texts = .ok lines)
    (remembers : Remembers settings reference earlier progress) :
    Remembers settings reference (earlier ++ texts) (progress.after settings reference row texts) := by
  induction texts generalizing row progress earlier lines with
  | nil => simpa [Progress.after] using remembers
  | cons text rest ih =>
    obtain ⟨line, next, others, first, later, -⟩ := readLines_cons_iff.mp done
    have kept := ih later (step_remembers remembers first)
    simpa [Progress.after, first] using kept

end

theorem remembers_before (settings : Settings) (reference : Reference) {before : List (List Char)} {lines : List Line}
    (done : readLines settings reference 0 {} before = .ok lines) :
    Remembers settings reference before (Progress.after settings reference 0 {} before) :=
  after_remembers done (initial_remembers settings reference)

theorem readLines_of_read {settings : Settings} {reference : Reference} {text : List Char} {document : Document}
    (done : Document.read settings reference text = .ok document) :
    readLines settings reference 0 {} (Text.splitLines text) = .ok document.lines := by
  unfold Document.read at done
  cases read : readLines settings reference 0 {} (Text.splitLines text) with
  | error fault =>
    rw [read] at done
    cases done
  | ok lines =>
    rw [read] at done
    cases done
    rfl

theorem read_ok (settings : Settings) {reference : Reference} (complete : reference.Complete) (text : List Char) :
    ∃ document, read settings reference text = .ok document ∧
      readLines settings reference 0 {} (Text.splitLines text) = .ok document.lines := by
  obtain ⟨lines, done⟩ : ∃ lines, readLines settings reference 0 {} (Text.splitLines text) = .ok lines :=
    readLines_ok complete 0 {} fun _ member => Text.no_break_of_mem_splitLines member
  refine ⟨⟨lines⟩, ?_, done⟩
  rw [read, done]
  rfl

end Document

end LootFilter
