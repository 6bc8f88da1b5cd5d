import LootFilter.Proofs.Rule.Acceptance
import LootFilter.Proofs.Rule.Effect
import LootFilter.Proofs.Scanner.Motion

/-! The first word of a line, and what reading the line does to the block. -/

set_option autoImplicit false

namespace LootFilter.Line

/-- The first word of a line that is not ignored, and the cursor behind it. -/
def head? (cursor : Cursor) : Option (Token String × Cursor) :=
  if cursor.isIgnorable then none
  else
    match cursor.readWord with
    | (none, _) => none
    | (some word, next) => some (word, next)

def headword? (text : List Char) : Option String := (head? ⟨0, text, 0⟩).map (·.1.value)

def headKind? (text : List Char) : Option Kind := (headword? text).bind Kind.ofKeyword?

def values (row : Int) (text : List Char) : List (Token String) :=
  match head? ⟨row, text, 0⟩ with
  | none => []
  | some (_, cursor) => Rule.valueTokens cursor

def acceptedClasses (settings : Settings) (reference : Reference) (text : List Char) : List String :=
  if headKind? text = some .itemClass then
    ((values 0 text).map Token.value).filter (Rule.acceptsClass settings reference)
  else []

theorem acceptedClasses_of_other (settings : Settings) (reference : Reference) {text : List Char}
    (other : headKind? text ≠ some .itemClass) : acceptedClasses settings reference text = [] := if_neg other

theorem readWord_of_head? {cursor next : Cursor} {word : Token String} (found : head? cursor = some (word, next)) :
    cursor.readWord = (some word, next) := by
  unfold head? at found
  split at found
  · cases found
  · split at found
    · cases found
    · next result =>
      cases found
      exact result

/-! ## Rows -/

theorem head?_down (count : Int) (cursor : Cursor) :
    head? (cursor.down count) =
      (head? cursor).map fun found => (found.1.move (Move.down count), found.2.down count) := by
  have word := Cursor.read_down Lexeme.word count cursor
  have ignored : (cursor.down count).isIgnorable = cursor.isIgnorable := rfl
  simp only [head?, ignored, Cursor.readWord, word]
  split
  · rfl
  · rcases Cursor.read Lexeme.word cursor with ⟨word?, next⟩
    cases word? with
    | none => rfl
    | some word => rfl

theorem start_down (row : Int) (text : List Char) : (⟨0, text, 0⟩ : Cursor).down row = ⟨row, text, 0⟩ := by
  simp [Cursor.down]

theorem headword?_eq (row : Int) (text : List Char) : headword? text = (head? ⟨row, text, 0⟩).map (·.1.value) := by
  rw [← start_down, head?_down, Option.map_map]
  rfl

theorem headKind?_eq (row : Int) (text : List Char) :
    headKind? text = (head? ⟨row, text, 0⟩).bind fun found => Kind.ofKeyword? found.1.value := by
  rw [headKind?, headword?_eq row]
  cases head? ⟨row, text, 0⟩ with
  | none => rfl
  | some found => rfl

theorem headKind?_of_head? {row : Int} {text : List Char} {word : Token String} {cursor : Cursor}
    (found : head? ⟨row, text, 0⟩ = some (word, cursor)) : headKind? text = Kind.ofKeyword? word.value := by
  rw [headKind?_eq row, found]
  rfl

theorem valueTokens_down (count : Int) (cursor : Cursor) :
    Rule.valueTokens (cursor.down count) = (Rule.valueTokens cursor).map (Token.move (Move.down count)) := by
  have motion := Cursor.motion_down count
  have below : Cursor.Below count cursor (cursor.down count) := rfl
  exact (motion.strings (motion.operator below).2).1

-- A row says where the values stand, not what they are.
theorem values_value (row : Int) (text : List Char) :
    (values row text).map Token.value = (values 0 text).map Token.value := by
  simp only [values, ← start_down row, head?_down]
  cases head? ⟨0, text, 0⟩ with
  | none => rfl
  | some found =>
    simp only [Option.map_some, valueTokens_down, List.map_map]
    rfl

/-! ## What is read -/

section
variable {settings : Settings} {reference : Reference} {row : Int} {text : List Char} {block next : Block} {line : Line}

theorem read_eq_ok_iff {answer : Line × Block} :
    Line.read settings reference row text block = .ok answer ↔
      (∀ c ∈ text, Text.isBreak c = false) ∧ readFrom settings reference ⟨row, text, 0⟩ block = .ok answer := by
  unfold Line.read Cursor.ofLine?
  by_cases broken : text.any Text.isBreak = true
  · simp only [broken, if_true]
    refine ⟨nofun, fun both => ?_⟩
    obtain ⟨c, member, breaks⟩ := List.any_eq_true.mp broken
    rw [both.1 c member] at breaks
    cases breaks
  · have oneLine : ∀ c ∈ text, Text.isBreak c = false := by simpa using broken
    simp only [broken, Bool.false_eq_true, if_false, iff_true_intro oneLine, true_and]
    cases readFrom settings reference ⟨row, text, 0⟩ block with
    | error gap => simp [Except.mapError]
    | ok found => simp [Except.mapError]

/-- A line has no first word, or one that is no keyword, or it is read as the rule that its keyword names. -/
theorem read_cases (done : Line.read settings reference row text block = .ok (line, next)) :
    line.row = row ∧
    ((head? ⟨row, text, 0⟩ = none ∧ line.keyword = none ∧ next = block) ∨
    (∃ word cursor, head? ⟨row, text, 0⟩ = some (word, cursor) ∧ Kind.ofKeyword? word.value = none ∧
      line.keyword = some ⟨word.value, word.range, none⟩ ∧ next = block) ∨
    ∃ word cursor kind outcome, head? ⟨row, text, 0⟩ = some (word, cursor) ∧ Kind.ofKeyword? word.value = some kind ∧
      Rule.read settings reference kind word.value word.range cursor block = .ok (outcome, next) ∧
      line.keyword = some ⟨word.value, word.range, some kind⟩ ∧ line.findings = outcome.findings) := by
  -- The cases of the reader, one by one; only a known keyword can fail, for want of data.
  have result := (read_eq_ok_iff.mp done).2
  unfold readFrom at result
  split at result
  · next ignored =>
    cases result
    exact ⟨rfl, .inl ⟨by rw [head?, if_pos ignored], rfl, rfl⟩⟩
  · next visible =>
    split at result
    · next cursor nothing =>
      cases result
      exact ⟨rfl, .inl ⟨by rw [head?, if_neg visible, nothing], rfl, rfl⟩⟩
    · next word cursor found =>
      have head : head? ⟨row, text, 0⟩ = some (word, cursor) := by rw [head?, if_neg visible, found]
      cases known : Kind.ofKeyword? word.value with
      | none =>
        simp only [known] at result
        split at result
        · cases result
          exact ⟨rfl, .inr (.inl ⟨word, cursor, head, known, rfl, rfl⟩)⟩
        · cases result
          exact ⟨rfl, .inr (.inl ⟨word, cursor, head, known, rfl, rfl⟩)⟩
      | some kind =>
        simp only [known] at result
        cases rule : Rule.read settings reference kind word.value word.range cursor block with
        | error gap =>
          rw [rule] at result
          cases result
        | ok answer =>
          rw [rule] at result
          cases result
          exact ⟨rfl, .inr (.inr ⟨word, cursor, kind, answer.1, head, known, rule, rfl, rfl⟩)⟩

theorem read_keyword (done : Line.read settings reference row text block = .ok (line, next)) :
    line.keyword.map (fun mark => (mark.name, mark.kind)) =
      (headword? text).map (fun name => (name, Kind.ofKeyword? name)) := by
  rw [headword?_eq row]
  obtain ⟨none, keyword, -⟩ | ⟨word, cursor, found, unknown, keyword, -⟩ |
    ⟨word, cursor, kind, outcome, found, known, -, keyword, -⟩ := (read_cases done).2
  · rw [none, keyword]
    rfl
  · rw [found, keyword]
    simp only [Option.map_some, unknown]
  · rw [found, keyword]
    simp only [Option.map_some, known]

theorem read_known (done : Line.read settings reference row text block = .ok (line, next)) {name : String}
    {range : Range} {kind : Kind} (mark : line.keyword = some ⟨name, range, some kind⟩) :
    headword? text = some name ∧ Kind.ofKeyword? name = some kind := by
  have keyword := read_keyword done
  rw [mark] at keyword
  obtain ⟨other, found, same⟩ := Option.map_eq_some_iff.mp keyword.symm
  obtain ⟨rfl, known⟩ := Prod.mk.inj same
  exact ⟨found, known⟩

theorem read_kind? (done : Line.read settings reference row text block = .ok (line, next)) :
    line.kind? = headKind? text := by
  have keyword := read_keyword done
  rw [kind?, headKind?]
  cases mark : line.keyword with
  | none =>
    rw [mark] at keyword
    rw [Option.map_eq_none_iff.mp keyword.symm]
    rfl
  | some held =>
    rw [mark] at keyword
    obtain ⟨name, found, same⟩ := Option.map_eq_some_iff.mp keyword.symm
    rw [found]
    exact (congrArg Prod.snd same).symm

/-- A line that opens a block forgets the classes and counts of the one before; a `Class` rule adds the values that it
accepts, and no other line changes anything. -/
theorem read_block (done : Line.read settings reference row text block = .ok (line, next)) :
    next.classes = (if headKind? text = some .block then [] else
      block.classes ++ acceptedClasses settings reference text) ∧
    next.counts = (if headKind? text = some .block then .empty else block.counts) := by
  obtain ⟨none, -, rfl⟩ | ⟨word, cursor, found, unknown, -, rfl⟩ |
    ⟨word, cursor, kind, outcome, found, known, rule, -⟩ := (read_cases done).2
  · have nothing : headKind? text = .none := by
      rw [headKind?, headword?_eq row, none]
      rfl
    simp [nothing, acceptedClasses]
  · have nothing : headKind? text = .none := by rw [headKind?_of_head? found, unknown]
    simp [nothing, acceptedClasses]
  · have named : headKind? text = some kind := by rw [headKind?_of_head? found, known]
    -- Of all the kinds only a block and a class leave another block behind.
    have after : values row text = Rule.valueTokens cursor := by simp only [values, found]
    rw [Rule.read_effect rule]
    simp only [acceptedClasses, named, Option.some.injEq, ← values_value row, after]
    cases kind <;> simp [Rule.blockAfter, Block.start, Block.addClasses]

end

end LootFilter.Line
