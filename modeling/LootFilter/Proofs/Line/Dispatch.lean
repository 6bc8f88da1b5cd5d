import LootFilter.Proofs.Line.Head

/-! The first word of a line decides what is read: the rule that it names, or no rule at all. -/

set_option autoImplicit false

namespace LootFilter.Line

/-- A line without a rule: it is ignored, or its first word cannot be read or is not of the language. -/
def plain (settings : Settings) (cursor : Cursor) : Line :=
  let line : Line := { row := cursor.row, range := cursor.lineRange }
  if cursor.isIgnorable then line
  else
    match cursor.readWord with
    | (none, _) => { line with findings := [⟨.unreadableKeyword, cursor.lineRange⟩] }
    | (some word, _) =>
      { line with
        findings := if settings.ruleWhitelist.contains word.value then [] else [⟨.unknownKeyword, word.range⟩]
        keyword := some ⟨word.value, word.range, none⟩ }

def ofOutcome (cursor : Cursor) (word : Token String) (kind : Kind) (outcome : Outcome) : Line where
  row := cursor.row
  range := cursor.lineRange
  findings := outcome.findings
  color := outcome.color
  sound := outcome.sound
  keyword := some ⟨word.value, word.range, some kind⟩

def unread? (settings : Settings) (reference : Reference) (row : Int) (text : List Char) (block : Block) :
    Option (List Char) :=
  match head? ⟨row, text, 0⟩ with
  | none => none
  | some (word, cursor) =>
    match Kind.ofKeyword? word.value with
    | none => none
    | some kind =>
      match Rule.read settings reference kind word.value word.range cursor block with
      | .error _ => none
      | .ok (outcome, _) => some outcome.cursor.rest

section
variable (settings : Settings) (reference : Reference) (block : Block) {cursor : Cursor}

theorem readFrom_plain (nothing : (head? cursor).bind (fun found => Kind.ofKeyword? found.1.value) = none) :
    readFrom settings reference cursor block = .ok (plain settings cursor, block) := by
  unfold head? at nothing
  unfold readFrom plain
  split at nothing
  · next ignored => simp only [ignored, if_true]
  · next visible =>
    rcases result : cursor.readWord with ⟨word?, next⟩
    rw [result] at nothing
    simp only [visible]
    cases word? with
    | none => rfl
    | some word =>
      have unknown : Kind.ofKeyword? word.value = none := nothing
      simp only [unknown, Bool.false_eq_true, if_false]
      split
      · rfl
      · rfl

theorem readFrom_rule {word : Token String} {next : Cursor} {kind : Kind} (found : head? cursor = some (word, next))
    (known : Kind.ofKeyword? word.value = some kind) :
    readFrom settings reference cursor block =
      (Rule.read settings reference kind word.value word.range next block).map fun answer =>
        (ofOutcome cursor word kind answer.1, answer.2) := by
  unfold head? at found
  split at found
  · cases found
  · next visible =>
    rcases result : cursor.readWord with ⟨word?, rest⟩
    rw [result] at found
    cases word? with
    | none => cases found
    | some token =>
      cases found
      simp only [readFrom, visible, result, known, Bool.false_eq_true, if_false]
      cases Rule.read settings reference kind word.value word.range next block with
      | error gap => rfl
      | ok answer => rfl

end

section
variable {settings : Settings} {reference : Reference} {row : Int} {text : List Char} {block next : Block} {line : Line}

/-- A line is read as one without a rule, or as the rule that its first word names. -/
theorem read_eq_ok_iff_dispatch :
    Line.read settings reference row text block = .ok (line, next) ↔
      (∀ c ∈ text, Text.isBreak c = false) ∧
      ((headKind? text = none ∧ line = plain settings ⟨row, text, 0⟩ ∧ next = block) ∨
      ∃ word cursor kind outcome, head? ⟨row, text, 0⟩ = some (word, cursor) ∧ Kind.ofKeyword? word.value = some kind ∧
        Rule.read settings reference kind word.value word.range cursor block = .ok (outcome, next) ∧
        line = ofOutcome ⟨row, text, 0⟩ word kind outcome) := by
  rw [read_eq_ok_iff]
  apply and_congr_right'
  cases named : headKind? text with
  | none =>
    rw [headKind?_eq row] at named
    rw [readFrom_plain settings reference block named]
    constructor
    · intro same
      cases same
      exact .inl ⟨rfl, rfl, rfl⟩
    · rintro (⟨-, rfl, rfl⟩ | ⟨word, cursor, kind, outcome, found, known, -⟩)
      · rfl
      · rw [found, Option.bind_some, known] at named
        cases named
  | some kind =>
    obtain ⟨⟨word, cursor⟩, found, known⟩ := Option.bind_eq_some_iff.mp ((headKind?_eq row text).symm.trans named)
    rw [readFrom_rule settings reference block found known]
    constructor
    · intro same
      cases rule : Rule.read settings reference kind word.value word.range cursor block with
      | error gap =>
        rw [rule] at same
        cases same
      | ok answer =>
        rw [rule] at same
        cases same
        exact .inr ⟨word, cursor, kind, answer.1, found, known, rule, rfl⟩
    · rintro (⟨nothing, -⟩ | ⟨word', cursor', kind', outcome, found', known', rule, rfl⟩)
      · cases nothing
      · cases found.symm.trans found'
        cases known.symm.trans known'
        rw [rule]
        rfl

theorem read_eq_ok_iff_rule {word : Token String} {cursor : Cursor} {kind : Kind}
    (found : head? ⟨row, text, 0⟩ = some (word, cursor)) (known : Kind.ofKeyword? word.value = some kind) :
    Line.read settings reference row text block = .ok (line, next) ↔
      (∀ c ∈ text, Text.isBreak c = false) ∧
        ∃ outcome, Rule.read settings reference kind word.value word.range cursor block = .ok (outcome, next) ∧
          line = ofOutcome ⟨row, text, 0⟩ word kind outcome := by
  rw [read_eq_ok_iff, readFrom_rule settings reference block found known, map_eq_ok_iff]
  apply and_congr_right'
  constructor
  · rintro ⟨answer, rule, same⟩
    cases same
    exact ⟨answer.1, rule, rfl⟩
  · rintro ⟨outcome, rule, rfl⟩
    exact ⟨(outcome, next), rule, rfl⟩

/-- What is read from a line depends on the block only if the line names a `BaseType` rule, and then on the classes. -/
theorem read_in_block {other : Block} (classes : headKind? text = some .baseType → other.classes = block.classes)
    (done : Line.read settings reference row text block = .ok (line, next)) :
    ∃ next', Line.read settings reference row text other = .ok (line, next') := by
  obtain ⟨oneLine, ⟨nothing, same, -⟩ | ⟨word, cursor, kind, outcome, found, known, rule, same⟩⟩ :=
    read_eq_ok_iff_dispatch.mp done
  · exact ⟨other, read_eq_ok_iff_dispatch.mpr ⟨oneLine, .inl ⟨nothing, same, rfl⟩⟩⟩
  · have asked : kind = .baseType → other.classes = block.classes := by
      intro named
      apply classes
      rw [headKind?_of_head? found, known, named]
    obtain ⟨next', rule'⟩ := Rule.read_in_block asked rule
    exact ⟨next', read_eq_ok_iff_dispatch.mpr
      ⟨oneLine, .inr ⟨word, cursor, kind, outcome, found, known, rule', same⟩⟩⟩

end

end LootFilter.Line
