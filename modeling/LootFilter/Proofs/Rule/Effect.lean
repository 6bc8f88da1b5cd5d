import LootFilter.Proofs.Rule.Judging

/-! What a rule does to its block, and what it asks of the block. -/

set_option autoImplicit false

namespace LootFilter.Rule

theorem readEquality_cursor (keyword : String) (cursor : Cursor) :
    (readEquality keyword cursor).2 = cursor.readOperator.2 := by
  unfold readEquality
  split
  · next result => rw [result]
  · next result => rw [result]

theorem readValues_accepted (accepts : String → Bool) (keyword : String) (expected : Expectation) (cursor : Cursor) :
    (readValues accepts keyword expected cursor).2 = ((valueTokens cursor).map Token.value).filter accepts := by
  simp only [readValues, readEquality_cursor, judge_accepted, List.nil_append]
  rfl

theorem readValues_cursor (accepts : String → Bool) (keyword : String) (expected : Expectation) (cursor : Cursor) :
    (readValues accepts keyword expected cursor).1.cursor = cursor.readOperator.2.readStrings.2 := by
  simp only [readValues, readEquality_cursor]

def blockAfter (settings : Settings) (reference : Reference) (kind : Kind) (head : Range) (cursor : Cursor)
    (block : Block) : Block :=
  match kind with
  | .block => .start (some head)
  | .itemClass =>
    block.addClasses (((valueTokens cursor).map Token.value).filter (acceptsClass settings reference))
  | _ => block

-- A rule that asks for data first fails without them, and leaves its block alone with them.
theorem block_of_answer {α : Type} {data : Except Reference.Gap α} {answer : α → Outcome} {block next : Block}
    {outcome : Outcome} (done : (do return (answer (← data), block)) = .ok (outcome, next)) : next = block := by
  cases data with
  | error gap => cases done
  | ok found =>
    cases done
    rfl

theorem read_effect {settings : Settings} {reference : Reference} {kind : Kind} {keyword : String} {head : Range}
    {cursor : Cursor} {block next : Block} {outcome : Outcome}
    (done : read settings reference kind keyword head cursor block = .ok (outcome, next)) :
    next = blockAfter settings reference kind head cursor block := by
  cases kind with
  | block =>
    cases done
    rfl
  | number => exact block_of_answer done
  | fontSize => exact block_of_answer done
  | rarity => exact block_of_answer done
  | socketGroup =>
    cases done
    rfl
  | boolean => exact block_of_answer done
  | color => exact block_of_answer done
  | itemClass =>
    cases done
    exact congrArg block.addClasses (readValues_accepted (acceptsClass settings reference) keyword .itemClass cursor)
  | baseType => exact block_of_answer done
  | sound =>
    cases done
    rfl

-- A rule that asks for data first, and for nothing of its block.
theorem answer_in_block {α : Type} {data : Except Reference.Gap α} {answer : α → Outcome} {block next : Block}
    {outcome : Outcome} (other : Block) (done : (do return (answer (← data), block)) = .ok (outcome, next)) :
    (do return (answer (← data), other)) = .ok (outcome, other) := by
  cases data with
  | error gap => cases done
  | ok found =>
    cases done
    rfl

/-- Only a `BaseType` rule asks for anything of its block: the classes. -/
theorem read_in_block {settings : Settings} {reference : Reference} {kind : Kind} {keyword : String} {head : Range}
    {cursor : Cursor} {block other next : Block} {outcome : Outcome}
    (classes : kind = .baseType → other.classes = block.classes)
    (done : read settings reference kind keyword head cursor block = .ok (outcome, next)) :
    ∃ next', read settings reference kind keyword head cursor other = .ok (outcome, next') := by
  cases kind with
  | block => exact ⟨next, done⟩
  | number => exact ⟨other, answer_in_block other done⟩
  | fontSize => exact ⟨other, answer_in_block other done⟩
  | rarity => exact ⟨other, answer_in_block other done⟩
  | socketGroup =>
    cases done
    exact ⟨other, rfl⟩
  | boolean => exact ⟨other, answer_in_block other done⟩
  | color => exact ⟨other, answer_in_block other done⟩
  | itemClass =>
    cases done
    exact ⟨_, rfl⟩
  | baseType =>
    rw [read, ← classes rfl] at done
    exact ⟨other, answer_in_block other done⟩
  | sound =>
    cases done
    exact ⟨other, rfl⟩

end LootFilter.Rule
