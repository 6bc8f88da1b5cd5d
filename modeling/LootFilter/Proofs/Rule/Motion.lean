import LootFilter.Proofs.Scanner.Motion
import LootFilter.Rule

/-! Rules that move with their line: the findings, colour and sound of a rule differ by the move only. -/

set_option autoImplicit false

namespace LootFilter

/-- Both computations answer, and the answers are related, or both fail for one cause. -/
inductive Agree {ε α β : Type} (related : α → β → Prop) : Except ε α → Except ε β → Prop where
  | ok {first : α} {second : β} : related first second → Agree related (.ok first) (.ok second)
  | error (cause : ε) : Agree related (.error cause) (.error cause)

structure Outcome.Moved (move : Move) (first second : Outcome) : Prop where
  findings : second.findings = first.findings.map (Finding.move move)
  color : second.color = first.color.map (ColorMark.move move)
  sound : second.sound = first.sound.map (SoundMark.move move)

/-- Blocks that rules cannot tell apart: only their heads may differ. -/
structure Block.Alike (first second : Block) : Prop where
  classes : second.classes = first.classes
  counts : second.counts = first.counts

namespace Rule

def Identifier.move (move : Move) (identifier : Identifier) : Identifier :=
  { identifier with range := identifier.range.move move }

section
variable {move : Move} {related : Cursor → Cursor → Prop}

theorem finish_moved (motion : Motion move related) {cursor other : Cursor} (same : related cursor other)
    (findings : List Finding) :
    finish (findings.map (Finding.move move)) other = (finish findings cursor).map (Finding.move move) := by
  unfold finish
  rw [motion.isIgnorable same, List.isEmpty_map]
  split
  · next left_over =>
    have visible : cursor.isIgnorable = false := by simpa using (Bool.and_eq_true_iff.mp left_over).2
    rw [motion.restRange same visible]
    rfl
  · rfl

theorem missing_moved (motion : Motion move related) {cursor other : Cursor} (same : related cursor other)
    (keyword : String) (expected : Expectation) :
    missing keyword expected other = (missing keyword expected cursor).move move := by
  unfold missing
  rw [motion.lineRange same]
  rfl

theorem readEquality_moved (motion : Motion move related) {cursor other : Cursor} (same : related cursor other)
    (keyword : String) :
    ∃ findings next next', readEquality keyword cursor = (findings, next) ∧
      readEquality keyword other = (findings.map (Finding.move move), next') ∧ related next next' := by
  obtain ⟨token?, next, next', result, result', cursors⟩ := (motion.operator same).cases
  cases token? with
  | none => exact ⟨[], next, next', by simp only [readEquality, result], by simp [readEquality, result'], cursors⟩
  | some token =>
    refine ⟨(readEquality keyword cursor).1, next, next', by simp only [readEquality, result], ?_, cursors⟩
    simp only [readEquality, result, result', Option.map_some, Token.move]
    split
    · rfl
    · rfl

theorem readBlock_moved (motion : Motion move related) {cursor other : Cursor} (same : related cursor other) :
    (readBlock cursor).Moved move (readBlock other) := by
  refine ⟨?_, rfl, rfl⟩
  simp only [readBlock, motion.isIgnorable same]
  split
  · rfl
  · next visible =>
    rw [motion.restRange same (by simpa using visible)]
    rfl

theorem readNumberAfter_moved (motion : Motion move related) {cursor other : Cursor} (same : related cursor other)
    (limits : Limits) (keyword : String) (findings : List Finding) :
    (readNumberAfter limits keyword findings cursor).Moved move
      (readNumberAfter limits keyword (findings.map (Finding.move move)) other) := by
  obtain ⟨token?, next, next', result, result', cursors⟩ := (motion.number same).cases
  refine ⟨?_, rfl, rfl⟩
  simp only [readNumberAfter, result, result']
  rw [← finish_moved motion cursors, List.map_append]
  congr 2
  cases token? with
  | none =>
    change [missing keyword (.number limits) next'] = [(missing keyword (.number limits) next).move move]
    rw [missing_moved motion cursors]
  | some token =>
    change (if limits.contains token.value then _ else _) = List.map _ (if limits.contains token.value then _ else _)
    split
    · rfl
    · rfl

theorem readChoice_moved (motion : Motion move related) {cursor other : Cursor} (same : related cursor other)
    (accepts : String → Bool) (expected : Expectation) (keyword : String) (findings : List Finding) :
    (readChoice accepts expected keyword findings cursor).Moved move
      (readChoice accepts expected keyword (findings.map (Finding.move move)) other) := by
  obtain ⟨token?, next, next', result, result', cursors⟩ := (motion.string same).cases
  refine ⟨?_, rfl, rfl⟩
  simp only [readChoice, result, result']
  rw [← finish_moved motion cursors, List.map_append]
  congr 2
  cases token? with
  | none =>
    change [missing keyword expected next'] = [(missing keyword expected next).move move]
    rw [missing_moved motion cursors]
  | some token =>
    change (if accepts token.value then _ else _) = List.map _ (if accepts token.value then _ else _)
    split
    · rfl
    · rfl

theorem readBoolean_moved (motion : Motion move related) {cursor other : Cursor} (same : related cursor other)
    (reference : Reference) (keyword : String) :
    Agree (Outcome.Moved move) (readBoolean reference keyword cursor) (readBoolean reference keyword other) := by
  obtain ⟨findings, middle, middle', equality, equality', middles⟩ := readEquality_moved motion same keyword
  obtain ⟨token?, next, next', result, result', cursors⟩ := (motion.boolean middles).cases
  cases token? with
  | none =>
    simp only [readBoolean, equality, equality', result, result', Option.map_none]
    cases reference.booleanWords keyword with
    | error gap => exact .error gap
    | ok names =>
      refine .ok ⟨?_, rfl, rfl⟩
      change _ ++ [_] = List.map _ (findings ++ [_])
      rw [List.map_append, motion.lineRange cursors]
      rfl
  | some token =>
    simp only [readBoolean, equality, equality', result, result', Option.map_some]
    exact .ok ⟨finish_moved motion cursors findings, rfl, rfl⟩

theorem readChannels_moved (motion : Motion move related) (limits : Limits) (keyword : String) (count : Nat)
    {cursor other : Cursor} (same : related cursor other) :
    ∃ findings channels? next next', readChannels limits keyword count cursor = (findings, channels?, next) ∧
      readChannels limits keyword count other =
        (findings.map (Finding.move move), channels?.map (List.map (Token.move move)), next') ∧
      related next next' := by
  induction count generalizing cursor other with
  | zero => exact ⟨[], some [], cursor, other, rfl, rfl, same⟩
  | succ count ih =>
    obtain ⟨token?, next, next', result, result', cursors⟩ := (motion.number same).cases
    cases token? with
    | none =>
      refine ⟨[missing keyword (.channels limits) cursor], none, cursor, other, ?_, ?_, same⟩
      · simp only [readChannels, result]
      · simp only [readChannels, result', Option.map_none, missing_moved motion same]
        rfl
    | some token =>
      obtain ⟨findings, channels?, last, last', later, later', lasts⟩ := ih cursors
      by_cases inside : limits.spans token.value = true
      · refine ⟨findings, channels?.map (token :: ·), last, last', ?_, ?_, lasts⟩
        · simp only [readChannels, result, later, inside, if_true]
        · simp only [readChannels, result', later', Option.map_some, Token.move, inside, if_true, Option.map_map]
          rfl
      · refine ⟨invalid keyword (.channels limits) token.range :: findings, channels?, last, last', ?_, ?_, lasts⟩
        · simp [readChannels, result, later, inside]
        · simp only [readChannels, result', later', Option.map_some, Token.move, inside]
          rfl

theorem colorMark?_moved (channels : List (Token Int)) (alpha? : Option (Token Int)) :
    colorMark? (channels.map (Token.move move)) (alpha?.map (Token.move move)) =
      (colorMark? channels alpha?).map (ColorMark.move move) := by
  -- Only three channels make a colour.
  match channels with
  | [] => rfl
  | [_] => rfl
  | [_, _] => rfl
  | [_, _, _] => cases alpha? <;> rfl
  | _ :: _ :: _ :: _ :: _ => rfl

theorem readColor_moved (motion : Motion move related) {cursor other : Cursor} (same : related cursor other)
    (limits : Limits) (keyword : String) :
    (readColor limits keyword cursor).Moved move (readColor limits keyword other) := by
  obtain ⟨findings, middle, middle', equality, equality', middles⟩ := readEquality_moved motion same keyword
  obtain ⟨own, channels?, last, last', channels, channels', lasts⟩ := readChannels_moved motion limits keyword 3 middles
  cases channels? with
  | none =>
    simp only [readColor, equality, equality', channels, channels', Option.map_none]
    exact ⟨(List.map_append).symm, rfl, rfl⟩
  | some found =>
    obtain ⟨alpha?, final, final', alpha, alpha', finals⟩ := (motion.number lasts).cases
    simp only [readColor, equality, equality', channels, channels', Option.map_some, alpha, alpha']
    refine ⟨?_, ?_, rfl⟩
    · simp only
      rw [← finish_moved motion finals]
      congr 1
      simp only [List.map_append, List.append_cancel_left_eq]
      cases alpha? with
      | none => rfl
      | some token =>
        cases inside : limits.spans token.value <;> simp [Option.filter, Token.move, inside, invalid, Finding.move]
    · simp only
      rw [← colorMark?_moved]
      cases alpha? with
      | none => rfl
      | some token => cases inside : limits.spans token.value <;> simp [Option.filter, Token.move, inside]

theorem readIdentifier_moved (motion : Motion move related) {cursor other : Cursor} (same : related cursor other)
    (settings : Settings) (sounds : Sounds) (keyword : String) :
    ∃ answer next next', readIdentifier settings sounds keyword cursor = (answer, next) ∧
      readIdentifier settings sounds keyword other =
        (answer.map fun found => (found.1.map (Finding.move move), found.2.map (Identifier.move move)), next') ∧
      related next next' := by
  obtain ⟨word?, next, next', word, word', cursors⟩ := (motion.word same).cases
  cases word? with
  | some token =>
    refine ⟨(readIdentifier settings sounds keyword cursor).1, next, next', ?_, ?_, cursors⟩
    · simp only [readIdentifier, word]
      split
      · rfl
      · split <;> rfl
    · simp only [readIdentifier, word, word', Option.map_some, Token.move]
      split
      · rfl
      · split <;> rfl
  | none =>
    obtain ⟨number?, last, last', number, number', lasts⟩ := (motion.number cursors).cases
    cases number? with
    | none =>
      refine ⟨none, last, last', ?_, ?_, lasts⟩
      · simp only [readIdentifier, word, number]
      · simp only [readIdentifier, word', number', Option.map_none]
    | some token =>
      refine ⟨(readIdentifier settings sounds keyword cursor).1, last, last', ?_, ?_, lasts⟩
      · simp only [readIdentifier, word, number]
        split <;> rfl
      · simp only [readIdentifier, word, word', number, number', Option.map_none, Option.map_some, Token.move]
        split <;> rfl

theorem readVolume_moved (motion : Motion move related) {cursor other : Cursor} (same : related cursor other)
    (keyword : String) :
    ∃ findings volume next next', readVolume keyword cursor = (findings, volume, next) ∧
      readVolume keyword other = (findings.map (Finding.move move), volume, next') ∧ related next next' := by
  obtain ⟨number?, next, next', number, number', cursors⟩ := (motion.number same).cases
  cases number? with
  | none =>
    refine ⟨[], defaultVolume, next, next', ?_, ?_, cursors⟩
    · simp only [readVolume, number]
    · simp only [readVolume, number', Option.map_none, List.map_nil]
  | some token =>
    refine ⟨(readVolume keyword cursor).1, (readVolume keyword cursor).2.1, next, next', ?_, ?_, cursors⟩
    · simp only [readVolume, number]
      split <;> rfl
    · simp only [readVolume, number, number', Option.map_some, Token.move]
      split <;> rfl

theorem readSound_moved (motion : Motion move related) {cursor other : Cursor} (same : related cursor other)
    (settings : Settings) (sounds : Sounds) (keyword : String) :
    (readSound settings sounds keyword cursor).Moved move (readSound settings sounds keyword other) := by
  obtain ⟨findings, middle, middle', equality, equality', middles⟩ := readEquality_moved motion same keyword
  obtain ⟨answer, last, last', identifier, identifier', lasts⟩ :=
    readIdentifier_moved motion middles settings sounds keyword
  cases answer with
  | none =>
    simp only [readSound, equality, equality', identifier, identifier', Option.map_none]
    refine ⟨?_, rfl, rfl⟩
    simp only [List.map_append, missing_moved motion lasts, List.map_cons, List.map_nil]
  | some found =>
    obtain ⟨late, volume, final, final', loudness, loudness', finals⟩ := readVolume_moved motion lasts keyword
    simp only [readSound, equality, equality', identifier, identifier', loudness, loudness', Option.map_some]
    refine ⟨?_, rfl, ?_⟩
    · simp only [← finish_moved motion finals, List.map_append]
    · simp only [Option.map_map]
      rfl

theorem judge_moved (accepts : String → Bool) (keyword : String) (expected : Expectation) (accepted : List String)
    (tokens : List (Token String)) :
    judge accepts keyword expected accepted (tokens.map (Token.move move)) =
      ((judge accepts keyword expected accepted tokens).1.map (Finding.move move),
        (judge accepts keyword expected accepted tokens).2) := by
  induction tokens generalizing accepted with
  | nil => rfl
  | cons token rest ih =>
    have repeated : (if accepted.contains token.value then [⟨.duplicateValue keyword, token.range.move move⟩] else []) =
        (if accepted.contains token.value then [⟨.duplicateValue keyword, token.range⟩] else [] : List Finding).map
          (Finding.move move) := by
      split <;> rfl
    simp only [List.map_cons, judge, Token.move, ih, repeated]
    split
    · rw [List.map_append]
    · rw [List.map_append, List.map_cons]
      rfl

theorem readValues_moved (motion : Motion move related) {cursor other : Cursor} (same : related cursor other)
    (accepts : String → Bool) (keyword : String) (expected : Expectation) :
    (readValues accepts keyword expected cursor).1.Moved move (readValues accepts keyword expected other).1 ∧
      (readValues accepts keyword expected other).2 = (readValues accepts keyword expected cursor).2 := by
  -- The tokens move as a list, and judging looks at their values only.
  obtain ⟨findings, middle, middle', equality, equality', middles⟩ := readEquality_moved motion same keyword
  obtain ⟨tokens, lasts⟩ := motion.strings middles
  simp only [readValues, equality, equality', tokens, judge_moved, and_true]
  refine ⟨?_, rfl, rfl⟩
  simp only [← finish_moved motion lasts, List.map_append]
  congr 2
  split
  · rw [motion.lineRange lasts]
    rfl
  · rfl

theorem valueTokens_moved (motion : Motion move related) {cursor other : Cursor} (same : related cursor other) :
    valueTokens other = (valueTokens cursor).map (Token.move move) :=
  (motion.strings (motion.operator same).2).1

theorem readBaseType_moved (motion : Motion move related) {cursor other : Cursor} (same : related cursor other)
    (settings : Settings) (reference : Reference) (classes : List String) (keyword : String) :
    Agree (fun first second => first.Moved move second) (readBaseType settings reference classes keyword cursor)
      (readBaseType settings reference classes keyword other) := by
  have answered : (valueTokens other).all ((Pool.choose reference classes).answers ·.value) =
      (valueTokens cursor).all ((Pool.choose reference classes).answers ·.value) := by
    rw [valueTokens_moved motion same, List.all_map]
    rfl
  simp only [readBaseType, answered]
  split
  · exact .ok (readValues_moved motion same _ keyword _).1
  · exact .error _

/-- A rule that opens a block asks for nothing of the block before. -/
theorem read_moved (motion : Motion move related) {cursor other : Cursor} (same : related cursor other)
    (settings : Settings) (reference : Reference) (kind : Kind) (keyword : String) (head head' : Range)
    {block block' : Block} (alike : kind ≠ .block → block.Alike block') :
    Agree (fun first second => first.1.Moved move second.1 ∧ first.2.Alike second.2)
      (read settings reference kind keyword head cursor block)
      (read settings reference kind keyword head' other block') := by
  cases kind with
  | block => exact .ok ⟨readBlock_moved motion same, rfl, rfl⟩
  | number =>
    simp only [read]
    cases reference.limitsOf keyword with
    | error gap => exact .error gap
    | ok limits => exact .ok ⟨readNumberAfter_moved motion (motion.operator same).2 limits keyword [], alike nofun⟩
  | fontSize =>
    simp only [read]
    cases reference.limitsOf keyword with
    | error gap => exact .error gap
    | ok limits =>
      obtain ⟨findings, middle, middle', equality, equality', middles⟩ := readEquality_moved motion same keyword
      refine .ok ⟨?_, alike nofun⟩
      simp only [readFontSize, equality, equality']
      exact readNumberAfter_moved motion middles limits keyword findings
  | rarity =>
    simp only [read, readRarity]
    cases reference.rarityWords keyword with
    | error gap => exact .error gap
    | ok names => exact .ok ⟨readChoice_moved motion (motion.operator same).2 _ _ keyword [], alike nofun⟩
  | socketGroup =>
    obtain ⟨findings, middle, middle', equality, equality', middles⟩ := readEquality_moved motion same keyword
    refine .ok ⟨?_, alike nofun⟩
    simp only [readSocketGroup, equality, equality']
    exact readChoice_moved motion middles _ _ keyword findings
  | boolean =>
    have moved := readBoolean_moved motion same reference keyword
    simp only [read]
    generalize readBoolean reference keyword cursor = first at moved ⊢
    generalize readBoolean reference keyword other = second at moved ⊢
    cases moved with
    | ok good => exact .ok ⟨good, alike nofun⟩
    | error gap => exact .error gap
  | color =>
    simp only [read]
    cases reference.limitsOf keyword with
    | error gap => exact .error gap
    | ok limits => exact .ok ⟨readColor_moved motion same limits keyword, alike nofun⟩
  | itemClass =>
    obtain ⟨moved, accepted⟩ := readValues_moved motion same (acceptsClass settings reference) keyword .itemClass
    have classes := (alike nofun).classes
    refine .ok ⟨moved, ?_, (alike nofun).counts⟩
    change block'.classes ++ _ = block.classes ++ _
    rw [classes]
    exact congrArg (block.classes ++ ·) accepted
  | baseType =>
    have moved := readBaseType_moved motion same settings reference block.classes keyword
    simp only [read, (alike nofun).classes]
    generalize readBaseType settings reference block.classes keyword cursor = first at moved ⊢
    generalize readBaseType settings reference block.classes keyword other = second at moved ⊢
    cases moved with
    | ok good => exact .ok ⟨good, alike nofun⟩
    | error gap => exact .error gap
  | sound => exact .ok ⟨readSound_moved motion same settings reference.sounds keyword, alike nofun⟩

end

end Rule

end LootFilter
