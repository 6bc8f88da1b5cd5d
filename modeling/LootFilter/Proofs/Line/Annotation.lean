import LootFilter.Proofs.Line.Dispatch
import LootFilter.Proofs.Scanner.Annotation

/-! A comment behind a clean rule that takes no list of values: the rule reads the same values and stops at the same
place, so that the comment is all it leaves. -/

set_option autoImplicit false

namespace LootFilter

open Cursor (Prolonged)

structure Outcome.Repeats (first second : Outcome) : Prop where
  findings : second.findings = first.findings
  color : second.color = first.color
  sound : second.sound = first.sound

/-! ## Rules -/

namespace Rule

section
variable {tail : List Char} {cursor other : Cursor}

theorem finish_annotated (remark : Remark tail) (prolonged : Prolonged tail cursor other) {findings : List Finding}
    (clean : finish findings cursor = []) : finish findings other = finish findings cursor := by
  obtain ⟨nothing, ignorable⟩ := finish_eq_nil_iff.mp clean
  rw [clean, finish_eq_nil_iff, prolonged.rest]
  exact ⟨nothing, ignorable.remark remark⟩

theorem readBlock_annotated (remark : Remark tail) (prolonged : Prolonged tail cursor other)
    (clean : (readBlock cursor).findings = []) : (readBlock cursor).Repeats (readBlock other) := by
  have ignored : cursor.isIgnorable = true := by
    by_contra visible
    simp [readBlock, visible] at clean
  refine ⟨?_, rfl, rfl⟩
  simp only [readBlock, ignored, prolonged.isIgnorable remark ignored, if_true]

theorem readEquality_annotated (remark : Remark tail) (prolonged : Prolonged tail cursor other) (keyword : String) :
    ∃ findings next next', readEquality keyword cursor = (findings, next) ∧
      readEquality keyword other = (findings, next') ∧ Prolonged tail next next' := by
  obtain ⟨token?, next, next', result, result', nexts⟩ := (prolonged.operator remark).cases
  cases token? with
  | none => exact ⟨[], next, next', by simp only [readEquality, result], by simp only [readEquality, result'], nexts⟩
  | some token =>
    refine ⟨(readEquality keyword cursor).1, next, next', ?_, ?_, nexts⟩
    · simp only [readEquality, result]
    · simp only [readEquality, result, result']

theorem readNumberAfter_annotated (remark : Remark tail) (prolonged : Prolonged tail cursor other) {limits : Limits}
    {keyword : String} {findings : List Finding}
    (clean : (readNumberAfter limits keyword findings cursor).findings = []) :
    (readNumberAfter limits keyword findings cursor).Repeats (readNumberAfter limits keyword findings other) := by
  obtain ⟨token?, next, next', result, result', nexts⟩ := (prolonged.number remark).cases
  simp only [readNumberAfter, result, result'] at clean ⊢
  cases token? with
  | none => simp [finish_eq_nil_iff] at clean
  | some token => exact ⟨finish_annotated remark nexts clean, rfl, rfl⟩

theorem readChoice_annotated (remark : Remark tail) (prolonged : Prolonged tail cursor other)
    {accepts : String → Bool} {expected : Expectation} {keyword : String} {findings : List Finding}
    (clean : (readChoice accepts expected keyword findings cursor).findings = []) :
    (readChoice accepts expected keyword findings cursor).Repeats
      (readChoice accepts expected keyword findings other) := by
  rcases result : cursor.readString with ⟨token?, next⟩
  cases token? with
  | none => simp [readChoice, result, finish_eq_nil_iff] at clean
  | some token =>
    obtain ⟨next', result', nexts⟩ := prolonged.read_some Lexeme.captures_string remark.endsHere result
    change other.readString = (some token, next') at result'
    simp only [readChoice, result, result'] at clean ⊢
    exact ⟨finish_annotated remark nexts clean, rfl, rfl⟩

theorem readBoolean_annotated (remark : Remark tail) (prolonged : Prolonged tail cursor other) {reference : Reference}
    {keyword : String} {outcome : Outcome} (done : readBoolean reference keyword cursor = .ok outcome)
    (clean : outcome.findings = []) :
    ∃ again, readBoolean reference keyword other = .ok again ∧ outcome.Repeats again := by
  obtain ⟨findings, middle, middle', equality, equality', middles⟩ := readEquality_annotated remark prolonged keyword
  rcases result : middle.readBoolean with ⟨token?, next⟩
  simp only [readBoolean, equality, result] at done
  cases token? with
  | none =>
    -- Without a boolean there is a finding, or no answer at all.
    cases words : reference.booleanWords keyword with
    | error gap =>
      rw [words] at done
      cases done
    | ok names =>
      rw [words] at done
      cases done
      simp at clean
  | some token =>
    cases done
    obtain ⟨next', result', nexts⟩ := middles.read_some Lexeme.captures_boolean remark.endsHere result
    change middle'.readBoolean = (some token, next') at result'
    simp only [readBoolean, equality', result']
    exact ⟨_, rfl, finish_annotated remark nexts clean, rfl, rfl⟩

theorem readChannels_annotated (remark : Remark tail) {limits : Limits} {keyword : String} {count : Nat}
    (prolonged : Prolonged tail cursor other) (clean : (readChannels limits keyword count cursor).1 = []) :
    ∃ channels next next', readChannels limits keyword count cursor = ([], some channels, next) ∧
      readChannels limits keyword count other = ([], some channels, next') ∧ Prolonged tail next next' := by
  induction count generalizing cursor other with
  | zero => exact ⟨[], cursor, other, rfl, rfl, prolonged⟩
  | succ count ih =>
    obtain ⟨token?, next, next', result, result', nexts⟩ := (prolonged.number remark).cases
    cases token? with
    | none => simp [readChannels, result] at clean
    | some token =>
      cases inside : limits.spans token.value with
      | false => simp [readChannels, result, inside] at clean
      | true =>
        simp only [readChannels, result, inside, if_true] at clean
        obtain ⟨channels, last, last', later, later', lasts⟩ := ih nexts clean
        refine ⟨token :: channels, last, last', ?_, ?_, lasts⟩
        · simp only [readChannels, result, inside, if_true, later, Option.map_some]
        · simp only [readChannels, result', inside, if_true, later', Option.map_some]

theorem readColor_annotated (remark : Remark tail) (prolonged : Prolonged tail cursor other) {limits : Limits}
    {keyword : String} (clean : (readColor limits keyword cursor).findings = []) :
    (readColor limits keyword cursor).Repeats (readColor limits keyword other) := by
  obtain ⟨findings, middle, middle', equality, equality', middles⟩ := readEquality_annotated remark prolonged keyword
  have own : (readChannels limits keyword 3 middle).1 = [] := by
    rcases result : readChannels limits keyword 3 middle with ⟨own, channels?, last⟩
    simp only [readColor, equality, result] at clean
    cases channels? with
    | none => exact (List.append_eq_nil_iff.mp clean).2
    | some channels =>
      simp only [finish_eq_nil_iff, List.append_eq_nil_iff] at clean
      exact clean.1.1.2
  obtain ⟨channels, last, last', result, result', lasts⟩ := readChannels_annotated remark middles own
  -- The alpha is looked for where the comment may stand now.
  obtain ⟨alpha?, final, final', alpha, alpha', finals⟩ := (lasts.number remark).cases
  simp only [readColor, equality, equality', result, result', alpha, alpha'] at clean ⊢
  exact ⟨finish_annotated remark finals clean, rfl, rfl⟩

theorem readIdentifier_annotated (remark : Remark tail) (prolonged : Prolonged tail cursor other)
    (settings : Settings) (sounds : Sounds) (keyword : String) :
    ∃ answer next next', readIdentifier settings sounds keyword cursor = (answer, next) ∧
      readIdentifier settings sounds keyword other = (answer, next') ∧ Prolonged tail next next' := by
  obtain ⟨word?, next, next', word, word', nexts⟩ := (prolonged.word remark).cases
  cases word? with
  | some token =>
    refine ⟨(readIdentifier settings sounds keyword cursor).1, next, next', ?_, ?_, nexts⟩
    · simp only [readIdentifier, word]
      split
      · rfl
      · split <;> rfl
    · simp only [readIdentifier, word, word']
      split
      · rfl
      · split <;> rfl
  | none =>
    obtain ⟨number?, last, last', number, number', lasts⟩ := (nexts.number remark).cases
    cases number? with
    | none =>
      refine ⟨none, last, last', ?_, ?_, lasts⟩
      · simp only [readIdentifier, word, number]
      · simp only [readIdentifier, word', number']
    | some token =>
      refine ⟨(readIdentifier settings sounds keyword cursor).1, last, last', ?_, ?_, lasts⟩
      · simp only [readIdentifier, word, number]
        split <;> rfl
      · simp only [readIdentifier, word, word', number, number']
        split <;> rfl

theorem readVolume_annotated (remark : Remark tail) (prolonged : Prolonged tail cursor other) (keyword : String) :
    ∃ findings volume next next', readVolume keyword cursor = (findings, volume, next) ∧
      readVolume keyword other = (findings, volume, next') ∧ Prolonged tail next next' := by
  obtain ⟨number?, next, next', number, number', nexts⟩ := (prolonged.number remark).cases
  refine ⟨(readVolume keyword cursor).1, (readVolume keyword cursor).2.1, next, next', ?_, ?_, nexts⟩
  · simp only [readVolume, number]
    cases number? with
    | none => rfl
    | some token => simp only; split <;> rfl
  · simp only [readVolume, number, number']
    cases number? with
    | none => rfl
    | some token => simp only; split <;> rfl

theorem readSound_annotated (remark : Remark tail) (prolonged : Prolonged tail cursor other) {settings : Settings}
    {sounds : Sounds} {keyword : String} (clean : (readSound settings sounds keyword cursor).findings = []) :
    (readSound settings sounds keyword cursor).Repeats (readSound settings sounds keyword other) := by
  obtain ⟨findings, middle, middle', equality, equality', middles⟩ := readEquality_annotated remark prolonged keyword
  obtain ⟨answer, last, last', identifier, identifier', lasts⟩ :=
    readIdentifier_annotated remark middles settings sounds keyword
  cases answer with
  | none => simp [readSound, equality, identifier] at clean
  | some found =>
    -- The volume is looked for where the comment may stand now.
    obtain ⟨late, volume, final, final', loudness, loudness', finals⟩ := readVolume_annotated remark lasts keyword
    simp only [readSound, equality, equality', identifier, identifier', loudness, loudness'] at clean ⊢
    exact ⟨finish_annotated remark finals clean, rfl, rfl⟩

theorem annotated_of_answer {α : Type} {data : Except Reference.Gap α} {answer answer' : α → Outcome}
    {block next : Block} {outcome : Outcome}
    (repeats : ∀ found, (answer found).findings = [] → (answer found).Repeats (answer' found))
    (done : (do return (answer (← data), block)) = .ok (outcome, next)) (clean : outcome.findings = []) :
    ∃ again, (do return (answer' (← data), block)) = .ok (again, next) ∧ outcome.Repeats again := by
  cases data with
  | error gap => cases done
  | ok found =>
    cases done
    exact ⟨answer' found, rfl, repeats found clean⟩

theorem read_annotated (remark : Remark tail) (prolonged : Prolonged tail cursor other) {settings : Settings}
    {reference : Reference} {kind : Kind} {keyword : String} {head : Range} {block next : Block} {outcome : Outcome}
    (notClass : kind ≠ .itemClass) (notBase : kind ≠ .baseType)
    (done : read settings reference kind keyword head cursor block = .ok (outcome, next))
    (clean : outcome.findings = []) :
    ∃ again, read settings reference kind keyword head other block = .ok (again, next) ∧ outcome.Repeats again := by
  cases kind with
  | block =>
    cases done
    exact ⟨_, rfl, readBlock_annotated remark prolonged clean⟩
  | number =>
    exact annotated_of_answer (fun _ => readNumberAfter_annotated remark (prolonged.operator remark).2) done clean
  | fontSize =>
    refine annotated_of_answer (fun limits clean => ?_) done clean
    obtain ⟨findings, middle, middle', equality, equality', middles⟩ := readEquality_annotated remark prolonged keyword
    simp only [readFontSize, equality, equality'] at clean ⊢
    exact readNumberAfter_annotated remark middles clean
  | rarity =>
    simp only [read, readRarity] at done ⊢
    cases words : reference.rarityWords keyword with
    | error gap =>
      rw [words] at done
      cases done
    | ok names =>
      rw [words] at done
      cases done
      exact ⟨_, rfl, readChoice_annotated remark (prolonged.operator remark).2 clean⟩
  | socketGroup =>
    cases done
    obtain ⟨findings, middle, middle', equality, equality', middles⟩ := readEquality_annotated remark prolonged keyword
    refine ⟨_, rfl, ?_⟩
    simp only [readSocketGroup, equality, equality'] at clean ⊢
    exact readChoice_annotated remark middles clean
  | boolean =>
    simp only [read] at done ⊢
    cases found : readBoolean reference keyword cursor with
    | error gap =>
      rw [found] at done
      cases done
    | ok answer =>
      rw [found] at done
      cases done
      obtain ⟨again, found', repeats⟩ := readBoolean_annotated remark prolonged found clean
      exact ⟨again, by rw [found']; rfl, repeats⟩
  | color => exact annotated_of_answer (fun _ => readColor_annotated remark prolonged) done clean
  | itemClass => exact absurd rfl notClass
  | baseType => exact absurd rfl notBase
  | sound =>
    cases done
    exact ⟨_, rfl, readSound_annotated remark prolonged clean⟩

end

end Rule

/-! ## Lines -/

namespace Line

section
variable {tail : List Char} {cursor other : Cursor}

theorem head?_annotated (remark : Remark tail) (prolonged : Prolonged tail cursor other) {word : Token String}
    {next : Cursor} (found : head? cursor = some (word, next)) :
    ∃ next', head? other = some (word, next') ∧ Prolonged tail next next' := by
  obtain ⟨next', result, nexts⟩ :=
    prolonged.read_some Lexeme.captures_word remark.endsHere (readWord_of_head? found)
  have follows := (Cursor.read_eq_some Lexeme.captures_word result).1
  have visible : ¬other.isIgnorable = true := fun ignored =>
    not_ignorable_of_word follows (Cursor.isIgnorable_iff.mp ignored)
  exact ⟨next', by rw [head?, if_neg visible, Cursor.readWord, result], nexts⟩

theorem plain_unmarked (settings : Settings) (cursor : Cursor) :
    (plain settings cursor).color = none ∧ (plain settings cursor).sound = none := by
  unfold plain
  simp only
  split
  · exact ⟨rfl, rfl⟩
  · split
    · exact ⟨rfl, rfl⟩
    · exact ⟨rfl, rfl⟩

theorem plain_annotated (remark : Remark tail) (prolonged : Prolonged tail cursor other) {settings : Settings}
    (clean : (plain settings cursor).findings = []) :
    (plain settings other).findings = [] ∧ (plain settings other).keyword = (plain settings cursor).keyword ∧
      (head? other).map (·.1.value) = (head? cursor).map (·.1.value) := by
  by_cases ignored : cursor.isIgnorable = true
  · have ignored' := prolonged.isIgnorable remark ignored
    simp only [plain, head?, ignored, ignored', if_true, Option.map_none, and_self]
  · rcases result : cursor.readWord with ⟨word?, next⟩
    simp only [plain, ignored, Bool.false_eq_true, if_false, result] at clean
    cases word? with
    | none => cases clean
    | some word =>
      have head : head? cursor = some (word, next) := by rw [head?, if_neg ignored, result]
      obtain ⟨next', head', -⟩ := head?_annotated remark prolonged head
      have visible : ¬other.isIgnorable = true := by
        intro ignored'
        rw [head?, if_pos ignored'] at head'
        cases head'
      simp only [plain, ignored, visible, Bool.false_eq_true, if_false, result, readWord_of_head? head', head, head',
        Option.map_some, and_true]
      exact clean

end

/-- A comment behind a clean line changes nothing that is read from it, unless the line lists classes or bases. -/
theorem comment_transparent_outside_lists (settings : Settings) (reference : Reference) (row : Int) (text : List Char)
    (block next : Block) (line : Line) (done : Line.read settings reference row text block = .ok (line, next))
    (clean : line.findings = []) (notClass : headword? text ≠ some "Class")
    (notBase : headword? text ≠ some "BaseType") (blanks comment : List Char) (some_blanks : blanks ≠ [])
    (all : ∀ c ∈ blanks, Text.isBlank c = true)
    (oneLine : ∀ c ∈ blanks ++ '#' :: comment, Text.isBreak c = false) :
    ∃ commented,
      Line.read settings reference row (text ++ (blanks ++ '#' :: comment)) block = .ok (commented, next) ∧
      commented.findings = [] ∧ commented.keyword = line.keyword ∧ commented.color = line.color ∧
      commented.sound = line.sound := by
  have remark : Remark (blanks ++ '#' :: comment) := ⟨blanks, comment, rfl, some_blanks, all⟩
  have prolonged : Prolonged (blanks ++ '#' :: comment) ⟨row, text, 0⟩ ⟨row, text ++ (blanks ++ '#' :: comment), 0⟩ :=
    ⟨rfl, rfl, rfl⟩
  obtain ⟨oneLine', ⟨nothing, rfl, rfl⟩ | ⟨word, cursor, kind, outcome, found, known, rule, rfl⟩⟩ :=
    read_eq_ok_iff_dispatch.mp done
  · obtain ⟨clean', keyword, heads⟩ := plain_annotated remark prolonged clean
    obtain ⟨color, sound⟩ := plain_unmarked settings ⟨row, text, 0⟩
    obtain ⟨color', sound'⟩ := plain_unmarked settings ⟨row, text ++ (blanks ++ '#' :: comment), 0⟩
    have nothing' : headKind? (text ++ (blanks ++ '#' :: comment)) = none := by
      rw [← nothing, headKind?, headKind?, headword?_eq row, headword?_eq row text, heads]
    exact ⟨_, read_eq_ok_iff_dispatch.mpr ⟨List.forall_mem_append.mpr ⟨oneLine', oneLine⟩, .inl ⟨nothing', rfl, rfl⟩⟩,
      clean', keyword, color'.trans color.symm, sound'.trans sound.symm⟩
  · have named : headword? text = some word.value := by rw [headword?_eq row, found]; rfl
    obtain ⟨cursor', found', nexts⟩ := head?_annotated remark prolonged found
    have notClass' : kind ≠ .itemClass := by
      rintro rfl
      exact notClass (named.trans (congrArg some (Kind.keyword_of_itemClass known)))
    have notBase' : kind ≠ .baseType := by
      rintro rfl
      exact notBase (named.trans (congrArg some (Kind.keyword_of_baseType known)))
    obtain ⟨again, rule', repeats⟩ := Rule.read_annotated remark nexts notClass' notBase' rule clean
    have whole := List.forall_mem_append.mpr ⟨oneLine', oneLine⟩
    refine ⟨ofOutcome ⟨row, text ++ (blanks ++ '#' :: comment), 0⟩ word kind again, read_eq_ok_iff_dispatch.mpr
      ⟨whole, .inr ⟨word, cursor', kind, again, found', known, rule', rfl⟩⟩, ?_⟩
    exact ⟨repeats.findings.trans clean, rfl, repeats.color, repeats.sound⟩

/-- An alpha is looked for right where the comment stands, and a quote in the comment closes nothing. -/
theorem comment_behind_color_transparent :
    ∃ commented, Line.read {} Bundled.reference 3 "SetTextColor 255 0 0 # 128 \"red".toList {} = .ok (commented, {}) ∧
      commented.findings = [] ∧ commented.color.map ColorMark.range = some ⟨⟨3, 13⟩, ⟨3, 20⟩⟩ := by
  have found : (Line.read {} Bundled.reference 3 "SetTextColor 255 0 0".toList {}).map
      (fun answer => (answer.1.findings, answer.1.color.map ColorMark.range, answer.2)) =
        .ok ([], some ⟨⟨3, 13⟩, ⟨3, 20⟩⟩, {}) := by rfl
  cases done : Line.read {} Bundled.reference 3 "SetTextColor 255 0 0".toList {} with
  | error fault =>
    rw [done] at found
    cases found
  | ok answer =>
    obtain ⟨line, next⟩ := answer
    rw [done] at found
    obtain ⟨clean, parts⟩ := Prod.mk.inj (Except.ok.inj found)
    obtain ⟨place, rfl⟩ := Prod.mk.inj parts
    obtain ⟨commented, read, clean', -, color, -⟩ := comment_transparent_outside_lists {} Bundled.reference 3
      "SetTextColor 255 0 0".toList {} _ line done clean (by decide +kernel) (by decide +kernel) [' ']
      " 128 \"red".toList (by simp) (List.forall_mem_singleton.mpr rfl) (by simp [Text.isBreak])
    exact ⟨commented, read, clean', by rw [color]; exact place⟩

end Line

end LootFilter
