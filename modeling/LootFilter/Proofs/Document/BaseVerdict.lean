import LootFilter.Proofs.Document.History
import LootFilter.Proofs.Reference.LengthIndex
import Mathlib.Data.List.Nodup

/-! Which values of a `BaseType` rule are invalid, as a function of the lines before it. -/

set_option autoImplicit false

namespace LootFilter

/-! ## The bases that a block may name -/

/-- Some base holds the value: any base at all, or a base of one of the classes that the block asks for. -/
def Reference.InPool (reference : Reference) (parts : List String) (value : String) : Prop :=
  if parts = [] then ∃ base, .name base ∈ reference.lengthIndex.bases ∧ value.toList <:+: base.toList
  else
    ∃ name ∈ reference.classes, (∃ part ∈ parts, part.toList <:+: name.toList) ∧
      ∃ base ∈ reference.basesOf name, value.toList <:+: base.toList

theorem Reference.inPool_congr {reference : Reference} {parts parts' : List String}
    (same : ∀ part, part ∈ parts ↔ part ∈ parts') (value : String) :
    reference.InPool parts value ↔ reference.InPool parts' value := by
  have empty : parts = [] ↔ parts' = [] := by simp only [List.eq_nil_iff_forall_not_mem, same]
  simp only [InPool, empty, same]

theorem Pool.finds_choose_iff {reference : Reference} (sound : reference.lengthIndex.Sound)
    (named : ∀ base ∈ reference.lengthIndex.bases, ∃ name, base = .name name) (parts : List String) (value : String) :
    (choose reference parts).finds value = true ↔ reference.InPool parts value := by
  by_cases none : parts = []
  · have all : choose reference parts = .all reference.lengthIndex := by simp [choose, none]
    rw [all, Reference.InPool, if_pos none]
    exact LengthIndex.finds_iff sound named
  · rw [finds_choose_of_parts none, Reference.InPool, if_neg none]

/-! ## Findings of values -/

namespace Rule

theorem valueTokens_range_inj {cursor : Cursor} {token other : Token String} (member : token ∈ valueTokens cursor)
    (member' : other ∈ valueTokens cursor) (same : token.range = other.range) : token = other :=
  List.inj_on_of_nodup_map (Cursor.ranges_readStringsUpTo _ cursor.readOperator.2).2 member member' same

theorem invalid_mem_finish_iff {findings : List Finding} {cursor : Cursor} {keyword : String}
    {expected : Expectation} {range : Range} :
    (⟨.invalidValue keyword expected, range⟩ : Finding) ∈ finish findings cursor ↔
      ⟨.invalidValue keyword expected, range⟩ ∈ findings := by
  unfold finish
  split
  · next clean =>
    have none : findings = [] := List.isEmpty_iff.mp (Bool.and_eq_true_iff.mp clean).1
    simp [none]
  · exact Iff.rfl

theorem invalid_mem_readValues_expected_iff (accepts : String → Bool) (keyword : String) (expected other : Expectation)
    (cursor : Cursor) {token : Token String} (member : token ∈ valueTokens cursor) :
    (⟨.invalidValue keyword other, token.range⟩ : Finding) ∈
      (readValues accepts keyword expected cursor).1.findings ↔ other = expected ∧ accepts token.value = false := by
  -- Neither the operator nor the count of values nor text left over is reported this way.
  have operator : (⟨.invalidValue keyword other, token.range⟩ : Finding) ∉ (readEquality keyword cursor).1 := by
    unfold readEquality
    split
    · split <;> simp
    · simp
  have late : ∀ (accepted : List String) (last : Cursor),
      (⟨.invalidValue keyword other, token.range⟩ : Finding) ∉
        (if accepted.isEmpty then [⟨.missingStrings keyword, last.lineRange⟩] else [] : List Finding) := by
    intro accepted last
    split <;> simp
  simp only [readValues, invalid_mem_finish_iff, List.mem_append, operator, late, false_or, or_false,
    invalid_mem_judge_iff, readEquality_cursor]
  constructor
  · rintro ⟨same, found, inside, fails, range⟩
    rw [valueTokens_range_inj inside member range] at fails
    exact ⟨same, fails⟩
  · rintro ⟨same, fails⟩
    exact ⟨same, token, member, fails, rfl⟩

theorem invalid_mem_readValues_iff (accepts : String → Bool) (keyword : String) (expected : Expectation)
    (cursor : Cursor) {token : Token String} (member : token ∈ valueTokens cursor) :
    (∃ other, (⟨.invalidValue keyword other, token.range⟩ : Finding) ∈
      (readValues accepts keyword expected cursor).1.findings) ↔ accepts token.value = false := by
  simp only [invalid_mem_readValues_expected_iff accepts keyword expected _ cursor member, exists_eq_left]

end Rule

section
variable {settings : Settings} {reference : Reference} {row : Int} {source : List Char} {block next : Block}
  {parsed : Line}

theorem Line.invalid_base_mem_iff (read : Line.read settings reference row source block = .ok (parsed, next))
    (base : headword? source = some "BaseType") {token : Token String} (member : token ∈ values row source)
    (expected : Expectation) :
    (⟨.invalidValue "BaseType" expected, token.range⟩ : Finding) ∈ parsed.findings ↔
      expected = (Pool.choose reference block.classes).expectation ∧
        (Pool.choose reference block.classes).accepts settings.baseWhitelist token.value = false := by
  rw [headword?_eq row] at base
  obtain ⟨none, -⟩ | ⟨word, cursor, found, unknown, -⟩ | ⟨word, cursor, kind, outcome, found, known, rule, -, same⟩ :=
    (read_cases read).2
  · rw [none] at base
    cases base
  · rw [found, Option.map_some] at base
    rw [Option.some.inj base] at unknown
    cases unknown
  · rw [found, Option.map_some] at base
    rw [Option.some.inj base] at known rule
    cases known
    obtain ⟨-, rfl, -⟩ := Rule.read_baseType_eq_ok_iff.mp rule
    rw [values, found] at member
    rw [same]
    exact Rule.invalid_mem_readValues_expected_iff _ _ _ _ cursor member

theorem Line.invalid_base_iff (read : Line.read settings reference row source block = .ok (parsed, next))
    (base : headword? source = some "BaseType") {token : Token String} (member : token ∈ values row source) :
    (∃ expected, (⟨.invalidValue "BaseType" expected, token.range⟩ : Finding) ∈ parsed.findings) ↔
      (Pool.choose reference block.classes).accepts settings.baseWhitelist token.value = false := by
  simp only [invalid_base_mem_iff read base member, exists_eq_left]

end

theorem Progress.invalid_mem_place_iff {reference : Reference} {progress next : Progress} {parsed line : Line}
    (done : progress.place reference parsed = .ok (line, next)) {keyword : String} {expected : Expectation}
    {range : Range} :
    (⟨.invalidValue keyword expected, range⟩ : Finding) ∈ line.findings ↔
      ⟨.invalidValue keyword expected, range⟩ ∈ parsed.findings := by
  obtain ⟨-, rfl, -⟩ | ⟨-, rfl, -⟩ | ⟨name, place, kind, -, -, ⟨-, rfl, -⟩ | ⟨limit, -, -, -, rfl⟩⟩ := place_cases done
  · exact Iff.rfl
  · exact Iff.rfl
  · simp [Line.addFinding]
  · split <;> simp [Line.addFinding]

namespace Document

/-- A value of a `BaseType` rule is invalid if and only if no allowed name and no base of its pool holds it. The pool
depends on the classes that the current block has asked for so far, in any order and any number of times. -/
theorem read_baseType_verdicts (settings : Settings) (items rules suggestions uniques : Value) (reference : Reference)
    (assembled : Reference.assemble items rules suggestions uniques = .ok reference)
    (named : ∀ base ∈ reference.lengthIndex.bases, ∃ name, base = .name name) (complete : reference.Complete)
    (text : List Char) :
    ∃ document, Document.read settings reference text = .ok document ∧
      ∀ before source after, Text.splitLines text = before ++ source :: after →
        Line.headword? source = some "BaseType" →
        ∃ line, document.lines[before.length]? = some line ∧
          ∀ parts, (∀ part, part ∈ parts ↔
              part ∈ (currentBlock before).flatMap (Line.acceptedClasses settings reference)) →
            ∀ token ∈ Line.values before.length source,
              (∃ expected, (⟨.invalidValue "BaseType" expected, token.range⟩ : Finding) ∈ line.findings) ↔
                (∀ entry ∈ settings.baseWhitelist, ¬token.value.toList <:+: entry.toList) ∧
                  ¬reference.InPool parts token.value := by
  obtain ⟨document, done, lines⟩ := read_ok settings complete text
  refine ⟨document, done, ?_⟩
  intro before source after split base
  rw [split] at lines
  obtain ⟨earlier, line, later, next, same, length, first, step⟩ := readLines_line lines
  rw [Int.zero_add] at step
  obtain ⟨parsed, block, read, placed⟩ := Progress.step_cases step
  have remembers := remembers_before settings reference first
  refine ⟨line, by simp [same, ← length], ?_⟩
  intro parts alike token member
  have sound := Reference.sound_of_assemble assembled
  -- From the finding to the test of the rule, and from the test to the pool that history has left.
  simp only [Progress.invalid_mem_place_iff placed, Line.invalid_base_iff read base member, remembers.classes,
    Reference.inPool_congr alike, ← Pool.finds_choose_iff sound named, ← Bool.not_eq_true, Pool.accepts_iff]
  constructor
  · intro rejected
    exact ⟨fun entry allowed held => rejected (.inr ⟨entry, allowed, held⟩), fun found => rejected (.inl found)⟩
  · intro missing accepted
    obtain found | ⟨entry, allowed, held⟩ := accepted
    · exact missing.2 found
    · exact missing.1 entry allowed held

theorem arc_is_no_ring :
    ∃ reference, Reference.assemble Bundled.items Bundled.rules .null .null = .ok reference ∧
      ∃ document, Document.read {} reference "Show\nClass \"Ring\"\nBaseType \"Gold Ring\" \"Arc\"".toList =
          .ok document ∧
        ∃ line, document.lines[2]? = some line ∧
          ∃ expected, (⟨.invalidValue "BaseType" expected, ⟨⟨2, 21⟩, ⟨2, 26⟩⟩⟩ : Finding) ∈ line.findings := by
  let reference := { Bundled.reference with extraClasses := [], extraBases := [], uniques := .empty }
  have named : ∀ base ∈ reference.lengthIndex.bases, ∃ name, base = .name name := LengthIndex.named_ofNames _
  have complete : reference.Complete :=
    ⟨Bundled.hasLimits, Bundled.complete.occurrences, ⟨Bundled.hasWords.rarities, Bundled.hasWords.booleans⟩,
      Bundled.searchable⟩
  obtain ⟨document, done, rows⟩ := read_baseType_verdicts {} Bundled.items Bundled.rules .null .null reference
    Bundled.assembles named complete "Show\nClass \"Ring\"\nBaseType \"Gold Ring\" \"Arc\"".toList
  obtain ⟨line, found, verdict⟩ := rows ["Show".toList, "Class \"Ring\"".toList]
    "BaseType \"Gold Ring\" \"Arc\"".toList [] rfl rfl
  have classes : (currentBlock ["Show".toList, "Class \"Ring\"".toList]).flatMap
      (Line.acceptedClasses {} reference) = ["Ring"] := by rfl
  have values : Line.values 2 "BaseType \"Gold Ring\" \"Arc\"".toList =
      [⟨"Gold Ring", ⟨⟨2, 9⟩, ⟨2, 20⟩⟩⟩, ⟨"Arc", ⟨⟨2, 21⟩, ⟨2, 26⟩⟩⟩] := by rfl
  have missing : (Pool.choose reference ["Ring"]).finds "Arc" = false := by rfl
  have member : ⟨"Arc", ⟨⟨2, 21⟩, ⟨2, 26⟩⟩⟩ ∈ Line.values 2 "BaseType \"Gold Ring\" \"Arc\"".toList := by
    rw [values]
    exact List.mem_cons_of_mem _ List.mem_cons_self
  refine ⟨reference, Bundled.assembles, document, done, line, found, ?_⟩
  refine (verdict ["Ring"] (fun part => by rw [classes]) _ member).mpr ⟨nofun, ?_⟩
  rw [← Pool.finds_choose_iff (Reference.sound_of_assemble Bundled.assembles) named, missing]
  exact Bool.false_ne_true

end Document

end LootFilter
