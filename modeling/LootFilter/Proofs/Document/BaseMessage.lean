import LootFilter.Proofs.Document.BaseVerdict
import LootFilter.Proofs.Reference.BaseNames

/-! What the message for an invalid base says. A block that asks for classes gets the searched classes by name,
and a block that asks for none is told that only bases are valid. The second message is also all that is left when no
class holds what the block asks for, and there it may be wrong: the value can be a base. -/

set_option autoImplicit false

namespace LootFilter

def Reference.HoldsBase (reference : Reference) (value : String) : Prop :=
  ∃ base, reference.IsBase base ∧ value.toList <:+: base.toList

namespace Pool

section
variable {reference : Reference} {parts : List String}

theorem searched_choose (some_part : parts ≠ []) :
    (choose reference parts).searched = expand reference.classes parts := by
  simp [choose, some_part, searched]

theorem expectation_choose_of_expand (found : expand reference.classes parts ≠ []) :
    (choose reference parts).expectation = .baseOf (expand reference.classes parts) := by
  have some_part : parts ≠ [] := by
    rintro rfl
    exact found rfl
  simp [expectation, searched_choose some_part, found]

/-- Names that no class holds leave an empty pool, with the message of a block without any names. -/
theorem choose_of_expand_nil (some_part : parts ≠ []) (nothing : expand reference.classes parts = []) :
    (choose reference parts).expectation = .itemBase ∧ ∀ value, (choose reference parts).finds value = false := by
  constructor
  · simp [expectation, searched_choose some_part, nothing]
  · simp [choose, some_part, nothing]

end

end Pool

theorem Reference.finds_choose_nil_iff {items rules suggestions uniques : Value} {reference : Reference}
    (assembled : assemble items rules suggestions uniques = .ok reference) (unlisted : listedBases? items = none)
    {value : String} : (Pool.choose reference []).finds value = true ↔ reference.HoldsBase value := by
  have named : ∀ base ∈ reference.lengthIndex.bases, ∃ name, base = .name name := by
    rw [lengthIndex_of_unlisted assembled unlisted]
    exact LengthIndex.named_ofNames _
  have same : ∀ base, .name base ∈ reference.lengthIndex.bases ↔ reference.IsBase base := by
    intro base
    rw [name_mem_index_iff assembled, unlisted]
  rw [finds_all_iff assembled named same]
  constructor
  · rintro ⟨itemClass, member, base, inside, held⟩
    exact ⟨base, ⟨itemClass, member, inside⟩, held⟩
  · rintro ⟨base, ⟨itemClass, member, inside⟩, held⟩
    exact ⟨itemClass, member, base, inside, held⟩

/-! ## Messages -/

namespace Problem

theorem message_itemBase : (invalidValue "BaseType" .itemBase).message =
    "Invalid value for a BaseType rule. Only item bases are valid values for this rule." := by decide +kernel

theorem message_baseOf (classes : List String) : (invalidValue "BaseType" (.baseOf classes)).message =
    "Invalid value for a BaseType rule. No value found for the following classes: " ++ Text.enumerateAnd classes ++
      "." := by
  have start : "Invalid value for a " ++ "BaseType" ++ " rule. " ++ "No value found for the following classes: " =
      "Invalid value for a BaseType rule. No value found for the following classes: " := by decide +kernel
  change "Invalid value for a " ++ "BaseType" ++ " rule. " ++
    ("No value found for the following classes: " ++ Text.enumerateAnd classes ++ ".") = _
  rw [← start, ← String.append_assoc, ← String.append_assoc]

end Problem

theorem Pool.reported_cases {items rules suggestions uniques : Value} {reference : Reference}
    (assembled : Reference.assemble items rules suggestions uniques = .ok reference)
    (unlisted : Reference.listedBases? items = none) {asked whitelist : List String} {value : String}
    (rejected : (choose reference asked).accepts whitelist value = false) :
    (asked = [] ∧ (choose reference asked).expectation = .itemBase ∧ ¬reference.HoldsBase value) ∨
      (asked ≠ [] ∧ expand reference.classes asked = [] ∧ (choose reference asked).expectation = .itemBase) ∨
      (asked ≠ [] ∧ expand reference.classes asked ≠ [] ∧
        (choose reference asked).expectation = .baseOf (expand reference.classes asked)) := by
  by_cases some_part : asked = []
  · subst some_part
    refine .inl ⟨rfl, rfl, fun holds => ?_⟩
    have accepted : (choose reference []).accepts whitelist value = true :=
      accepts_iff.mpr (.inl ((Reference.finds_choose_nil_iff assembled unlisted).mpr holds))
    exact Bool.false_ne_true (rejected.symm.trans accepted)
  · by_cases nothing : expand reference.classes asked = []
    · exact .inr (.inl ⟨some_part, nothing, (choose_of_expand_nil some_part nothing).1⟩)
    · exact .inr (.inr ⟨some_part, nothing, expectation_choose_of_expand nothing⟩)

namespace Document

/-- A block that asks for no classes, or for a part of the name of some class, is told that only bases are valid for a
value only if no base holds it; for a value that some base holds, the message names the classes that were searched. A
block that asks only for names that no class holds is told that only bases are valid, for every value that is not
allowed. -/
theorem base_message_truthful_unless_unknown_classes (settings : Settings) (items rules suggestions uniques : Value)
    (reference : Reference) (assembled : Reference.assemble items rules suggestions uniques = .ok reference)
    (unlisted : Reference.listedBases? items = none) (complete : reference.Complete) (text : List Char) :
    (Problem.invalidValue "BaseType" .itemBase).message =
      "Invalid value for a BaseType rule. Only item bases are valid values for this rule." ∧
    (∀ classes, (Problem.invalidValue "BaseType" (.baseOf classes)).message =
      "Invalid value for a BaseType rule. No value found for the following classes: " ++ Text.enumerateAnd classes ++
        ".") ∧
    ∃ document, Document.read settings reference text = .ok document ∧
      ∀ before source after, Text.splitLines text = before ++ source :: after →
        Line.headword? source = some "BaseType" →
        ∃ line, document.lines[before.length]? = some line ∧
          ∀ asked, asked = (currentBlock before).flatMap (Line.acceptedClasses settings reference) →
          ∀ searched, searched = Pool.expand reference.classes asked →
          ∀ token ∈ Line.values before.length source,
            ((asked = [] ∨ searched ≠ []) →
              ((⟨.invalidValue "BaseType" .itemBase, token.range⟩ : Finding) ∈ line.findings →
                ¬reference.HoldsBase token.value) ∧
              (reference.HoldsBase token.value →
                ∀ expected, (⟨.invalidValue "BaseType" expected, token.range⟩ : Finding) ∈ line.findings →
                  searched ≠ [] ∧ expected = .baseOf searched)) ∧
            (asked ≠ [] → searched = [] →
              ((⟨.invalidValue "BaseType" .itemBase, token.range⟩ : Finding) ∈ line.findings ↔
                ∀ entry ∈ settings.baseWhitelist, ¬token.value.toList <:+: entry.toList)) := by
  refine ⟨Problem.message_itemBase, Problem.message_baseOf, ?_⟩
  obtain ⟨document, done, lines⟩ := read_ok settings complete text
  refine ⟨document, done, ?_⟩
  intro before source after split base
  rw [split] at lines
  obtain ⟨earlier, line, later, next, same, length, first, step⟩ := readLines_line lines
  rw [Int.zero_add] at step
  obtain ⟨parsed, block, read, placed⟩ := Progress.step_cases step
  have remembers := remembers_before settings reference first
  refine ⟨line, by simp [same, ← length], ?_⟩
  rintro asked rfl searched rfl token member
  -- From the finding to the pool that history has left.
  have reported := Line.invalid_base_mem_iff read base member
  simp only [← Progress.invalid_mem_place_iff placed, remembers.classes] at reported
  simp only [reported]
  refine ⟨fun known => ⟨?_, ?_⟩, ?_⟩
  · rintro ⟨generic, rejected⟩
    obtain ⟨-, -, truthful⟩ | ⟨some_part, nothing, -⟩ | ⟨-, -, named⟩ :=
      Pool.reported_cases assembled unlisted rejected
    · exact truthful
    · exact absurd nothing (known.resolve_left some_part)
    · cases generic.trans named
  · rintro holds expected ⟨rfl, rejected⟩
    obtain ⟨-, -, truthful⟩ | ⟨some_part, nothing, -⟩ | ⟨-, found, named⟩ :=
      Pool.reported_cases assembled unlisted rejected
    · exact absurd holds truthful
    · exact absurd nothing (known.resolve_left some_part)
    · exact ⟨found, named⟩
  · intro some_part nothing
    obtain ⟨generic, empty⟩ := Pool.choose_of_expand_nil some_part nothing
    simp [generic, ← Bool.not_eq_true, Pool.accepts_iff, empty]

def plainReference : Reference :=
  { Bundled.reference with extraClasses := [], extraBases := [], uniques := .empty }

theorem plainReference_complete : plainReference.Complete :=
  ⟨Bundled.hasLimits, Bundled.complete.occurrences, ⟨Bundled.hasWords.rarities, Bundled.hasWords.booleans⟩,
    Bundled.searchable⟩

theorem arc_reported_with_rings :
    plainReference.HoldsBase "Arc" ∧
      ∃ document, Document.read {} plainReference "Show\nClass Ring\nBaseType Arc".toList = .ok document ∧
        ∃ line, document.lines[2]? = some line ∧ line.findings.length = 2 ∧
          ∀ expected, (⟨.invalidValue "BaseType" expected, ⟨⟨2, 9⟩, ⟨2, 12⟩⟩⟩ : Finding) ∈ line.findings →
            expected = .baseOf ["Rings"] := by
  obtain ⟨-, -, document, done, rows⟩ := base_message_truthful_unless_unknown_classes {} Bundled.items Bundled.rules
    .null .null plainReference Bundled.assembles rfl plainReference_complete
    "Show\nClass Ring\nBaseType Arc".toList
  obtain ⟨line, found, told⟩ := rows ["Show".toList, "Class Ring".toList] "BaseType Arc".toList [] rfl rfl
  have asked : ["Ring"] = (currentBlock ["Show".toList, "Class Ring".toList]).flatMap
      (Line.acceptedClasses {} plainReference) := by rfl
  have searched : ["Rings"] = Pool.expand plainReference.classes ["Ring"] := by rfl
  have values : Line.values 2 "BaseType Arc".toList = [⟨"Arc", ⟨⟨2, 9⟩, ⟨2, 12⟩⟩⟩] := by rfl
  have member : ⟨"Arc", ⟨⟨2, 9⟩, ⟨2, 12⟩⟩⟩ ∈ Line.values 2 "BaseType Arc".toList := by
    rw [values]
    exact List.mem_cons_self
  have count : (Document.read {} plainReference "Show\nClass Ring\nBaseType Arc".toList).map
      (fun document => document.lines[2]?.map fun line => line.findings.length) = .ok (some 2) := by rfl
  have holds : plainReference.HoldsBase "Arc" :=
    ⟨"Arc", ⟨"Active Skill Gems", by decide +kernel, by decide +kernel⟩, List.infix_rfl⟩
  refine ⟨holds, document, done, line, found, ?_, ?_⟩
  · rw [done] at count
    have length : document.lines[2]?.map (fun line => line.findings.length) = some 2 := Except.ok.inj count
    rw [show document.lines[2]? = some line from found] at length
    exact Option.some.inj length
  · intro expected reported
    exact (((told _ asked _ searched _ member).1 (.inr (List.cons_ne_nil _ _))).2 holds expected reported).2

/-- A block that asks for an allowed class, which is none of the data, is told of a ring that it is no base. -/
theorem gold_ring_called_no_base :
    Reference.assemble Bundled.items Bundled.rules .null .null = .ok plainReference ∧
      Reference.listedBases? Bundled.items = none ∧ plainReference.Complete ∧ plainReference.HoldsBase "Gold Ring" ∧
      (Document.read { classWhitelist := ["Relics"] } plainReference
          "Show\nClass Relics\nBaseType \"Gold Ring\"".toList).map (fun document => document.findings.head?) =
        .ok (some ⟨.invalidValue "BaseType" .itemBase, ⟨⟨2, 9⟩, ⟨2, 20⟩⟩⟩) := by
  refine ⟨Bundled.assembles, rfl, plainReference_complete, ?_, by rfl⟩
  exact ⟨"Gold Ring", ⟨"Rings", by decide +kernel, by decide +kernel⟩, List.infix_rfl⟩

end Document

end LootFilter
