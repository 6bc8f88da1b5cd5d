import LootFilter.Editor.Hover
import LootFilter.Proofs.Document.BaseVerdict
import LootFilter.Proofs.Editor.Position
import LootFilter.Proofs.Line.Dispatch
import LootFilter.Proofs.Reference.BaseNames

/-! The note on a value and the verdict on it. The note has nothing but the summary of its rule if and only if the value
is reported as invalid. -/

set_option autoImplicit false

namespace LootFilter

namespace Hover

/-! ## Notes without matches -/

theorem append_eq_self_iff {text more : String} : text ++ more = text ↔ more = "" := by
  rw [← String.toList_inj, String.toList_append, List.append_right_eq_self, String.toList_eq_nil_iff]

theorem classText_eq_summary_iff {reference : Reference} {value : String} :
    classText reference value = classSummary ↔ ∀ name ∈ reference.classes, ¬value.toList <:+: name.toList := by
  have nothing : reference.classes.filter (Text.occursIn value) = [] ↔
      ∀ name ∈ reference.classes, ¬value.toList <:+: name.toList := by
    simp [List.filter_eq_nil_iff, Text.occursIn_iff]
  rw [← nothing]
  simp only [classText, String.append_assoc, append_eq_self_iff]
  cases found : reference.classes.filter (Text.occursIn value) with
  | nil => simp
  | cons first rest =>
    cases rest with
    | nil => simp
    | cons second others => simp

theorem matchingBases_eq_nil_iff {reference : Reference} {value : String} :
    matchingBases reference value = [] ↔
      ¬∃ itemClass ∈ reference.classes, ∃ base ∈ reference.basesOf itemClass, value.toList <:+: base.toList := by
  simp [matchingBases, List.filter_eq_nil_iff, Text.occursIn_iff]

theorem baseText_eq_summary_iff {reference : Reference} {value : String} :
    baseText reference value = baseSummary ↔
      ¬∃ itemClass ∈ reference.classes, ∃ base ∈ reference.basesOf itemClass, value.toList <:+: base.toList := by
  rw [← matchingBases_eq_nil_iff]
  simp only [baseText, String.append_assoc, append_eq_self_iff]
  cases found : matchingBases reference value with
  | nil => simp [classesText]
  | cons first rest =>
    cases rest with
    | nil => simp [classesText]
    | cons second others => simp [classesText]

/-! ## The note on a value -/

section
variable {row : Int} {text : List Char} {word : Token String} {cursor : Cursor} {kind : Kind} {token : Token String}

theorem ofValue?_of_token (note : String → String) {head : Head} (rest : head.rest = cursor.stretch)
    (row_eq : cursor.row = row) (line_eq : cursor.line = text)
    (equal : ∀ operator, cursor.readOperator.1 = some operator → operator.value = .equal)
    (member : token ∈ Rule.valueTokens cursor) (visible : token.value ≠ "") {column : Int}
    (behind : token.range.start.character ≤ column) (before : column ≤ token.range.stop.character) :
    ofValue? note text head ⟨row, column⟩ = some ⟨.text (note token.value), token.range⟩ := by
  obtain ⟨values, skipped, starts⟩ := Cursor.starts_behind_equality equal (List.ne_nil_of_mem member)
  rw [row_eq, line_eq] at starts
  have touched := starts.touched token member column behind before
  have reached : ¬column < values.column := by
    have := Stretch.column_le_valueAt touched
    omega
  have value := starts.unquoted token member
  simp only [Range.textOf] at value
  have shown : token.value.toList.isEmpty = false := by simpa using visible
  simp only [ofValue?, rest, skipped, reached, touched, shown, value, bind, Option.bind, if_false, Bool.false_eq_true,
    String.ofList_toList]

theorem at?_of_token {reference : Reference} {note : String → String}
    (found : Line.head? ⟨row, text, 0⟩ = some (word, cursor)) (known : Kind.ofKeyword? word.value = some kind)
    (noted : kind = .itemClass ∧ note = classText reference ∨ kind = .baseType ∧ note = baseText reference)
    (equal : ∀ operator, cursor.readOperator.1 = some operator → operator.value = .equal)
    (member : token ∈ Rule.valueTokens cursor) (visible : token.value ≠ "") {column : Int}
    (behind : token.range.start.character ≤ column) (before : column ≤ token.range.stop.character) :
    at? reference text ⟨row, column⟩ = some ⟨.text (note token.value), token.range⟩ := by
  obtain ⟨head, keyword, name, rest, ordered, stop, row_eq, line_eq, ends⟩ := Head.ofLine?_of_head? found known
  have value := ofValue?_of_token note rest row_eq line_eq equal member visible behind before
  have apart := Cursor.column_lt_value ends token member
  have start_passed : ¬column < head.range.start.character := by omega
  have stop_passed : ¬column < head.range.stop.character := by omega
  simp only [at?, keyword, start_passed, stop_passed, name, known, bind, Option.bind, if_false]
  obtain ⟨rfl, rfl⟩ | ⟨rfl, rfl⟩ := noted
  · exact value
  · exact value

end

/-- On lines with classes or bases behind an equality sign or none, the note on a value is the bare summary of its rule
if and only if the value is reported as invalid. The items must not list their bases themselves, and nothing is
allowed besides the data. -/
theorem summary_iff_invalid (settings : Settings) (items rules suggestions uniques : Value) (reference : Reference)
    (assembled : Reference.assemble items rules suggestions uniques = .ok reference)
    (unlisted : Reference.listedBases? items = none) (noClasses : settings.classWhitelist = [])
    (noBases : settings.baseWhitelist = []) (row : Int) (text : List Char)
    (oneLine : ∀ c ∈ text, Text.isBreak c = false) (word : Token String) (cursor : Cursor)
    (found : Line.head? ⟨row, text, 0⟩ = some (word, cursor)) (summary : String)
    (valued : word.value = "Class" ∧ summary = classSummary ∨ word.value = "BaseType" ∧ summary = baseSummary)
    (equal : ∀ operator, cursor.readOperator.1 = some operator → operator.value = .equal) :
    ∃ line next, Line.read settings reference row text {} = .ok (line, next) ∧
      ∀ token ∈ Line.values row text, token.value ≠ "" → ∀ column, token.range.start.character ≤ column →
        column ≤ token.range.stop.character →
          ∃ hover, at? reference text ⟨row, column⟩ = some hover ∧ hover.range = token.range ∧
            (hover.contents = .text summary ↔
              ∃ expected, (⟨.invalidValue word.value expected, token.range⟩ : Finding) ∈ line.findings) := by
  obtain ⟨named, rfl⟩ | ⟨named, rfl⟩ := valued
  · have known : Kind.ofKeyword? word.value = some .itemClass := by
      rw [named]
      rfl
    refine ⟨_, _, (Line.read_eq_ok_iff_rule found known).mpr ⟨oneLine, _, rfl, rfl⟩, ?_⟩
    intro token member visible column behind before
    simp only [Line.values, found] at member
    refine ⟨_, at?_of_token found known (.inl ⟨rfl, rfl⟩) equal member visible behind before, rfl, ?_⟩
    rw [Value.text.injEq, classText_eq_summary_iff]
    refine Iff.trans ?_ (Rule.invalid_mem_readValues_iff _ _ _ cursor member).symm
    simp [Rule.acceptsClass, noClasses, ← Text.occursIn_iff]
  · have known : Kind.ofKeyword? word.value = some .baseType := by
      rw [named]
      rfl
    have searchable := (Reference.sound_of_assemble assembled).searchable
    obtain ⟨outcome, rule⟩ := Rule.read_baseType_ok settings searchable word.value word.range cursor {}
    obtain rfl := (Rule.read_baseType_eq_ok_iff.mp rule).2.1
    refine ⟨_, _, (Line.read_eq_ok_iff_rule found known).mpr ⟨oneLine, _, rule, rfl⟩, ?_⟩
    intro token member visible column behind before
    simp only [Line.values, found] at member
    refine ⟨_, at?_of_token found known (.inr ⟨rfl, rfl⟩) equal member visible behind before, rfl, ?_⟩
    rw [Value.text.injEq, baseText_eq_summary_iff]
    refine Iff.trans ?_ (Rule.invalid_mem_readValues_iff _ _ _ cursor member).symm
    -- Without a list of their own in the items, the index has the bases of the classes and no others.
    have texts : ∀ base ∈ reference.lengthIndex.bases, ∃ name, base = .name name := by
      rw [Reference.lengthIndex_of_unlisted assembled unlisted]
      exact LengthIndex.named_ofNames _
    have same : ∀ base, .name base ∈ reference.lengthIndex.bases ↔ reference.IsBase base := by
      intro base
      rw [Reference.name_mem_index_iff assembled, unlisted]
    rw [← Reference.finds_all_iff assembled texts same, ← Bool.not_eq_true, Pool.accepts_iff, noBases]
    simp

theorem unknown_base_has_summary_only :
    ∃ reference, Reference.assemble (.table ⟨[("Rings", .list [.text "Iron Ring"])]⟩) Bundled.rules .null .null =
        .ok reference ∧
      ∃ hover, at? reference "BaseType = Ring \"Gold Ring\"".toList ⟨4, 27⟩ = some hover ∧
        hover.range = .onLine 4 16 27 ∧ hover.contents = .text baseSummary := by
  have assembled : Reference.assemble (.table ⟨[("Rings", .list [.text "Iron Ring"])]⟩) Bundled.rules .null .null =
      .ok (Reference.ringReference ["Iron Ring"] (List.replicate 9 0)) := rfl
  obtain ⟨line, next, done, verdict⟩ := summary_iff_invalid {} _ _ _ _ _ assembled rfl rfl rfl 4
    "BaseType = Ring \"Gold Ring\"".toList (by simp [Text.isBreak]) ⟨"BaseType", .onLine 4 0 8⟩
    ⟨4, "BaseType = Ring \"Gold Ring\"".toList, 8⟩ rfl baseSummary (.inr ⟨rfl, rfl⟩) (by decide +kernel)
  have member : ⟨"Gold Ring", .onLine 4 16 27⟩ ∈ Line.values 4 "BaseType = Ring \"Gold Ring\"".toList := by
    decide +kernel
  have findings : (Line.read {} (Reference.ringReference ["Iron Ring"] (List.replicate 9 0)) 4
      "BaseType = Ring \"Gold Ring\"".toList {}).map (·.1.findings) =
        .ok [⟨.invalidValue "BaseType" .itemBase, .onLine 4 16 27⟩] := by decide +kernel
  obtain ⟨hover, shown, range, agrees⟩ := verdict _ member (by decide) 27 (by decide) (by decide)
  refine ⟨_, assembled, hover, shown, range, agrees.mpr ⟨.itemBase, ?_⟩⟩
  rw [done] at findings
  have reported : line.findings = _ := Except.ok.inj findings
  rw [reported]
  exact List.mem_cons_self

end Hover

end LootFilter
