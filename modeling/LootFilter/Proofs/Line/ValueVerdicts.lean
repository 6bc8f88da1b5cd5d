import LootFilter.Proofs.Line.Dispatch
import Mathlib.Data.List.ReduceOption

/-! The verdicts on a list of values, value by value.

The reader judges a value against the values accepted so far. Since equal values pass or fail the test alike, this is
the same as judging it against all the values that stand before it. -/

set_option autoImplicit false

namespace LootFilter

instance (text : List Char) : Decidable (Ignorable text) :=
  decidable_of_iff ((⟨0, text, 0⟩ : Cursor).isIgnorable = true) Cursor.isIgnorable_iff

namespace Cursor

/-- These strings are read one after the other, and no string follows behind the last one. -/
inductive Exhausts : Cursor → List (Token String) → Cursor → Prop where
  | done {cursor : Cursor} : cursor.readString.1 = none → Exhausts cursor [] cursor
  | next {cursor next last : Cursor} {token : Token String} {tokens : List (Token String)} :
      cursor.readString = (some token, next) → Exhausts next tokens last → Exhausts cursor (token :: tokens) last

theorem exhausts_readStringsUpTo (count : Nat) (cursor : Cursor) (enough : cursor.rest.length ≤ count) :
    cursor.Exhausts (readStringsUpTo count cursor).1 (readStringsUpTo count cursor).2 := by
  induction count generalizing cursor with
  | zero =>
    apply Exhausts.done
    rcases found : cursor.readString with ⟨token?, next⟩
    cases token? with
    | none => rfl
    | some token =>
      have shorter := Lexeme.captures_string.length_lt (read_eq_some Lexeme.captures_string found).1
      omega
  | succ count ih =>
    rcases found : cursor.readString with ⟨token?, next⟩
    cases token? with
    | none =>
      simp only [readStringsUpTo, found]
      exact .done (congrArg Prod.fst found)
    | some token =>
      have shorter := Lexeme.captures_string.length_lt (read_eq_some Lexeme.captures_string found).1
      simp only [readStringsUpTo, found]
      exact .next found (ih next (by omega))

theorem exhausts_readStrings (cursor : Cursor) : cursor.Exhausts cursor.readStrings.1 cursor.readStrings.2 :=
  exhausts_readStringsUpTo _ cursor (Nat.le_refl _)

theorem lineRange_read {α : Type} (reader : Reader α) (cursor : Cursor) :
    (cursor.read reader).2.lineRange = cursor.lineRange := by
  simp only [read]
  split
  · rfl
  · split
    · rfl
    · rfl

theorem Exhausts.lineRange {cursor last : Cursor} {tokens : List (Token String)}
    (exhausts : cursor.Exhausts tokens last) : last.lineRange = cursor.lineRange := by
  induction exhausts with
  | done => rfl
  | @next cursor next _ _ _ found _ ih =>
    have same : next.lineRange = cursor.lineRange := by
      rw [← lineRange_read Lexeme.string cursor]
      exact congrArg (fun answer => answer.2.lineRange) found.symm
    rw [ih, same]

end Cursor

namespace Rule

/-! ## Values -/

section
variable (accepts : String → Bool) (keyword : String) (expected : Expectation)

/-- What is said about one value of a list, given the values before it: that it fails the test, or that it stands there
already. -/
def verdict? (earlier : List (Token String)) (token : Token String) : Option Finding :=
  if accepts token.value then
    if token.value ∈ earlier.map Token.value then some ⟨.duplicateValue keyword, token.range⟩ else none
  else some ⟨.invalidValue keyword expected, token.range⟩

def verdicts (tokens : List (Token String)) : List Finding :=
  (tokens.mapIdx fun index token => verdict? accepts keyword expected (tokens.take index) token).reduceOption

def acceptedOf (tokens : List (Token String)) : List String := (tokens.map Token.value).filter accepts

theorem acceptedOf_concat (tokens : List (Token String)) (token : Token String) :
    acceptedOf accepts (tokens ++ [token]) =
      if accepts token.value then acceptedOf accepts tokens ++ [token.value] else acceptedOf accepts tokens := by
  simp only [acceptedOf, List.map_append, List.filter_append, List.map_cons, List.map_nil, List.filter_cons,
    List.filter_nil]
  split
  · rfl
  · exact List.append_nil _

theorem judge_cons (before : List (Token String)) (token : Token String) (rest : List (Token String)) :
    (judge accepts keyword expected (acceptedOf accepts before) (token :: rest)).1 =
      (verdict? accepts keyword expected before token).toList ++
        (judge accepts keyword expected (acceptedOf accepts (before ++ [token])) rest).1 := by
  rw [acceptedOf_concat]
  cases passes : accepts token.value with
  | true =>
    have repeated : (acceptedOf accepts before).contains token.value = true ↔
        token.value ∈ before.map Token.value := by
      rw [List.contains_iff_mem, acceptedOf, List.mem_filter]
      exact and_iff_left passes
    simp only [judge, verdict?, passes, repeated, if_true]
    split
    · rfl
    · rfl
  | false =>
    -- A value that fails the test was never accepted, so it is no duplicate.
    have fresh : (acceptedOf accepts before).contains token.value = false := by
      rw [← Bool.not_eq_true, List.contains_iff_mem, acceptedOf, List.mem_filter, passes]
      exact fun both => Bool.false_ne_true both.2
    simp only [judge, verdict?, passes, fresh, Bool.false_eq_true, if_false]
    rfl

theorem judge_verdicts (before tokens : List (Token String)) :
    (judge accepts keyword expected (acceptedOf accepts before) tokens).1 =
      (tokens.mapIdx fun index token =>
        verdict? accepts keyword expected (before ++ tokens.take index) token).reduceOption := by
  induction tokens generalizing before with
  | nil => rfl
  | cons token rest ih =>
    have behind : ∀ index, before ++ (token :: rest).take (index + 1) = (before ++ [token]) ++ rest.take index := by
      intro index
      rw [List.take_succ_cons, List.append_assoc, List.singleton_append]
    rw [judge_cons, ih, List.mapIdx_cons]
    simp only [behind, List.take_zero, List.append_nil]
    cases verdict? accepts keyword expected before token with
    | none => rfl
    | some finding => rfl

theorem judge_eq (tokens : List (Token String)) :
    judge accepts keyword expected [] tokens = (verdicts accepts keyword expected tokens, acceptedOf accepts tokens) :=
  Prod.ext (judge_verdicts accepts keyword expected [] tokens) (judge_accepted accepts keyword expected [] tokens)

/-! ## Lists of values -/

/-- What is wrong with a list of values, but for text left over: the operator, values one by one, and that no value is
accepted. -/
def listFindings (operator? : Option (Token Operator)) (tokens : List (Token String)) (line : Range) : List Finding :=
  (operator?.toList.filter (·.value ≠ .equal)).map (fun operator => ⟨.wrongOperator keyword, operator.range⟩) ++
    verdicts accepts keyword expected tokens ++
    if ∃ token ∈ tokens, accepts token.value = true then [] else [⟨.missingStrings keyword, line⟩]

theorem readEquality_findings (cursor : Cursor) :
    (readEquality keyword cursor).1 =
      (cursor.readOperator.1.toList.filter (·.value ≠ .equal)).map fun operator =>
        ⟨.wrongOperator keyword, operator.range⟩ := by
  unfold readEquality
  rcases cursor.readOperator with ⟨operator?, next⟩
  cases operator? with
  | none => rfl
  | some operator =>
    by_cases equal : operator.value = .equal
    · simp [equal]
    · simp [equal]

theorem readValues_findings (cursor : Cursor) :
    (readValues accepts keyword expected cursor).1.findings =
      finish (listFindings accepts keyword expected cursor.readOperator.1 cursor.readOperator.2.readStrings.1
        cursor.readOperator.2.readStrings.2.lineRange) cursor.readOperator.2.readStrings.2 := by
  have missing : (acceptedOf accepts cursor.readOperator.2.readStrings.1).isEmpty = true ↔
      ¬∃ token ∈ cursor.readOperator.2.readStrings.1, accepts token.value = true := by
    simp [acceptedOf]
  simp only [readValues, readEquality_cursor, readEquality_findings, judge_eq, listFindings, missing, ite_not]

theorem finish_eq (findings : List Finding) (cursor : Cursor) :
    finish findings cursor =
      findings ++ if findings = [] ∧ ¬Ignorable cursor.rest then [⟨.trailingText, cursor.restRange⟩] else [] := by
  simp only [← Cursor.isIgnorable_iff]
  cases findings with
  | nil => cases ignored : cursor.isIgnorable <;> simp [finish, ignored]
  | cons finding others => simp [finish]

/-- In a list of values only a duplicate is a mere warning. -/
theorem severity_listFindings {operator? : Option (Token Operator)} {tokens : List (Token String)} {line : Range} :
    ∀ finding ∈ listFindings accepts keyword expected operator? tokens line,
      finding.severity = if finding.problem = .duplicateValue keyword then .warning else .error := by
  refine List.forall_mem_append.mpr ⟨List.forall_mem_append.mpr ⟨?_, ?_⟩, ?_⟩
  · intro finding member
    obtain ⟨operator, -, rfl⟩ := List.mem_map.mp member
    rfl
  · intro finding member
    obtain ⟨index, inside, verdict⟩ := List.mem_mapIdx.mp (List.reduceOption_mem_iff.mp member)
    unfold verdict? at verdict
    split at verdict
    · split at verdict
      · cases verdict
        simp [Finding.severity, Problem.severity]
      · cases verdict
    · cases verdict
      rfl
  · split
    · exact List.forall_mem_nil _
    · exact List.forall_mem_singleton.mpr rfl

end

def valueTest (settings : Settings) (reference : Reference) (block : Block) : Kind → String → Bool
  | .itemClass => acceptsClass settings reference
  | .baseType => (Pool.choose reference block.classes).accepts settings.baseWhitelist
  | _ => fun _ => false

def valueExpectation (reference : Reference) (block : Block) : Kind → Expectation
  | .baseType => (Pool.choose reference block.classes).expectation
  | _ => .itemClass

/-- The test gives an answer for a value. Only that of a `BaseType` rule may fail to. -/
def Tests (reference : Reference) (block : Block) (kind : Kind) (value : String) : Prop :=
  kind = .baseType → (Pool.choose reference block.classes).answers value = true

section
variable {settings : Settings} {reference : Reference} {kind : Kind} {keyword : String} {head : Range} {cursor : Cursor}
  {block : Block} (valued : kind = .itemClass ∨ kind = .baseType)
include valued

theorem exists_read_list_iff :
    (∃ outcome next, read settings reference kind keyword head cursor block = .ok (outcome, next)) ↔
      ∀ token ∈ valueTokens cursor, Tests reference block kind token.value := by
  obtain rfl | rfl := valued
  · simp [read, Tests]
  · simp only [read_baseType_eq_ok_iff, Tests, true_implies]
    constructor
    · rintro ⟨outcome, next, answered, -⟩
      exact answered
    · intro answered
      exact ⟨_, block, answered, rfl, rfl⟩

theorem read_list {outcome : Outcome} {next : Block}
    (done : read settings reference kind keyword head cursor block = .ok (outcome, next)) :
    outcome.findings = finish (listFindings (valueTest settings reference block kind) keyword
      (valueExpectation reference block kind) cursor.readOperator.1 cursor.readOperator.2.readStrings.1
      cursor.readOperator.2.readStrings.2.lineRange) cursor.readOperator.2.readStrings.2 := by
  obtain rfl | rfl := valued
  · cases done
    exact readValues_findings _ _ _ cursor
  · rw [(read_baseType_eq_ok_iff.mp done).2.1]
    exact readValues_findings _ _ _ cursor

end

end Rule

namespace Line

/-- What is read of a line with a list of values. The strings behind the operator come to an end, and the line is read
if the test answers for each of them. Then the findings are the operator if it is none of equality, the verdicts on the
strings in order, that none of them passes the test, and the text left over if there is nothing else to find. Of a
`Class` rule the values that pass the test are added to the classes of the block; a `BaseType` rule leaves the block as
it is. -/
theorem read_list_verdicts (settings : Settings) (reference : Reference) (row : Int) (text : List Char) (block : Block)
    (oneLine : ∀ c ∈ text, Text.isBreak c = false) (word : Token String) (cursor : Cursor)
    (found : head? ⟨row, text, 0⟩ = some (word, cursor)) (kind : Kind) (known : Kind.ofKeyword? word.value = some kind)
    (valued : kind = .itemClass ∨ kind = .baseType) :
    ∃ tokens last, cursor.readOperator.2.Exhausts tokens last ∧
      ((∃ line next, Line.read settings reference row text block = .ok (line, next)) ↔
        ∀ token ∈ tokens, Rule.Tests reference block kind token.value) ∧
      ∀ line next, Line.read settings reference row text block = .ok (line, next) →
        ∃ early, early = Rule.listFindings (Rule.valueTest settings reference block kind) word.value
            (Rule.valueExpectation reference block kind) cursor.readOperator.1 tokens line.range ∧
          line.findings = early ++
            (if early = [] ∧ ¬Ignorable last.rest then [⟨.trailingText, last.restRange⟩] else []) ∧
          (∀ finding ∈ line.findings,
            finding.severity = if finding.problem = .duplicateValue word.value then .warning else .error) ∧
          next = if kind = .itemClass then
              { block with
                classes := block.classes ++
                  (tokens.map Token.value).filter (Rule.valueTest settings reference block kind) }
            else block := by
  have exhausts := cursor.readOperator.2.exhausts_readStrings
  refine ⟨_, _, exhausts, ?_, ?_⟩
  · constructor
    · rintro ⟨line, next, done⟩
      obtain ⟨-, outcome, rule, -⟩ := (read_eq_ok_iff_rule found known).mp done
      exact (Rule.exists_read_list_iff valued).mp ⟨outcome, next, rule⟩
    · intro tested
      obtain ⟨outcome, next, rule⟩ :
          ∃ outcome next, Rule.read settings reference kind word.value word.range cursor block = .ok (outcome, next) :=
        (Rule.exists_read_list_iff valued).mpr tested
      exact ⟨_, next, (read_eq_ok_iff_rule found known).mpr ⟨oneLine, outcome, rule, rfl⟩⟩
  intro line next done
  obtain ⟨-, outcome, rule, rfl⟩ := (read_eq_ok_iff_rule found known).mp done
  have findings := Rule.read_list valued rule
  have whole : cursor.readOperator.2.readStrings.2.lineRange = (⟨row, text, 0⟩ : Cursor).lineRange := by
    rw [exhausts.lineRange, Cursor.readOperator, Cursor.lineRange_read,
      ← Cursor.lineRange_read Lexeme.word ⟨row, text, 0⟩]
    exact congrArg (fun answer => answer.2.lineRange) (readWord_of_head? found).symm
  rw [whole, Rule.finish_eq] at findings
  refine ⟨_, rfl, findings, ?_, ?_⟩
  · change ∀ finding ∈ outcome.findings, _
    rw [findings]
    refine List.forall_mem_append.mpr ⟨Rule.severity_listFindings _ _ _, ?_⟩
    split
    · exact List.forall_mem_singleton.mpr rfl
    · exact List.forall_mem_nil _
  · rw [Rule.read_effect rule]
    obtain rfl | rfl := valued
    · rfl
    · rfl

theorem repeated_class_judged :
    ∃ tokens last line next, (⟨2, "Class > Rings Nope Rings".toList, 5⟩ : Cursor).readOperator.2.Exhausts tokens last ∧
      Line.read {} Bundled.reference 2 "Class > Rings Nope Rings".toList {} = .ok (line, next) ∧
      line.findings = Rule.listFindings (Rule.acceptsClass {} Bundled.reference) "Class" .itemClass
        (some ⟨.greater, .onLine 2 6 7⟩) tokens line.range ∧
      line.findings = [⟨.wrongOperator "Class", .onLine 2 6 7⟩, ⟨.invalidValue "Class" .itemClass, .onLine 2 14 18⟩,
        ⟨.duplicateValue "Class", .onLine 2 19 24⟩] ∧
      next.classes = (tokens.map Token.value).filter (Rule.acceptsClass {} Bundled.reference) ∧
      next.classes = ["Rings", "Rings"] := by
  obtain ⟨tokens, last, exhausts, reads, verdicts⟩ :=
    read_list_verdicts {} Bundled.reference 2 "Class > Rings Nope Rings".toList {} (by simp [Text.isBreak])
      ⟨"Class", .onLine 2 0 5⟩ ⟨2, "Class > Rings Nope Rings".toList, 5⟩ rfl .itemClass rfl (.inl rfl)
  have answered : ∀ token ∈ tokens, Rule.Tests Bundled.reference {} .itemClass token.value := by
    intro token member other
    cases other
  obtain ⟨line, next, done⟩ := reads.mpr answered
  obtain ⟨early, same, findings, -, after⟩ := verdicts line next done
  have evaluated : (Line.read {} Bundled.reference 2 "Class > Rings Nope Rings".toList {}).map
      (fun answer => (answer.1.findings, answer.2.classes)) =
        .ok ([⟨.wrongOperator "Class", .onLine 2 6 7⟩, ⟨.invalidValue "Class" .itemClass, .onLine 2 14 18⟩,
          ⟨.duplicateValue "Class", .onLine 2 19 24⟩], ["Rings", "Rings"]) := by rfl
  rw [done] at evaluated
  obtain ⟨listed, classes⟩ := Prod.mk.inj (Except.ok.inj evaluated)
  have wrong : (⟨.wrongOperator "Class", .onLine 2 6 7⟩ : Finding) ∈ early := by
    rw [same]
    exact List.mem_append_left _ (List.mem_append_left _ List.mem_cons_self)
  rw [if_neg fun clean => List.ne_nil_of_mem wrong clean.1, List.append_nil, same] at findings
  exact ⟨tokens, last, line, next, exhausts, done, findings, listed, by rw [after]; rfl, classes⟩

end Line

end LootFilter
