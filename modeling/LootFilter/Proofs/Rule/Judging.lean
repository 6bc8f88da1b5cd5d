import LootFilter.Rule

/-! Judging the values of a rule in order: which values are accepted, and which findings they get. -/

set_option autoImplicit false

namespace LootFilter.Rule

section
variable (accepts : String → Bool) (keyword : String) (expected : Expectation)

/-- A value is accepted if it passes the test, also when it is a duplicate. -/
theorem judge_accepted (accepted : List String) (tokens : List (Token String)) :
    (judge accepts keyword expected accepted tokens).2 = accepted ++ (tokens.map Token.value).filter accepts := by
  induction tokens generalizing accepted with
  | nil => simp [judge]
  | cons token rest ih =>
    cases passes : accepts token.value with
    | true => simp [judge, passes, ih]
    | false => simp [judge, passes, ih]

theorem judge_clean_iff (accepted : List String) (tokens : List (Token String)) :
    (judge accepts keyword expected accepted tokens).1 = [] ↔
      (∀ value ∈ tokens.map Token.value, accepts value = true) ∧ (tokens.map Token.value).Nodup ∧
        ∀ value ∈ tokens.map Token.value, value ∉ accepted := by
  induction tokens generalizing accepted with
  | nil => simp [judge]
  | cons token rest ih =>
    cases passes : accepts token.value with
    | false => simp [judge, passes]
    | true =>
      by_cases before : token.value ∈ accepted
      · simp [judge, passes, before]
      · have first : (judge accepts keyword expected accepted (token :: rest)).1 =
            (judge accepts keyword expected (accepted ++ [token.value]) rest).1 := by
          simp [judge, passes, before]
        rw [first, ih]
        simp only [List.map_cons, List.mem_cons, forall_eq_or_imp, passes, true_and, List.nodup_cons, before,
          not_false_eq_true, List.mem_append, not_or, List.not_mem_nil, or_false]
        constructor
        · rintro ⟨all, apart, fresh⟩
          exact ⟨all, ⟨fun again => (fresh _ again).2 rfl, apart⟩, fun value member => (fresh value member).1⟩
        · rintro ⟨all, ⟨once, apart⟩, fresh⟩
          exact ⟨all, apart, fun value member => ⟨fresh value member, fun same => once (same ▸ member)⟩⟩

theorem invalid_mem_judge_iff (accepted : List String) (tokens : List (Token String)) (other : Expectation)
    (range : Range) :
    (⟨.invalidValue keyword other, range⟩ : Finding) ∈ (judge accepts keyword expected accepted tokens).1 ↔
      other = expected ∧ ∃ token ∈ tokens, accepts token.value = false ∧ token.range = range := by
  induction tokens generalizing accepted with
  | nil => simp [judge]
  | cons token rest ih =>
    -- A duplicate is another kind of finding.
    have repeated : (⟨.invalidValue keyword other, range⟩ : Finding) ∉
        (if accepted.contains token.value then [⟨.duplicateValue keyword, token.range⟩] else [] : List Finding) := by
      split <;> simp
    cases passes : accepts token.value with
    | true =>
      simp only [judge, passes, if_true, List.mem_append, repeated, false_or, ih, List.mem_cons, exists_eq_or_imp,
        Bool.true_eq_false, false_and]
    | false =>
      simp only [judge, passes, Bool.false_eq_true, if_false, List.mem_append, repeated, false_or, List.mem_cons, ih,
        invalid, Finding.mk.injEq, Problem.invalidValue.injEq, true_and, exists_eq_or_imp, eq_comm (a := range)]
      constructor
      · rintro (⟨rfl, same⟩ | ⟨rfl, found⟩)
        · exact ⟨rfl, .inl same⟩
        · exact ⟨rfl, .inr found⟩
      · rintro ⟨rfl, same | found⟩
        · exact .inl ⟨rfl, same⟩
        · exact .inr ⟨rfl, found⟩

end

/-- A `BaseType` rule is read if every look-up of its values answers. -/
theorem read_baseType_eq_ok_iff {settings : Settings} {reference : Reference} {keyword : String} {head : Range}
    {cursor : Cursor} {block next : Block} {outcome : Outcome} :
    read settings reference .baseType keyword head cursor block = .ok (outcome, next) ↔
      (∀ token ∈ valueTokens cursor, (Pool.choose reference block.classes).answers token.value = true) ∧
        outcome = (readValues ((Pool.choose reference block.classes).accepts settings.baseWhitelist) keyword
          (Pool.choose reference block.classes).expectation cursor).1 ∧ next = block := by
  simp only [read, readBaseType, ← List.all_eq_true]
  split
  · next answered => simp [answered, bind, Except.bind, pure, Except.pure, eq_comm]
  · next unanswered => simp [unanswered, bind, Except.bind]

theorem read_baseType_ok (settings : Settings) {reference : Reference}
    (searchable : reference.lengthIndex.Searchable) (keyword : String) (head : Range) (cursor : Cursor)
    (block : Block) :
    ∃ outcome, read settings reference .baseType keyword head cursor block = .ok (outcome, block) :=
  ⟨_, read_baseType_eq_ok_iff.mpr
    ⟨fun token _ => Pool.answers_choose searchable block.classes token.value, rfl, rfl⟩⟩

end LootFilter.Rule
