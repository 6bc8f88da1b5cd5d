import LootFilter.Proofs.Document.Widening

/-! Whitelists of rules, bases and sounds that grow. What they allow in addition takes errors away, and where that
brings out text left over, the one error for it replaces at least one other. The classes that a block asks for do not
change, so every row is read in the same block as before. -/

set_option autoImplicit false

namespace LootFilter

def errorCount (findings : List Finding) : Nat := findings.countP Finding.isError

def Line.errorCount (line : Line) : Nat := LootFilter.errorCount line.findings

theorem errorCount_append (first second : List Finding) :
    errorCount (first ++ second) = errorCount first + errorCount second := List.countP_append

/-- The same findings, or fewer errors among them. -/
def Eased (before after : List Finding) : Prop := after = before ∨ errorCount after < errorCount before

theorem Eased.le {before after : List Finding} (eased : Eased before after) :
    errorCount after ≤ errorCount before := by
  obtain rfl | fewer := eased
  · exact Nat.le_refl _
  · exact Nat.le_of_lt fewer

theorem Eased.append_left (first : List Finding) {before after : List Finding} (eased : Eased before after) :
    Eased (first ++ before) (first ++ after) := by
  obtain rfl | fewer := eased
  · exact .inl rfl
  · rw [Eased, errorCount_append, errorCount_append]
    exact .inr (by omega)

theorem Eased.append_right {before after : List Finding} (eased : Eased before after) (last : List Finding) :
    Eased (before ++ last) (after ++ last) := by
  obtain rfl | fewer := eased
  · exact .inl rfl
  · rw [Eased, errorCount_append, errorCount_append]
    exact .inr (by omega)

namespace Rule

/-- Text left over is one error, reported only when all the other findings are gone. -/
theorem finish_errorCount_le {before after : List Finding} (eased : Eased before after) (cursor : Cursor) :
    errorCount (finish after cursor) ≤ errorCount (finish before cursor) := by
  obtain rfl | fewer := eased
  · exact Nat.le_refl _
  · have some_finding : before ≠ [] := by
      rintro rfl
      exact absurd fewer (Nat.not_lt_zero _)
    have kept : finish before cursor = before := by simp [finish, some_finding]
    rw [kept]
    unfold finish
    split
    · change 1 ≤ errorCount before
      omega
    · exact Nat.le_of_lt fewer

/-! ## Values -/

section
variable {accepts accepts' : String → Bool} (keyword : String) (expected : Expectation)

theorem errorCount_judge (accepts : String → Bool) (accepted : List String) (tokens : List (Token String)) :
    errorCount (judge accepts keyword expected accepted tokens).1 =
      (tokens.map Token.value).countP fun value => !accepts value := by
  induction tokens generalizing accepted with
  | nil => rfl
  | cons token rest ih =>
    have repeated : errorCount
        (if accepted.contains token.value then [⟨.duplicateValue keyword, token.range⟩] else []) = 0 := by
      split <;> rfl
    cases passes : accepts token.value with
    | true =>
      simp only [judge, passes, if_true, errorCount_append, repeated, ih, List.map_cons, List.countP_cons,
        Bool.not_true, Bool.false_eq_true, if_false, Nat.zero_add, Nat.add_zero]
    | false =>
      have error : errorCount (invalid keyword expected token.range ::
          (judge accepts keyword expected accepted rest).1) =
            errorCount (judge accepts keyword expected accepted rest).1 + 1 := List.countP_cons_of_pos rfl
      simp only [judge, passes, Bool.false_eq_true, if_false, errorCount_append, repeated, error, ih, List.map_cons,
        List.countP_cons, Bool.not_false, if_true, Nat.zero_add]

theorem judge_congr {tokens : List (Token String)}
    (same : ∀ value ∈ tokens.map Token.value, accepts' value = accepts value) (accepted : List String) :
    judge accepts' keyword expected accepted tokens = judge accepts keyword expected accepted tokens := by
  induction tokens generalizing accepted with
  | nil => rfl
  | cons token rest ih =>
    obtain ⟨first, others⟩ := List.forall_mem_cons.mp same
    simp only [judge, first, ih others]

/-- A test that accepts more either judges these values alike or finds fewer of them invalid. -/
theorem judge_eased (more : ∀ value, accepts value = true → accepts' value = true) (tokens : List (Token String)) :
    judge accepts' keyword expected [] tokens = judge accepts keyword expected [] tokens ∨
      errorCount (judge accepts' keyword expected [] tokens).1 <
        errorCount (judge accepts keyword expected [] tokens).1 := by
  by_cases same : ∀ value ∈ tokens.map Token.value, accepts' value = accepts value
  · exact .inl (judge_congr keyword expected same [])
  · right
    rw [errorCount_judge, errorCount_judge]
    obtain ⟨value, member, differs⟩ : ∃ value ∈ tokens.map Token.value, accepts' value ≠ accepts value := by
      simpa using same
    have fails : accepts value = false := by
      by_contra passes
      have passes : accepts value = true := by simpa using passes
      exact differs ((more value passes).trans passes.symm)
    have passes' : accepts' value = true := by simpa [fails] using differs
    -- The value that is accepted now was counted before, and every other one counts at most as it did.
    obtain ⟨front, back, split⟩ := List.append_of_mem member
    have fewer : ∀ values : List String,
        values.countP (fun value => !accepts' value) ≤ values.countP (fun value => !accepts value) := by
      intro values
      refine List.countP_mono_left fun value _ rejected => ?_
      cases passes : accepts value with
      | true => simp [more value passes] at rejected
      | false => rfl
    have before := fewer front
    have behind := fewer back
    simp only [split, List.countP_append, List.countP_cons, fails, passes', Bool.not_true, Bool.not_false,
      Bool.false_eq_true, if_false, if_true]
    omega

theorem readValues_errorCount_le (more : ∀ value, accepts value = true → accepts' value = true) (cursor : Cursor) :
    errorCount (readValues accepts' keyword expected cursor).1.findings ≤
      errorCount (readValues accepts keyword expected cursor).1.findings := by
  simp only [readValues]
  apply finish_errorCount_le
  obtain same | fewer := judge_eased keyword expected more (readEquality keyword cursor).2.readStrings.1
  · exact .inl (by rw [same])
  · refine .inr ?_
    have late : errorCount
        (if (judge accepts' keyword expected [] (readEquality keyword cursor).2.readStrings.1).2.isEmpty
          then [⟨.missingStrings keyword, (readEquality keyword cursor).2.readStrings.2.lineRange⟩] else []) ≤
        errorCount (if (judge accepts keyword expected [] (readEquality keyword cursor).2.readStrings.1).2.isEmpty
          then [⟨.missingStrings keyword, (readEquality keyword cursor).2.readStrings.2.lineRange⟩] else []) := by
      split
      · next none' =>
        have none :
            (judge accepts keyword expected [] (readEquality keyword cursor).2.readStrings.1).2.isEmpty = true := by
          rw [judge_accepted, List.nil_append, List.isEmpty_iff, List.filter_eq_nil_iff] at none' ⊢
          exact fun value member passes => none' value member (more value passes)
        rw [if_pos none]
      · exact Nat.zero_le _
    simp only [errorCount_append]
    omega

end

/-! ## Sounds -/

section
variable {settings wider : Settings}

theorem readIdentifier_eased (within : settings.Within wider) (sounds : Sounds) (keyword : String) (cursor : Cursor) :
    readIdentifier wider sounds keyword cursor = readIdentifier settings sounds keyword cursor ∨
      ∃ range identifier last,
        readIdentifier settings sounds keyword cursor =
          (some ([invalid keyword (.sound sounds.least sounds.greatest) range], none), last) ∧
        readIdentifier wider sounds keyword cursor = (some ([], some identifier), last) := by
  rcases result : cursor.readWord with ⟨word?, next⟩
  simp only [readIdentifier, result]
  cases word? with
  | none => exact .inl rfl
  | some word =>
    by_cases known : sounds.labels.contains word.value = true
    · simp only [if_pos known, true_or]
    · by_cases allowed : settings.soundWhitelist.contains word.value = true
      · simp only [if_neg known, if_pos allowed, if_pos (contains_of_subset within.sounds allowed), true_or]
      · by_cases allowed' : wider.soundWhitelist.contains word.value = true
        · exact .inr ⟨word.range, ⟨word.value, false, word.range⟩, next, by simp only [if_neg known, if_neg allowed],
            by simp only [if_neg known, if_pos allowed']⟩
        · simp only [if_neg known, if_neg allowed, if_neg allowed', true_or]

theorem readSound_errorCount_le (within : settings.Within wider) (sounds : Sounds) (keyword : String)
    (cursor : Cursor) :
    errorCount (readSound wider sounds keyword cursor).findings ≤
      errorCount (readSound settings sounds keyword cursor).findings := by
  obtain same | ⟨range, identifier, last, before, after⟩ :=
    readIdentifier_eased within sounds keyword (readEquality keyword cursor).2
  · simp only [readSound, same, Nat.le_refl]
  · simp only [readSound, before, after]
    apply finish_errorCount_le
    apply Eased.append_right
    apply Eased.append_left
    exact .inr Nat.zero_lt_one

/-! ## Rules, lines and rows -/

/-- Rules of all other kinds do not look at these whitelists, and no rule leaves another block because of them. -/
theorem read_eased (within : settings.Within wider) (classes : wider.classWhitelist = settings.classWhitelist)
    {reference : Reference} {kind : Kind} {keyword : String} {head : Range} {cursor : Cursor} {block next : Block}
    {outcome : Outcome} (done : read settings reference kind keyword head cursor block = .ok (outcome, next)) :
    ∃ eased, read wider reference kind keyword head cursor block = .ok (eased, next) ∧
      errorCount eased.findings ≤ errorCount outcome.findings := by
  cases kind with
  | block => exact ⟨outcome, done, Nat.le_refl _⟩
  | number => exact ⟨outcome, done, Nat.le_refl _⟩
  | fontSize => exact ⟨outcome, done, Nat.le_refl _⟩
  | rarity => exact ⟨outcome, done, Nat.le_refl _⟩
  | socketGroup => exact ⟨outcome, done, Nat.le_refl _⟩
  | boolean => exact ⟨outcome, done, Nat.le_refl _⟩
  | color => exact ⟨outcome, done, Nat.le_refl _⟩
  | itemClass =>
    have same : acceptsClass wider reference = acceptsClass settings reference := by
      funext value
      rw [acceptsClass, acceptsClass, classes]
    refine ⟨outcome, ?_, Nat.le_refl _⟩
    simp only [read, same] at done ⊢
    exact done
  | baseType =>
    obtain ⟨answered, rfl, unchanged⟩ := read_baseType_eq_ok_iff.mp done
    exact ⟨_, read_baseType_eq_ok_iff.mpr ⟨answered, rfl, unchanged⟩,
      readValues_errorCount_le keyword _ (fun _ => acceptsBase_within within _) cursor⟩
  | sound =>
    simp only [read] at done ⊢
    obtain ⟨rfl, rfl⟩ := Prod.mk.inj (Except.ok.inj done)
    exact ⟨_, rfl, readSound_errorCount_le within reference.sounds keyword cursor⟩

end

end Rule

structure Line.Eased (line eased : Line) : Prop where
  keyword : eased.keyword = line.keyword
  range : eased.range = line.range
  errors : eased.errorCount ≤ line.errorCount

section
variable {settings wider : Settings} {reference : Reference} {row : Int}

namespace Line

theorem plain_eased (within : settings.Within wider) (cursor : Cursor) :
    (plain settings cursor).Eased (plain wider cursor) := by
  rcases result : cursor.readWord with ⟨word?, next⟩
  by_cases ignored : cursor.isIgnorable = true
  · simp only [plain, if_pos ignored]
    exact ⟨rfl, rfl, Nat.le_refl _⟩
  · simp only [plain, if_neg ignored, result]
    cases word? with
    | none => exact ⟨rfl, rfl, Nat.le_refl _⟩
    | some word =>
      refine ⟨rfl, rfl, ?_⟩
      simp only [errorCount]
      by_cases allowed : settings.ruleWhitelist.contains word.value = true
      · rw [if_pos allowed, if_pos (contains_of_subset within.rules allowed)]
      · rw [if_neg allowed]
        split
        · exact Nat.zero_le _
        · exact Nat.le_refl _

theorem read_eased (within : settings.Within wider) (classes : wider.classWhitelist = settings.classWhitelist)
    {text : List Char} {block next : Block} {line : Line}
    (done : Line.read settings reference row text block = .ok (line, next)) :
    ∃ eased, Line.read wider reference row text block = .ok (eased, next) ∧ line.Eased eased := by
  obtain ⟨oneLine, ⟨nothing, rfl, rfl⟩ | ⟨word, cursor, kind, outcome, found, known, rule, rfl⟩⟩ :=
    read_eq_ok_iff_dispatch.mp done
  · exact ⟨_, read_eq_ok_iff_dispatch.mpr ⟨oneLine, .inl ⟨nothing, rfl, rfl⟩⟩, plain_eased within _⟩
  · obtain ⟨eased, rule', fewer⟩ := Rule.read_eased within classes rule
    exact ⟨_, read_eq_ok_iff_dispatch.mpr
      ⟨oneLine, .inr ⟨word, cursor, kind, eased, found, known, rule', rfl⟩⟩, rfl, rfl, fewer⟩

theorem Eased.addFinding {line eased : Line} (easing : line.Eased eased) (finding : Finding) :
    (line.addFinding finding).Eased (eased.addFinding finding) := by
  refine ⟨easing.keyword, easing.range, ?_⟩
  have fewer := easing.errors
  simp only [errorCount, Line.addFinding, errorCount_append] at fewer ⊢
  omega

end Line

namespace Progress

/-- A line that is placed gets the same finding for its place, whatever its own findings are. -/
theorem place_eased {parsed eased line : Line} (easing : parsed.Eased eased) {progress next : Progress}
    (done : progress.place reference parsed = .ok (line, next)) :
    ∃ placed, progress.place reference eased = .ok (placed, next) ∧ line.Eased placed := by
  unfold place at done ⊢
  rw [easing.keyword]
  split at done
  · next name range kind mark =>
    split at done
    · next opens =>
      cases done
      exact ⟨eased, by rw [if_pos opens], easing⟩
    · next inner =>
      rw [if_neg inner]
      split at done
      · next outside =>
        cases done
        rw [if_pos outside, easing.range]
        exact ⟨_, rfl, easing.addFinding _⟩
      · next inside =>
        rw [if_neg inside]
        cases limit : reference.occurrencesOf name with
        | error gap =>
          rw [limit] at done
          cases done
        | ok count =>
          rw [limit] at done
          simp only [bind, Except.bind] at done ⊢
          split at done
          · next within =>
            cases done
            exact ⟨eased, by rw [if_pos within]; rfl, easing⟩
          · next beyond =>
            cases done
            exact ⟨_, by rw [if_neg beyond]; rfl, easing.addFinding _⟩
  · next other =>
    cases done
    exact ⟨eased, rfl, easing⟩

theorem step_eased (within : settings.Within wider) (classes : wider.classWhitelist = settings.classWhitelist)
    {text : List Char} {progress next : Progress} {line : Line}
    (done : progress.step settings reference row text = (.ok line, next)) :
    ∃ eased, progress.step wider reference row text = (.ok eased, next) ∧ line.Eased eased := by
  obtain ⟨parsed, block, read, placed⟩ := step_cases done
  obtain ⟨easier, read', easing⟩ := Line.read_eased within classes read
  obtain ⟨eased, placed', easing'⟩ := place_eased easing placed
  exact ⟨eased, by simp only [step, read', placed'], easing'⟩

end Progress

namespace Document

/-- Every row is read in the block in which it was read before. -/
theorem after_eased (within : settings.Within wider) (classes : wider.classWhitelist = settings.classWhitelist)
    {progress : Progress} {texts : List (List Char)} {lines : List Line}
    (done : readLines settings reference row progress texts = .ok lines) :
    progress.after wider reference row texts = progress.after settings reference row texts := by
  induction texts generalizing row progress lines with
  | nil => rfl
  | cons text rest ih =>
    obtain ⟨line, next, others, first, later, -⟩ := readLines_cons_iff.mp done
    obtain ⟨eased, first', -⟩ := Progress.step_eased within classes first
    simp only [Progress.after, first, first', ih later]

end Document

end

namespace Document

/-- Under whitelists of rules, bases and sounds that have all the entries of the first ones, and the same whitelist of
classes, every row of a document has at most as many errors, and the rows before it leave the same block. -/
theorem errors_at_most_under_wider_whitelists (settings wider : Settings) (within : settings.Within wider)
    (classes : wider.classWhitelist = settings.classWhitelist) (reference : Reference) (complete : reference.Complete)
    (text : List Char) :
    ∃ document eased, Document.read settings reference text = .ok document ∧
      Document.read wider reference text = .ok eased ∧
      ∀ before source after, Text.splitLines text = before ++ source :: after →
        Progress.after wider reference 0 {} before = Progress.after settings reference 0 {} before ∧
        ∃ line easier, document.lines[before.length]? = some line ∧ eased.lines[before.length]? = some easier ∧
          easier.errorCount ≤ line.errorCount := by
  obtain ⟨document, done, lines⟩ := read_ok settings complete text
  obtain ⟨eased, done', lines'⟩ := read_ok wider complete text
  refine ⟨document, eased, done, done', ?_⟩
  intro before source after split
  rw [split] at lines lines'
  obtain ⟨leading, line, trailing, next, same, length, first, step⟩ := readLines_line lines
  obtain ⟨leading', easier, trailing', next', same', length', -, step'⟩ := readLines_line lines'
  have blocks := after_eased within classes first
  obtain ⟨other, again, easing⟩ := Progress.step_eased within classes step
  rw [blocks, again] at step'
  cases step'
  exact ⟨blocks, line, easier, by simp [same, ← length], by simp [same', ← length'], easing.errors⟩

/-- A base that is allowed takes two errors away and brings out the text behind it. -/
theorem allowed_base_leaves_one_error :
    ∃ document eased, Document.read {} Bundled.reference "Show\nClass Belts\nBaseType Foo > 5".toList = .ok document ∧
      Document.read { baseWhitelist := ["Foo"] } Bundled.reference "Show\nClass Belts\nBaseType Foo > 5".toList =
        .ok eased ∧
      document.lines.map Line.errorCount = [0, 0, 2] ∧ eased.lines.map Line.errorCount = [0, 0, 1] ∧
      ∃ line easier, document.lines[2]? = some line ∧ eased.lines[2]? = some easier ∧
        easier.errorCount ≤ line.errorCount := by
  obtain ⟨document, eased, done, done', rows⟩ := errors_at_most_under_wider_whitelists {} { baseWhitelist := ["Foo"] }
    ⟨by decide, by decide, by decide, by decide⟩ rfl Bundled.reference Bundled.complete
    "Show\nClass Belts\nBaseType Foo > 5".toList
  have counts : (Document.read {} Bundled.reference "Show\nClass Belts\nBaseType Foo > 5".toList).map
      (fun document => document.lines.map Line.errorCount) = .ok [0, 0, 2] := by rfl
  have counts' : (Document.read { baseWhitelist := ["Foo"] } Bundled.reference
      "Show\nClass Belts\nBaseType Foo > 5".toList).map
      (fun document => document.lines.map Line.errorCount) = .ok [0, 0, 1] := by rfl
  rw [done] at counts
  rw [done'] at counts'
  exact ⟨document, eased, done, done', Except.ok.inj counts, Except.ok.inj counts',
    (rows ["Show".toList, "Class Belts".toList] "BaseType Foo > 5".toList [] rfl).2⟩

end Document

end LootFilter
