import LootFilter.Proofs.Document.History
import LootFilter.Proofs.Line.Dispatch
import LootFilter.Proofs.Rule.Severity

/-! Whitelists that grow. A document without errors reads the same under larger whitelists: whatever they allow in
addition, the document does not ask for it. -/

set_option autoImplicit false

namespace LootFilter

structure Settings.Within (settings wider : Settings) : Prop where
  classes : settings.classWhitelist ⊆ wider.classWhitelist
  bases : settings.baseWhitelist ⊆ wider.baseWhitelist
  rules : settings.ruleWhitelist ⊆ wider.ruleWhitelist
  sounds : settings.soundWhitelist ⊆ wider.soundWhitelist

theorem any_of_subset {α : Type} {first second : List α} (subset : first ⊆ second) {test : α → Bool}
    (found : first.any test = true) : second.any test = true := by
  obtain ⟨entry, member, passes⟩ := List.any_eq_true.mp found
  exact List.any_eq_true.mpr ⟨entry, subset member, passes⟩

theorem contains_of_subset {first second : List String} (subset : first ⊆ second) {name : String}
    (found : first.contains name = true) : second.contains name = true :=
  List.contains_iff_mem.mpr (subset (List.contains_iff_mem.mp found))

namespace Rule

section
variable {settings wider : Settings}

/-! ## Values -/

theorem acceptsClass_within (within : settings.Within wider) (reference : Reference) {value : String}
    (passes : acceptsClass settings reference value = true) : acceptsClass wider reference value = true := by
  obtain known | allowed := Bool.or_eq_true_iff.mp passes
  · exact Bool.or_eq_true_iff.mpr (.inl known)
  · exact Bool.or_eq_true_iff.mpr (.inr (any_of_subset within.classes allowed))

theorem acceptsBase_within (within : settings.Within wider) (pool : Pool) {value : String}
    (passes : pool.accepts settings.baseWhitelist value = true) : pool.accepts wider.baseWhitelist value = true := by
  obtain known | allowed := Bool.or_eq_true_iff.mp passes
  · exact Bool.or_eq_true_iff.mpr (.inl known)
  · exact Bool.or_eq_true_iff.mpr (.inr (any_of_subset within.bases allowed))

theorem judge_of_errorFree {accepts accepts' : String → Bool}
    (more : ∀ value, accepts value = true → accepts' value = true) (keyword : String) (expected : Expectation)
    (accepted : List String) (tokens : List (Token String))
    (free : ErrorFree (judge accepts keyword expected accepted tokens).1) :
    judge accepts' keyword expected accepted tokens = judge accepts keyword expected accepted tokens := by
  induction tokens generalizing accepted with
  | nil => rfl
  | cons token rest ih =>
    cases passes : accepts token.value with
    | true =>
      have later : ErrorFree (judge accepts keyword expected (accepted ++ [token.value]) rest).1 := by
        simp only [judge, passes, if_true] at free
        exact free.right
      simp only [judge, passes, more token.value passes, if_true, ih _ later]
    | false =>
      -- A value that fails the test leaves an error.
      simp only [judge, passes, Bool.false_eq_true, if_false] at free
      have mere := free.right _ List.mem_cons_self
      cases mere

theorem readValues_of_errorFree {accepts accepts' : String → Bool}
    (more : ∀ value, accepts value = true → accepts' value = true) (keyword : String) (expected : Expectation)
    (cursor : Cursor) (free : ErrorFree (readValues accepts keyword expected cursor).1.findings) :
    readValues accepts' keyword expected cursor = readValues accepts keyword expected cursor := by
  have judged : ErrorFree (judge accepts keyword expected [] (readEquality keyword cursor).2.readStrings.1).1 := by
    simp only [readValues] at free
    exact (errorFree_of_finish free).left.right
  simp only [readValues, judge_of_errorFree more keyword expected [] _ judged]

/-! ## Sounds -/

theorem readIdentifier_of_errorFree (within : settings.Within wider) (sounds : Sounds) (keyword : String)
    (cursor : Cursor)
    (free : ∀ own identifier?, (readIdentifier settings sounds keyword cursor).1 = some (own, identifier?) →
      ErrorFree own) :
    readIdentifier wider sounds keyword cursor = readIdentifier settings sounds keyword cursor := by
  rcases result : cursor.readWord with ⟨word?, next⟩
  simp only [readIdentifier, result] at free ⊢
  cases word? with
  | none => rfl
  | some word =>
    simp only at free ⊢
    split at free
    · next known => rw [if_pos known, if_pos known]
    · next unknown =>
      split at free
      · next allowed =>
        rw [if_neg unknown, if_neg unknown, if_pos allowed, if_pos (contains_of_subset within.sounds allowed)]
      · have mere := free _ _ rfl _ List.mem_cons_self
        cases mere

theorem readSound_of_errorFree (within : settings.Within wider) (sounds : Sounds) (keyword : String) (cursor : Cursor)
    (free : ErrorFree (readSound settings sounds keyword cursor).findings) :
    readSound wider sounds keyword cursor = readSound settings sounds keyword cursor := by
  have own : ∀ own identifier?,
      (readIdentifier settings sounds keyword (readEquality keyword cursor).2).1 = some (own, identifier?) →
        ErrorFree own := by
    intro own identifier? found
    rcases result : readIdentifier settings sounds keyword (readEquality keyword cursor).2 with ⟨answer, last⟩
    rw [result] at found
    subst found
    simp only [readSound, result] at free
    exact (errorFree_of_finish free).left.right
  simp only [readSound, readIdentifier_of_errorFree within sounds keyword _ own]

theorem read_of_errorFree (within : settings.Within wider) {reference : Reference} {kind : Kind} {keyword : String}
    {head : Range} {cursor : Cursor} {block next : Block} {outcome : Outcome}
    (done : read settings reference kind keyword head cursor block = .ok (outcome, next))
    (free : ErrorFree outcome.findings) :
    read wider reference kind keyword head cursor block = .ok (outcome, next) := by
  cases kind with
  | block => exact done
  | number => exact done
  | fontSize => exact done
  | rarity => exact done
  | socketGroup => exact done
  | boolean => exact done
  | color => exact done
  | itemClass =>
    simp only [read] at done ⊢
    obtain ⟨rfl, rfl⟩ := Prod.mk.inj (Except.ok.inj done)
    have more : ∀ value, acceptsClass settings reference value = true → acceptsClass wider reference value = true :=
      fun _ => acceptsClass_within within reference
    rw [readValues_of_errorFree more keyword _ cursor free]
  | baseType =>
    -- The same values are looked up in the same pool, so the look-ups answer again.
    obtain ⟨answered, rfl, unchanged⟩ := read_baseType_eq_ok_iff.mp done
    have more : ∀ value, (Pool.choose reference block.classes).accepts settings.baseWhitelist value = true →
        (Pool.choose reference block.classes).accepts wider.baseWhitelist value = true :=
      fun _ => acceptsBase_within within _
    rw [← readValues_of_errorFree more keyword _ cursor free]
    exact read_baseType_eq_ok_iff.mpr ⟨answered, rfl, unchanged⟩
  | sound =>
    simp only [read] at done ⊢
    obtain ⟨rfl, rfl⟩ := Prod.mk.inj (Except.ok.inj done)
    rw [readSound_of_errorFree within reference.sounds keyword cursor free]

end

end Rule

section
variable {settings wider : Settings} {reference : Reference} {row : Int}

namespace Line

theorem plain_of_errorFree (within : settings.Within wider) (cursor : Cursor)
    (free : ErrorFree (plain settings cursor).findings) : plain wider cursor = plain settings cursor := by
  rcases result : cursor.readWord with ⟨word?, next⟩
  simp only [plain, result] at free ⊢
  by_cases ignored : cursor.isIgnorable = true
  · rw [if_pos ignored, if_pos ignored]
  · rw [if_neg ignored] at free
    rw [if_neg ignored, if_neg ignored]
    cases word? with
    | none => rfl
    | some word =>
      simp only at free ⊢
      split at free
      · next allowed => rw [if_pos allowed, if_pos (contains_of_subset within.rules allowed)]
      · have mere := free _ List.mem_cons_self
        cases mere

theorem read_of_errorFree (within : settings.Within wider) {text : List Char} {block next : Block} {line : Line}
    (done : Line.read settings reference row text block = .ok (line, next)) (free : ErrorFree line.findings) :
    Line.read wider reference row text block = .ok (line, next) := by
  obtain ⟨oneLine, ⟨nothing, rfl, rfl⟩ | ⟨word, cursor, kind, outcome, found, known, rule, rfl⟩⟩ :=
    read_eq_ok_iff_dispatch.mp done
  · exact read_eq_ok_iff_dispatch.mpr
      ⟨oneLine, .inl ⟨nothing, (plain_of_errorFree within _ free).symm, rfl⟩⟩
  · have same := Rule.read_of_errorFree within rule free
    exact read_eq_ok_iff_dispatch.mpr ⟨oneLine, .inr ⟨word, cursor, kind, outcome, found, known, same, rfl⟩⟩

end Line

namespace Progress

theorem step_of_errorFree (within : settings.Within wider) {text : List Char} {progress next : Progress} {line : Line}
    (done : progress.step settings reference row text = (.ok line, next)) (free : ErrorFree line.findings) :
    progress.step wider reference row text = (.ok line, next) := by
  obtain ⟨parsed, block, read, placed⟩ := step_cases done
  have same : Line.read wider reference row text progress.block = .ok (parsed, block) :=
    Line.read_of_errorFree within read fun finding member => free finding (findings_subset_place placed member)
  simp only [step, same, placed]

end Progress

namespace Document

theorem readLines_of_errorFree (within : settings.Within wider) {progress : Progress} {texts : List (List Char)}
    {lines : List Line} (done : readLines settings reference row progress texts = .ok lines)
    (free : ErrorFree (lines.flatMap Line.findings)) :
    readLines wider reference row progress texts = .ok lines := by
  induction texts generalizing row progress lines with
  | nil => exact done
  | cons text rest ih =>
    obtain ⟨line, next, others, first, later, rfl⟩ := readLines_cons_iff.mp done
    rw [List.flatMap_cons] at free
    apply readLines_cons_iff.mpr
    exact ⟨line, next, others, Progress.step_of_errorFree within first free.left, ih later free.right, rfl⟩

/-- A document without errors has the same lines, findings, colours and sounds under any whitelists that have all the
entries of its own. -/
theorem read_unchanged_by_wider_whitelists (settings wider : Settings) (within : settings.Within wider)
    (reference : Reference) (complete : reference.Complete) (text : List Char) :
    ∃ document, Document.read settings reference text = .ok document ∧
      (document.hasErrors = false →
        ∃ same, Document.read wider reference text = .ok same ∧ same.lines = document.lines ∧
          same.findings = document.findings ∧ same.colors = document.colors ∧ same.sounds = document.sounds) := by
  obtain ⟨document, done, lines⟩ := read_ok settings complete text
  refine ⟨document, done, fun clean => ?_⟩
  have same : Document.read wider reference text = .ok document := by
    rw [read, readLines_of_errorFree within lines (errorFree_of_clean clean)]
    rfl
  exact ⟨document, same, rfl, rfl, rfl, rfl⟩

theorem relics_unchanged_by_wider_whitelists :
    ∃ document, Document.read { classWhitelist := ["Relics"], soundWhitelist := ["Ding"] } Bundled.reference
        "Show\nClass Relics Relics\nPlayAlertSound Ding".toList = .ok document ∧
      document.findings.map Finding.severity = [.warning] ∧
      ∃ same, Document.read { classWhitelist := ["Rune", "Relics"], soundWhitelist := ["Ding", "Dong"] }
          Bundled.reference "Show\nClass Relics Relics\nPlayAlertSound Ding".toList = .ok same ∧
        same.lines = document.lines := by
  have found : (Document.read { classWhitelist := ["Relics"], soundWhitelist := ["Ding"] } Bundled.reference
      "Show\nClass Relics Relics\nPlayAlertSound Ding".toList).map
        (fun document => (document.hasErrors, document.findings.map Finding.severity)) = .ok (false, [.warning]) := by
    rfl
  obtain ⟨document, done, unchanged⟩ :=
    read_unchanged_by_wider_whitelists { classWhitelist := ["Relics"], soundWhitelist := ["Ding"] }
      { classWhitelist := ["Rune", "Relics"], soundWhitelist := ["Ding", "Dong"] }
      ⟨by decide, by decide, by decide, by decide⟩ Bundled.reference Bundled.complete
      "Show\nClass Relics Relics\nPlayAlertSound Ding".toList
  rw [done] at found
  obtain ⟨clean, severities⟩ := Prod.mk.inj (Except.ok.inj found)
  obtain ⟨same, read, lines, -⟩ := unchanged clean
  exact ⟨document, done, severities, same, read, lines⟩

end Document

end

end LootFilter
