import LootFilter.Document
import LootFilter.Proofs.Rule.Acceptance

/-! What a rule can report, and what its findings say about the text that the rule leaves unread.

A rule without findings leaves only text that is ignored. Whatever else is wrong with a rule is an error, except that a
value may stand there twice; and the only numbers in its findings are bounds that the data set for it. -/

set_option autoImplicit false

namespace LootFilter

/-- There are no errors among the findings; there may be warnings. -/
def ErrorFree (findings : List Finding) : Prop := ∀ finding ∈ findings, finding.isError = false

theorem ErrorFree.left {first second : List Finding} (free : ErrorFree (first ++ second)) : ErrorFree first :=
  (List.forall_mem_append.mp free).1

theorem ErrorFree.right {first second : List Finding} (free : ErrorFree (first ++ second)) : ErrorFree second :=
  (List.forall_mem_append.mp free).2

theorem Document.errorFree_of_clean {document : Document} (clean : document.hasErrors = false) :
    ErrorFree document.findings :=
  fun finding member => Bool.eq_false_iff.mpr (List.any_eq_false.mp clean finding member)

def Tells (fits : Problem → Prop) (findings : List Finding) : Prop := ∀ finding ∈ findings, fits finding.problem

/-- Findings of problems that fit, and none at all only if the text left over is ignored. -/
structure Outcome.Accounts (fits : Problem → Prop) (outcome : Outcome) : Prop where
  told : Tells fits outcome.findings
  rest : outcome.findings = [] → Ignorable outcome.cursor.rest

namespace Tells

variable {fits : Problem → Prop}

theorem nil : Tells fits [] := List.forall_mem_nil _

theorem append {first second : List Finding} (told : Tells fits first) (told' : Tells fits second) :
    Tells fits (first ++ second) :=
  List.forall_mem_append.mpr ⟨told, told'⟩

theorem one {finding : Finding} (fit : fits finding.problem) : Tells fits [finding] :=
  List.forall_mem_singleton.mpr fit

end Tells

namespace Rule

inductive Expects (reference : Reference) (keyword : String) : Kind → Expectation → Prop where
  | number {limits : Limits} (found : reference.limits.get? keyword = some limits) :
    Expects reference keyword .number (.number limits)
  | fontSize {limits : Limits} (found : reference.limits.get? keyword = some limits) :
    Expects reference keyword .fontSize (.number limits)
  | rarity (names : List String) : Expects reference keyword .rarity (.rarity names)
  | socketGroup : Expects reference keyword .socketGroup .socketGroup
  | color {limits : Limits} (found : reference.limits.get? keyword = some limits) :
    Expects reference keyword .color (.channels limits)
  | itemClass : Expects reference keyword .itemClass .itemClass
  | baseType (pool : Pool) : Expects reference keyword .baseType pool.expectation
  | sound : Expects reference keyword .sound (.sound reference.sounds.least reference.sounds.greatest)
  | volume : Expects reference keyword .sound .volume

inductive Reports (reference : Reference) (keyword : String) (kind : Kind) : Problem → Prop where
  | trailingText : Reports reference keyword kind .trailingText
  | wrongOperator : Reports reference keyword kind (.wrongOperator keyword)
  | missingValue {expected : Expectation} (wanted : Expects reference keyword kind expected) :
    Reports reference keyword kind (.missingValue keyword expected)
  | invalidValue {expected : Expectation} (wanted : Expects reference keyword kind expected) :
    Reports reference keyword kind (.invalidValue keyword expected)
  | missingBoolean (names : List String) : Reports reference keyword kind (.missingBoolean names)
  | missingStrings : Reports reference keyword kind (.missingStrings keyword)
  | duplicateValue (valued : kind = .itemClass ∨ kind = .baseType) :
    Reports reference keyword kind (.duplicateValue keyword)

theorem errorFree_of_finish {findings : List Finding} {cursor : Cursor} (free : ErrorFree (finish findings cursor)) :
    ErrorFree findings := by
  cases findings with
  | nil => exact List.forall_mem_nil _
  | cons finding others => exact free

section
variable {reference : Reference} {keyword : String} {kind : Kind}

theorem finish_accounts {findings : List Finding} (told : Tells (Reports reference keyword kind) findings)
    (cursor : Cursor) (color : Option ColorMark) (sound : Option SoundMark) :
    Outcome.Accounts (Reports reference keyword kind) ⟨finish findings cursor, cursor, color, sound⟩ where
  told := by
    unfold finish
    split
    · exact .one .trailingText
    · exact told
  rest clean := (finish_eq_nil_iff.mp clean).2

theorem readEquality_tells (cursor : Cursor) :
    Tells (Reports reference keyword kind) (readEquality keyword cursor).1 := by
  unfold readEquality
  split
  · split
    · exact .nil
    · exact .one .wrongOperator
  · exact .nil

theorem readNumberAfter_accounts {limits : Limits} (wanted : Expects reference keyword kind (.number limits))
    {findings : List Finding} (told : Tells (Reports reference keyword kind) findings) (cursor : Cursor) :
    (readNumberAfter limits keyword findings cursor).Accounts (Reports reference keyword kind) := by
  apply finish_accounts
  apply told.append
  split
  · exact .one (.missingValue wanted)
  · split
    · exact .nil
    · exact .one (.invalidValue wanted)

theorem readChoice_accounts {expected : Expectation} (wanted : Expects reference keyword kind expected)
    (accepts : String → Bool) {findings : List Finding} (told : Tells (Reports reference keyword kind) findings)
    (cursor : Cursor) :
    (readChoice accepts expected keyword findings cursor).Accounts (Reports reference keyword kind) := by
  apply finish_accounts
  apply told.append
  split
  · exact .one (.missingValue wanted)
  · split
    · exact .nil
    · exact .one (.invalidValue wanted)

theorem readBoolean_accounts {cursor : Cursor} {outcome : Outcome}
    (done : readBoolean reference keyword cursor = .ok outcome) :
    outcome.Accounts (Reports reference keyword kind) := by
  have told : Tells (Reports reference keyword kind) (readEquality keyword cursor).1 := readEquality_tells cursor
  unfold readBoolean at done
  simp only at done
  split at done
  · cases done
    exact finish_accounts told _ _ _
  · obtain ⟨names, -, done⟩ := ok_of_bind done
    cases done
    exact ⟨told.append (.one (.missingBoolean names)), by simp⟩

theorem readChannels_tells {limits : Limits} (wanted : Expects reference keyword kind (.channels limits)) (count : Nat)
    (cursor : Cursor) : Tells (Reports reference keyword kind) (readChannels limits keyword count cursor).1 := by
  induction count generalizing cursor with
  | zero => exact .nil
  | succ count ih =>
    unfold readChannels
    split
    · exact .one (.missingValue wanted)
    · next number next _ =>
      simp only
      split
      · exact ih next
      · exact .append (.one (.invalidValue wanted)) (ih next)

theorem readColor_accounts {limits : Limits} (wanted : Expects reference keyword kind (.channels limits))
    (cursor : Cursor) : (readColor limits keyword cursor).Accounts (Reports reference keyword kind) := by
  have told : Tells (Reports reference keyword kind) (readEquality keyword cursor).1 := readEquality_tells cursor
  have own := readChannels_tells wanted 3 (readEquality keyword cursor).2
  have channels := channels_of_clean limits keyword 3 (readEquality keyword cursor).2
  unfold readColor
  simp only
  split
  · next findings last missing =>
    rw [missing] at own channels
    -- The line runs out of numbers only with a finding.
    refine ⟨told.append own, fun clean => ?_⟩
    have nothing := channels (List.append_eq_nil_iff.mp clean).2
    cases nothing
  · next findings found last result =>
    rw [result] at own
    apply finish_accounts
    apply (told.append own).append
    intro finding member
    obtain ⟨alpha, -, rfl⟩ := List.mem_map.mp member
    exact .invalidValue wanted

end

section
variable {reference : Reference} {keyword : String}

theorem readIdentifier_tells {settings : Settings} {cursor last : Cursor} {own : List Finding}
    {identifier? : Option Identifier}
    (found : readIdentifier settings reference.sounds keyword cursor = (some (own, identifier?), last)) :
    Tells (Reports reference keyword .sound) own := by
  unfold readIdentifier at found
  simp only at found
  split at found
  · split at found
    · cases found
      exact .nil
    · split at found
      · cases found
        exact .nil
      · cases found
        exact .one (.invalidValue .sound)
  · split at found
    · cases found
    · split at found
      · cases found
        exact .nil
      · cases found
        exact .one (.invalidValue .sound)

theorem readVolume_tells (cursor : Cursor) : Tells (Reports reference keyword .sound) (readVolume keyword cursor).1 := by
  unfold readVolume
  split
  · exact .nil
  · split
    · exact .nil
    · exact .one (.invalidValue .volume)

theorem readSound_accounts (settings : Settings) (cursor : Cursor) :
    (readSound settings reference.sounds keyword cursor).Accounts (Reports reference keyword .sound) := by
  have told : Tells (Reports reference keyword .sound) (readEquality keyword cursor).1 := readEquality_tells cursor
  unfold readSound
  simp only
  split
  · exact ⟨told.append (.one (.missingValue .sound)), by simp⟩
  · next own identifier? last found =>
    exact finish_accounts ((told.append (readIdentifier_tells found)).append (readVolume_tells last)) _ _ _

end

section
variable {reference : Reference} {keyword : String} {kind : Kind} (valued : kind = .itemClass ∨ kind = .baseType)
  {expected : Expectation} (wanted : Expects reference keyword kind expected) (accepts : String → Bool)
include valued wanted

theorem judge_tells (accepted : List String) (tokens : List (Token String)) :
    Tells (Reports reference keyword kind) (judge accepts keyword expected accepted tokens).1 := by
  induction tokens generalizing accepted with
  | nil => exact .nil
  | cons token rest ih =>
    have repeated : Tells (Reports reference keyword kind)
        (if accepted.contains token.value then [⟨.duplicateValue keyword, token.range⟩] else []) := by
      split
      · exact .one (.duplicateValue valued)
      · exact .nil
    unfold judge
    simp only
    split
    · exact repeated.append (ih _)
    · exact repeated.append (.append (.one (.invalidValue wanted)) (ih _))

theorem readValues_accounts (cursor : Cursor) :
    (readValues accepts keyword expected cursor).1.Accounts (Reports reference keyword kind) := by
  have missing : ∀ (accepted : List String) (last : Cursor), Tells (Reports reference keyword kind)
      (if accepted.isEmpty then [⟨.missingStrings keyword, last.lineRange⟩] else []) := by
    intro accepted last
    split
    · exact .one .missingStrings
    · exact .nil
  simp only [readValues]
  apply finish_accounts
  apply Tells.append
  · exact (readEquality_tells cursor).append (judge_tells valued wanted accepts [] _)
  · exact missing _ _

end

theorem accounts_of_answer {α : Type} {fits : Problem → Prop} {data : Except Reference.Gap α} (answer : α → Outcome)
    {block next : Block} {outcome : Outcome} (accounts : ∀ found, data = .ok found → (answer found).Accounts fits)
    (done : (do return (answer (← data), block)) = .ok (outcome, next)) : outcome.Accounts fits := by
  obtain ⟨found, read, done⟩ := ok_of_bind done
  cases done
  exact accounts found read

theorem read_accounts {settings : Settings} {reference : Reference} {kind : Kind} {keyword : String} {head : Range}
    {cursor : Cursor} {block next : Block} {outcome : Outcome} (inner : kind ≠ .block)
    (done : read settings reference kind keyword head cursor block = .ok (outcome, next)) :
    outcome.Accounts (Reports reference keyword kind) := by
  cases kind with
  | block => exact absurd rfl inner
  | number =>
    refine accounts_of_answer _ (fun limits found => ?_) done
    exact readNumberAfter_accounts (.number (Reference.get?_of_limitsOf found)) .nil _
  | fontSize =>
    refine accounts_of_answer _ (fun limits found => ?_) done
    exact readNumberAfter_accounts (.fontSize (Reference.get?_of_limitsOf found)) (readEquality_tells _) _
  | rarity =>
    refine accounts_of_answer id (fun found read => ?_) done
    obtain ⟨names, -, same⟩ := ok_of_bind read
    cases same
    exact readChoice_accounts (.rarity names) _ .nil _
  | socketGroup =>
    cases done
    exact readChoice_accounts .socketGroup _ (readEquality_tells _) _
  | boolean => exact accounts_of_answer id (fun found read => readBoolean_accounts read) done
  | color =>
    refine accounts_of_answer _ (fun limits found => ?_) done
    exact readColor_accounts (.color (Reference.get?_of_limitsOf found)) cursor
  | itemClass =>
    cases done
    exact readValues_accounts (.inl rfl) .itemClass _ cursor
  | baseType =>
    obtain ⟨-, rfl, -⟩ := read_baseType_eq_ok_iff.mp done
    exact readValues_accounts (.inr rfl) (.baseType _) _ cursor
  | sound =>
    cases done
    exact readSound_accounts settings cursor

/-- Only a value that stands there twice is no error. -/
theorem Reports.duplicate_of_mild {reference : Reference} {keyword : String} {kind : Kind} {finding : Finding}
    (reported : Reports reference keyword kind finding.problem) (mild : finding.isError = false) :
    (kind = .itemClass ∨ kind = .baseType) ∧ finding.problem = .duplicateValue keyword := by
  obtain ⟨problem, range⟩ := finding
  cases reported with
  | duplicateValue valued => exact ⟨valued, rfl⟩
  | _ => cases mild

end Rule

end LootFilter
