import LootFilter.Proofs.Document.History
import LootFilter.Proofs.Line.Dispatch
import LootFilter.Proofs.Rule.Severity

/-! The numbers that findings put into words. All of them but the count of a rule are bounds that the data set, so that
they have a decimal spelling as soon as the bounds of the data have one. -/

set_option autoImplicit false

namespace LootFilter

/-- A number with no more digits than whole numbers are spelled by. -/
def Writable (number : Int) : Prop := number.natAbs < 10 ^ Text.mostDigits

theorem Writable.of_le {number : Int} {digits : Nat} (few : digits ≤ Text.mostDigits)
    (small : number.natAbs < 10 ^ digits) : Writable number :=
  Nat.lt_of_lt_of_le small (Nat.pow_le_pow_right (by decide) few)

def Limits.bounds (limits : Limits) : List Int := limits.least :: limits.greatest :: limits.extras

def Expectation.bounds : Expectation → List Int
  | .number limits => limits.bounds
  | .channels limits => [limits.least, limits.greatest]
  | .sound least greatest => [least, greatest]
  | _ => []

def Problem.bounds : Problem → List Int
  | .missingValue _ expected => expected.bounds
  | .invalidValue _ expected => expected.bounds
  | .tooMany _ _ limit => [limit]
  | _ => []

def Problem.Writable (problem : Problem) : Prop := ∀ bound ∈ problem.bounds, LootFilter.Writable bound

/-- The bounds that the data set for the rules of the language are writable. -/
structure Reference.Writable (reference : Reference) : Prop where
  limits : ∀ entry ∈ Kind.keywords, ∀ limits, reference.limits.get? entry.1 = some limits →
    ∀ bound ∈ limits.bounds, LootFilter.Writable bound
  occurrences : ∀ entry ∈ Kind.keywords, ∀ limit, reference.occurrences.get? entry.1 = some limit →
    LootFilter.Writable limit
  least : LootFilter.Writable reference.sounds.least
  greatest : LootFilter.Writable reference.sounds.greatest

theorem Bundled.writable : Bundled.reference.Writable where
  limits := by
    have all : ∀ entry ∈ Bundled.limits, ∀ bound ∈ entry.2.bounds, bound.natAbs < 10 ^ 10 := by decide
    intro entry _ limits found bound member
    exact .of_le (by decide) (all _ (Table.mem_entries_of_get? found) bound member)
  occurrences := by
    have all : ∀ entry ∈ Bundled.occurrences, entry.2.natAbs < 10 ^ 10 := by decide
    intro entry _ limit found
    exact .of_le (by decide) (all _ (Table.mem_entries_of_get? found))
  least := .of_le (show 10 ≤ Text.mostDigits by decide) (by decide)
  greatest := .of_le (show 10 ≤ Text.mostDigits by decide) (by decide)

section
variable {reference : Reference} {keyword : String} {kind : Kind} (bounded : reference.Writable)
  (known : Kind.ofKeyword? keyword = some kind)
include bounded known

theorem Rule.Expects.writable {expected : Expectation} (wanted : Expects reference keyword kind expected) :
    ∀ bound ∈ expected.bounds, Writable bound := by
  have entry := Kind.mem_keywords known
  cases wanted with
  | number found => exact bounded.limits _ entry _ found
  | fontSize found => exact bounded.limits _ entry _ found
  | @color limits found =>
    intro bound member
    apply bounded.limits _ entry _ found
    exact (List.sublist_append_left [limits.least, limits.greatest] limits.extras).subset member
  | sound => simpa [Expectation.bounds] using ⟨bounded.least, bounded.greatest⟩
  | baseType pool =>
    unfold Pool.expectation
    split
    · exact List.forall_mem_nil _
    · exact List.forall_mem_nil _
  | _ => exact List.forall_mem_nil _

theorem Rule.Reports.writable {problem : Problem} (reported : Reports reference keyword kind problem) :
    problem.Writable := by
  cases reported with
  | missingValue wanted => exact wanted.writable bounded known
  | invalidValue wanted => exact wanted.writable bounded known
  | _ => exact List.forall_mem_nil _

end

section
variable {settings : Settings} {reference : Reference} (bounded : reference.Writable) {row : Int} {text : List Char}

theorem Line.plain_writable (cursor : Cursor) : Tells Problem.Writable (plain settings cursor).findings := by
  unfold plain
  simp only
  split
  · exact .nil
  · split
    · exact .one (List.forall_mem_nil _)
    · simp only
      split
      · exact .nil
      · exact .one (List.forall_mem_nil _)

theorem Rule.readBlock_writable (cursor : Cursor) : Tells Problem.Writable (readBlock cursor).findings := by
  unfold readBlock
  simp only
  split
  · exact .nil
  · exact .one (List.forall_mem_nil _)

include bounded

theorem Line.read_writable {block next : Block} {line : Line}
    (done : Line.read settings reference row text block = .ok (line, next)) :
    Tells Problem.Writable line.findings := by
  obtain ⟨-, ⟨-, rfl, -⟩ | ⟨word, cursor, kind, outcome, -, known, rule, rfl⟩⟩ := read_eq_ok_iff_dispatch.mp done
  · exact plain_writable _
  · by_cases opens : kind = .block
    · subst opens
      cases rule
      exact Rule.readBlock_writable cursor
    · intro finding member
      exact ((Rule.read_accounts opens rule).told finding member).writable bounded known

/-- One row states bounds that are writable, for its rule and for its place. -/
theorem Progress.step_writable {progress next : Progress} {line : Line}
    (done : progress.step settings reference row text = (.ok line, next)) : Tells Problem.Writable line.findings := by
  obtain ⟨parsed, block, read, placed⟩ := step_cases done
  have told := Line.read_writable bounded read
  obtain ⟨-, rfl, -⟩ | ⟨-, rfl, -⟩ | ⟨name, range, kind, keyword, -, ⟨-, rfl, -⟩ | ⟨limit, -, counted, -, rfl⟩⟩ :=
    place_cases placed
  · exact told
  · exact told
  · exact told.append (.one (List.forall_mem_nil _))
  · have known := (Line.read_known read keyword).2
    split
    · exact told
    · refine told.append (.one (List.forall_mem_singleton.mpr ?_))
      exact bounded.occurrences _ (Kind.mem_keywords known) _ (Reference.get?_of_occurrencesOf counted)

namespace Document

theorem readLines_writable {progress : Progress} {texts : List (List Char)} {lines : List Line}
    (done : readLines settings reference row progress texts = .ok lines) :
    ∀ line ∈ lines, Tells Problem.Writable line.findings := by
  induction texts generalizing row progress lines with
  | nil =>
    cases done
    exact List.forall_mem_nil _
  | cons text rest ih =>
    obtain ⟨line, next, others, step, later, rfl⟩ := readLines_cons_iff.mp done
    exact List.forall_mem_cons.mpr ⟨Progress.step_writable bounded step, ih later⟩

theorem read_writable {document : Document} (done : Document.read settings reference text = .ok document) :
    Tells Problem.Writable document.findings := by
  intro finding member
  obtain ⟨line, listed, found⟩ := List.mem_flatMap.mp member
  exact readLines_writable bounded (readLines_of_read done) line listed finding found

end Document

end

end LootFilter
