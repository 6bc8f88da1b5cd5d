import LootFilter.Bundled
import LootFilter.Document
import LootFilter.Proofs.Text.Lines

/-! Lines that are joined come apart again, whatever ends each of them. Only a carriage return and a line feed that end
two lines with nothing between them are taken for one line end. -/

set_option autoImplicit false

namespace LootFilter

namespace Text

inductive LineEnd where
  | both
  | carriageReturn
  | lineFeed
  deriving DecidableEq, Repr

def LineEnd.chars : LineEnd → List Char
  | both => ['\r', '\n']
  | carriageReturn => ['\r']
  | lineFeed => ['\n']

/-- A line and the ones after it, each behind the end of the line before. -/
def join (first : List Char) : List (LineEnd × List Char) → List Char
  | [] => first
  | (lineEnd, next) :: rest => first ++ (lineEnd.chars ++ join next rest)

/-- No line feed ends an empty line behind a carriage return. -/
def Separate (rest : List (LineEnd × List Char)) : Prop :=
  rest.IsChain fun here next => here = (.carriageReturn, []) → next.1 ≠ .lineFeed

instance (rest : List (LineEnd × List Char)) : Decidable (Separate rest) :=
  inferInstanceAs (Decidable (rest.IsChain _))

section
variable {first text : List Char} {rest : List (LineEnd × List Char)}

theorem splitLines_lineEnd (lineEnd : LineEnd) (oneLine : ∀ c ∈ first, isBreak c = false)
    (apart : lineEnd = .carriageReturn → text.head? ≠ some '\n') :
    splitLines (first ++ (lineEnd.chars ++ text)) = first :: splitLines text := by
  induction first with
  | nil =>
    cases lineEnd with
    | both => rfl
    | carriageReturn => exact splitLines_cons fun _ => apart rfl
    | lineFeed => rfl
  | cons c others ih =>
    have plain : isBreak c = false := oneLine c List.mem_cons_self
    have unpaired : c = '\r' → (others ++ (lineEnd.chars ++ text)).head? ≠ some '\n' := by
      rintro rfl
      cases plain
    rw [List.cons_append, splitLines_cons unpaired, plain, ih fun d inside => oneLine d (List.mem_cons_of_mem c inside)]
    rfl

theorem head?_join (oneLine : ∀ c ∈ first, isBreak c = false) :
    (join first rest).head? = some '\n' ↔ first = [] ∧ rest.head?.map Prod.fst = some .lineFeed := by
  cases first with
  | cons c others =>
    have plain : isBreak c = false := oneLine c List.mem_cons_self
    have head : (join (c :: others) rest).head? = some c := by cases rest <;> rfl
    simp only [head, Option.some.injEq, reduceCtorEq, false_and, iff_false]
    rintro rfl
    cases plain
  | nil =>
    cases rest with
    | nil => simp [join]
    | cons entry others =>
      obtain ⟨lineEnd, next⟩ := entry
      cases lineEnd <;> simp [join, LineEnd.chars]

theorem separate_cons_iff (lineEnd : LineEnd) {next : List Char} (oneLine : ∀ c ∈ next, isBreak c = false) :
    Separate ((lineEnd, next) :: rest) ↔
      (lineEnd = .carriageReturn → (join next rest).head? ≠ some '\n') ∧ Separate rest := by
  rw [Ne, head?_join oneLine, Separate]
  cases rest with
  | nil => simp [Separate]
  | cons entry others => simp [Separate]

/-- There are never more lines than were joined, and fewer if two line ends become one. -/
theorem length_splitLines_join {first : List Char} {rest : List (LineEnd × List Char)}
    (oneLine : ∀ c ∈ first, isBreak c = false)
    (oneLines : ∀ entry ∈ rest, ∀ c ∈ entry.2, isBreak c = false) :
    (splitLines (join first rest)).length ≤ rest.length + 1 ∧
      (¬Separate rest → (splitLines (join first rest)).length ≤ rest.length) := by
  match rest with
  | [] => simp [join, splitLines_of_no_break oneLine, Separate]
  | (lineEnd, next) :: rest =>
    have nextLine : ∀ c ∈ next, isBreak c = false := oneLines _ List.mem_cons_self
    rw [separate_cons_iff lineEnd nextLine]
    by_cases apart : lineEnd = .carriageReturn → (join next rest).head? ≠ some '\n'
    · obtain ⟨bound, fewer⟩ :=
        length_splitLines_join nextLine fun entry inside => oneLines entry (List.mem_cons_of_mem _ inside)
      rw [and_iff_right apart, join, splitLines_lineEnd lineEnd oneLine apart, List.length_cons, List.length_cons]
      exact ⟨Nat.succ_le_succ bound, fun merged => Nat.succ_le_succ (fewer merged)⟩
    · -- The line feed that comes next belongs to the carriage return, and the lines go on behind it.
      simp only [Classical.not_imp, not_not, head?_join nextLine] at apart
      obtain ⟨rfl, rfl, feed⟩ := apart
      match rest with
      | [] => cases feed
      | (lineEnd, line) :: rest =>
        obtain rfl : lineEnd = .lineFeed := Option.some.inj feed
        have lastLine : ∀ c ∈ line, isBreak c = false := oneLines _ (List.mem_cons_of_mem _ List.mem_cons_self)
        have bound := (length_splitLines_join lastLine fun entry inside =>
          oneLines entry (List.mem_cons_of_mem _ (List.mem_cons_of_mem _ inside))).1
        have merged : splitLines (join first ((.carriageReturn, []) :: (.lineFeed, line) :: rest)) =
            first :: splitLines (join line rest) := splitLines_lineEnd .both oneLine nofun
        simp only [merged, List.length_cons]
        omega

theorem splitLines_join_iff (oneLine : ∀ c ∈ first, isBreak c = false)
    (oneLines : ∀ entry ∈ rest, ∀ c ∈ entry.2, isBreak c = false) :
    splitLines (join first rest) = first :: rest.map Prod.snd ↔ Separate rest := by
  constructor
  · intro same
    by_contra merged
    have fewer := (length_splitLines_join oneLine oneLines).2 merged
    rw [same, List.length_cons, List.length_map] at fewer
    omega
  · intro separate
    induction rest generalizing first with
    | nil => exact splitLines_of_no_break oneLine
    | cons entry rest ih =>
      have nextLine := oneLines entry List.mem_cons_self
      obtain ⟨apart, later⟩ := (separate_cons_iff entry.1 nextLine).mp separate
      have others := ih nextLine (fun other inside => oneLines other (List.mem_cons_of_mem _ inside)) later
      rw [join, splitLines_lineEnd entry.1 oneLine apart, others]
      rfl

end

end Text

namespace Document

open Text (LineEnd)

/-- No line of a text holds a line end. Lines that are joined come apart again if and only if no line feed ends an empty
line behind a carriage return, and then a document is read the same whatever ends its lines. -/
theorem split_undoes_join (first : List Char) (rest : List (LineEnd × List Char))
    (oneLine : ∀ c ∈ first, Text.isBreak c = false)
    (oneLines : ∀ entry ∈ rest, ∀ c ∈ entry.2, Text.isBreak c = false) :
    (∀ text, ∀ line ∈ Text.splitLines text, ∀ c ∈ line, Text.isBreak c = false) ∧
    (Text.splitLines (Text.join first rest) = first :: rest.map Prod.snd ↔ Text.Separate rest) ∧
    ∀ (settings : Settings) (reference : Reference) (other : List (LineEnd × List Char)),
      other.map Prod.snd = rest.map Prod.snd → Text.Separate rest → Text.Separate other →
        Document.read settings reference (Text.join first other) =
          Document.read settings reference (Text.join first rest) := by
  refine ⟨fun text line => Text.no_break_of_mem_splitLines, Text.splitLines_join_iff oneLine oneLines, ?_⟩
  intro settings reference other same separate separate'
  have otherLines : ∀ entry ∈ other, ∀ c ∈ entry.2, Text.isBreak c = false := by
    intro entry inside
    have listed : entry.2 ∈ rest.map Prod.snd := same ▸ List.mem_map_of_mem inside
    obtain ⟨twin, member, line⟩ := List.mem_map.mp listed
    exact line ▸ oneLines twin member
  have lines : Text.splitLines (Text.join first other) = Text.splitLines (Text.join first rest) := by
    rw [(Text.splitLines_join_iff oneLine otherLines).mpr separate',
      (Text.splitLines_join_iff oneLine oneLines).mpr separate, same]
  rw [Document.read, Document.read, lines]

theorem split_undoes_mixed_join :
    Text.splitLines (Text.join "Show".toList [(.carriageReturn, []), (.both, "Class Rings".toList)]) =
        ["Show".toList, [], "Class Rings".toList] ∧
      Document.read {} Bundled.reference "Show\n\nClass Rings".toList =
        Document.read {} Bundled.reference "Show\r\r\nClass Rings".toList := by
  obtain ⟨-, apart, alike⟩ :=
    split_undoes_join "Show".toList [(.carriageReturn, []), (.both, "Class Rings".toList)] (by simp [Text.isBreak])
      (by simp [Text.isBreak])
  exact ⟨apart.mpr (by decide), alike {} Bundled.reference [(.lineFeed, []), (.lineFeed, "Class Rings".toList)] rfl
    (by decide) (by decide)⟩

end Document

end LootFilter
