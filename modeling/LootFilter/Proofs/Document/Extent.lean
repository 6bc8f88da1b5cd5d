import LootFilter.Proofs.Document.History
import LootFilter.Proofs.Rule.Extent

/-! What a document reports stands in its text: the ranges of every line cover text of that line. -/

set_option autoImplicit false

namespace LootFilter

namespace Line

structure Covers (source : List Char) (line : Line) : Prop where
  findings : ∀ finding ∈ line.findings, finding.range.Covers line.row source
  color : ∀ mark, line.color = some mark → mark.range.Covers line.row source
  sound : ∀ mark, line.sound = some mark → mark.range.Covers line.row source
  keyword : ∀ mark, line.keyword = some mark → mark.range.Covers line.row source

theorem covers_of_findings {source : List Char} {line : Line} (none : line.color = none ∧ line.sound = none)
    (findings : ∀ finding ∈ line.findings, finding.range.Covers line.row source)
    (keyword : ∀ mark, line.keyword = some mark → mark.range.Covers line.row source) : line.Covers source where
  findings := findings
  color := by
    rw [none.1]
    exact fun _ => nofun
  sound := by
    rw [none.2]
    exact fun _ => nofun
  keyword := keyword

theorem Covers.addFinding {source : List Char} {line : Line} (covers : line.Covers source) {finding : Finding}
    (more : finding.range.Covers line.row source) : (line.addFinding finding).Covers source where
  findings := List.forall_mem_append.mpr ⟨covers.findings, List.forall_mem_singleton.mpr more⟩
  color := covers.color
  sound := covers.sound
  keyword := covers.keyword

section
variable {settings : Settings} {reference : Reference} {row : Int} {text : List Char} {block next : Block} {line : Line}

theorem start_on {row : Int} {text : List Char} (visible : (⟨row, text, 0⟩ : Cursor).isIgnorable = false) :
    Cursor.On row text ⟨row, text, 0⟩ := by
  refine ⟨rfl, rfl, ?_⟩
  by_contra blank
  have ignorable : (⟨row, text, 0⟩ : Cursor).isIgnorable = true :=
    Cursor.isIgnorable_iff.mpr (.inl (by simpa [Cursor.rest] using blank))
  rw [visible] at ignorable
  cases ignorable

theorem read_covers (done : Line.read settings reference row text block = .ok (line, next)) :
    line.row = row ∧ line.Covers text ∧ ∀ mark, line.keyword = some mark → line.range.Covers row text := by
  have result := (read_eq_ok_iff.mp done).2
  unfold readFrom at result
  split at result
  · cases result
    exact ⟨rfl, covers_of_findings ⟨rfl, rfl⟩ FindingsCover.nil (fun _ => nofun), fun _ => nofun⟩
  · next ignored =>
    have on : Cursor.On row text ⟨row, text, 0⟩ := start_on (by simpa using ignored)
    split at result
    · cases result
      exact ⟨rfl, covers_of_findings ⟨rfl, rfl⟩ (FindingsCover.cons on.lineRange .nil) (fun _ => nofun), fun _ => nofun⟩
    · next word cursor found =>
      obtain ⟨on', covers⟩ := on.word found
      have keyword : ∀ (kind? : Option Kind) (mark : KeywordMark),
          some ⟨word.value, word.range, kind?⟩ = some mark → mark.range.Covers row text := by
        intro kind? mark same
        cases same
        exact covers word rfl
      simp only at result
      split at result
      · next unknown =>
        split at result
        · cases result
          exact ⟨rfl, covers_of_findings ⟨rfl, rfl⟩ FindingsCover.nil (keyword _), fun _ _ => on.lineRange⟩
        · cases result
          exact ⟨rfl, covers_of_findings ⟨rfl, rfl⟩ (FindingsCover.cons (covers word rfl) .nil) (keyword _),
            fun _ _ => on.lineRange⟩
      · next kind known =>
        cases rule : Rule.read settings reference kind word.value word.range cursor block with
        | error gap =>
          rw [rule] at result
          cases result
        | ok answer =>
          rw [rule] at result
          cases result
          have outcome := Rule.read_covers on' rule
          exact ⟨rfl, ⟨outcome.findings, outcome.color, outcome.sound, keyword _⟩, fun _ _ => on.lineRange⟩

end

end Line

namespace Progress

section
variable {settings : Settings} {reference : Reference} {row : Int} {text : List Char} {progress next : Progress}
  {parsed line : Line}

theorem place_covers (done : progress.place reference parsed = .ok (line, next)) (covers : parsed.Covers text)
    (whole : ∀ mark, parsed.keyword = some mark → parsed.range.Covers parsed.row text) :
    line.row = parsed.row ∧ line.Covers text := by
  obtain ⟨-, rfl, -⟩ | ⟨-, rfl, -⟩ | ⟨name, range, kind, keyword, -, ⟨-, rfl, -⟩ | ⟨limit, -, -, -, rfl⟩⟩ :=
    place_cases done
  · exact ⟨rfl, covers⟩
  · exact ⟨rfl, covers⟩
  · exact ⟨rfl, covers.addFinding (whole _ keyword)⟩
  · split
    · exact ⟨rfl, covers⟩
    · exact ⟨rfl, covers.addFinding (covers.keyword _ keyword)⟩

theorem step_covers (done : progress.step settings reference row text = (.ok line, next)) :
    line.row = row ∧ line.Covers text := by
  obtain ⟨parsed, block, read, placed⟩ := step_cases done
  obtain ⟨rfl, covers, whole⟩ := Line.read_covers read
  exact place_covers placed covers whole

end

end Progress

namespace Document

theorem readLines_covers {settings : Settings} {reference : Reference} {row : Int} {progress : Progress}
    {texts : List (List Char)} {lines : List Line}
    (done : readLines settings reference row progress texts = .ok lines) {index : Nat} {line : Line}
    (found : lines[index]? = some line) :
    ∃ source, texts[index]? = some source ∧ line.row = row + index ∧ line.Covers source := by
  induction texts generalizing row progress lines index with
  | nil =>
    cases done
    cases found
  | cons text rest ih =>
    obtain ⟨first, next, others, step, later, rfl⟩ := readLines_cons_iff.mp done
    cases index with
    | zero =>
      cases found
      obtain ⟨same, covers⟩ := Progress.step_covers step
      exact ⟨text, rfl, by simpa using same, covers⟩
    | succ index =>
      obtain ⟨source, listed, same, covers⟩ := ih later found
      exact ⟨source, listed, by omega, covers⟩

/-- A document that can be read reports the findings, colours and sounds of its lines in order, and whatever a line
reports is a range of its own text that neither starts nor ends with a blank. -/
theorem read_reports_source_text (settings : Settings) (reference : Reference) (text : List Char) (document : Document)
    (done : Document.read settings reference text = .ok document) :
    document.findings = (document.lines.map Line.findings).flatten ∧
      document.colors = (document.lines.map fun line => line.color.toList).flatten ∧
      document.sounds = (document.lines.map fun line => line.sound.toList).flatten ∧
      document.lines.length = (Text.splitLines text).length ∧
      ∀ (row : Nat) (line : Line), document.lines[row]? = some line →
        ∃ source, (Text.splitLines text)[row]? = some source ∧ line.row = row ∧ line.Covers source := by
  have read : readLines settings reference 0 {} (Text.splitLines text) = .ok document.lines := readLines_of_read done
  refine ⟨List.flatMap_def, ?_, ?_, readLines_length read, ?_⟩
  · rw [colors, ← List.flatMap_def, List.filterMap_eq_flatMap_toList]
  · rw [sounds, ← List.flatMap_def, List.filterMap_eq_flatMap_toList]
  · intro row line found
    obtain ⟨source, listed, place, covers⟩ := readLines_covers read found
    exact ⟨source, listed, by omega, covers⟩

theorem trailing_text_reported_in_place :
    ∃ document, Document.read {} Bundled.reference "Show\n  ItemLevel 5  or so ".toList = .ok document ∧
      ∃ line, document.lines[1]? = some line ∧
        ∃ finding ∈ line.findings, finding.range = ⟨⟨1, 15⟩, ⟨1, 20⟩⟩ ∧
          finding.range.Covers 1 "  ItemLevel 5  or so ".toList := by
  have found : (Document.read {} Bundled.reference "Show\n  ItemLevel 5  or so ".toList).map
      (fun document => document.lines.map fun line => line.findings) =
        .ok [[], [⟨.trailingText, ⟨⟨1, 15⟩, ⟨1, 20⟩⟩⟩]] := by rfl
  cases done : Document.read {} Bundled.reference "Show\n  ItemLevel 5  or so ".toList with
  | error fault =>
    rw [done] at found
    cases found
  | ok document =>
    rw [done] at found
    obtain ⟨-, -, -, -, rows⟩ := read_reports_source_text _ _ _ document done
    obtain ⟨first, others, lines, -, second⟩ := List.map_eq_cons_iff.mp (Except.ok.inj found)
    obtain ⟨line, rest, rfl, findings, -⟩ := List.map_eq_cons_iff.mp second
    have listed : document.lines[1]? = some line := by rw [lines]; rfl
    obtain ⟨source, split, place, covers⟩ := rows 1 line listed
    have sources : Text.splitLines "Show\n  ItemLevel 5  or so ".toList =
        ["Show".toList, "  ItemLevel 5  or so ".toList] := by rfl
    rw [sources] at split
    obtain rfl : "  ItemLevel 5  or so ".toList = source := Option.some.inj split
    refine ⟨document, rfl, line, listed, ⟨.trailingText, ⟨⟨1, 15⟩, ⟨1, 20⟩⟩⟩, by simp [findings], rfl, ?_⟩
    have covered := covers.findings _ (by rw [findings]; exact List.mem_cons_self)
    rwa [place] at covered

end Document

end LootFilter
