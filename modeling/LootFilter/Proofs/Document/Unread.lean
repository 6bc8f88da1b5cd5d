import LootFilter.CommandLine.Run
import LootFilter.Proofs.Document.Placement
import LootFilter.Proofs.Line.Dispatch
import LootFilter.Proofs.Rule.Severity

/-! Text that a rule leaves unread. Without errors it is ignored text, except behind a rule with a value that stands
there twice: the warning about the value takes the place of the error about the text. -/

set_option autoImplicit false

namespace LootFilter

namespace Line

/-- A rule leaves only ignored text, or it is a list of values and one of them is reported to stand there twice. -/
def ReadThrough (settings : Settings) (reference : Reference) (row : Int) (text : List Char) (block : Block)
    (line : Line) : Prop :=
  ∀ name range kind, line.keyword = some ⟨name, range, some kind⟩ → kind ≠ .block →
    ∃ rest, unread? settings reference row text block = some rest ∧
      (Ignorable rest ∨
        (kind = .itemClass ∨ kind = .baseType) ∧ ∃ finding ∈ line.findings, finding.problem = .duplicateValue name)

section
variable {settings : Settings} {reference : Reference} {row : Int} {text : List Char} {block next : Block} {line : Line}

theorem readThrough_of_errorFree (done : Line.read settings reference row text block = .ok (line, next))
    (free : ErrorFree line.findings) : line.ReadThrough settings reference row text block := by
  intro name range kind keyword inner
  obtain ⟨-, ⟨nothing, rfl, -⟩ | ⟨word, cursor, kind, outcome, found, known, rule, rfl⟩⟩ :=
    read_eq_ok_iff_dispatch.mp done
  · have named := read_kind? done
    rw [nothing, kind?, keyword] at named
    cases named
  · cases keyword
    refine ⟨outcome.cursor.rest, by simp only [unread?, found, known, rule], ?_⟩
    obtain ⟨told, rest⟩ := Rule.read_accounts inner rule
    cases findings : outcome.findings with
    | nil => exact .inl (rest findings)
    | cons finding others =>
      -- A finding that is no error is one of the mild ones.
      have member : finding ∈ outcome.findings := by rw [findings]; exact List.mem_cons_self
      obtain ⟨valued, problem⟩ := (told finding member).duplicate_of_mild (free finding member)
      exact .inr ⟨valued, finding, member, problem⟩

theorem ReadThrough.grow {placed : Line} (through : line.ReadThrough settings reference row text block)
    (keyword : placed.keyword = line.keyword) (findings : line.findings ⊆ placed.findings) :
    placed.ReadThrough settings reference row text block := by
  intro name range kind named inner
  obtain ⟨rest, left, ignored | ⟨valued, finding, member, problem⟩⟩ :=
    through name range kind (keyword ▸ named) inner
  · exact ⟨rest, left, .inl ignored⟩
  · exact ⟨rest, left, .inr ⟨valued, finding, findings member, problem⟩⟩

end

end Line

namespace Document

section
variable {settings : Settings} {reference : Reference}

theorem step_readThrough {row : Int} {text : List Char} {progress next : Progress} {line : Line}
    (done : progress.step settings reference row text = (.ok line, next)) (free : ErrorFree line.findings) :
    line.ReadThrough settings reference row text progress.block := by
  obtain ⟨parsed, block, read, placed⟩ := Progress.step_cases done
  have kept := Progress.findings_subset_place placed
  have through : parsed.ReadThrough settings reference row text progress.block :=
    Line.readThrough_of_errorFree read fun finding member => free finding (kept member)
  exact through.grow (place_keyword placed) kept

theorem readLines_readThrough {before rest : List (List Char)} {source : List Char} {lines : List Line}
    (done : readLines settings reference 0 {} (before ++ source :: rest) = .ok lines)
    (free : ErrorFree (lines.flatMap Line.findings)) :
    ∃ line, lines[before.length]? = some line ∧
      line.ReadThrough settings reference before.length source
        (Progress.after settings reference 0 {} before).block := by
  obtain ⟨leading, line, trailing, next, rfl, length, -, step⟩ := readLines_line done
  rw [Int.zero_add] at step
  refine ⟨line, by simp [← length], step_readThrough step ?_⟩
  rw [List.flatMap_append, List.flatMap_cons] at free
  exact free.right.left

end

theorem clean_of_exit_zero {options : Options} {reference : Reference} {input : Path}
    {text : List Char} {log : String} {response : CommandLine.Response}
    (done : CommandLine.checkText options reference input text log = .ok response) (success : response.exit = 0) :
    ∃ document, Document.read options.settings reference text = .ok document ∧ document.hasErrors = false := by
  unfold CommandLine.checkText at done
  split at done
  · split at done
    · cases done
      cases success
    · cases done
  · cases done
    cases success
  · next document read =>
    cases done
    refine ⟨document, read, ?_⟩
    simp only at success
    split at success
    · cases success
    · next clean => exact Bool.eq_false_iff.mpr clean

/-- A line without errors is read to its end but for ignored text, unless one of its values is reported to stand there
twice. So is every line of a document without errors, and a check that ends well has found such a document. -/
theorem unread_text_behind_duplicates_only (settings : Settings) (reference : Reference) :
    (∀ row text block line next, Line.read settings reference row text block = .ok (line, next) →
      ErrorFree line.findings → line.ReadThrough settings reference row text block) ∧
    (∀ text document, Document.read settings reference text = .ok document → document.hasErrors = false →
      ∀ before source after, Text.splitLines text = before ++ source :: after →
        ∃ line, document.lines[before.length]? = some line ∧
          line.ReadThrough settings reference before.length source
            (Progress.after settings reference 0 {} before).block) ∧
    (∀ options input text log response, options.settings = settings →
      CommandLine.checkText options reference input text log = .ok response → response.exit = 0 →
        ∃ document, Document.read settings reference text = .ok document ∧ document.hasErrors = false) := by
  refine ⟨?_, ?_, ?_⟩
  · intro row text block line next done free
    exact Line.readThrough_of_errorFree done free
  · intro text document done clean before source after split
    have lines := readLines_of_read done
    rw [split] at lines
    exact readLines_readThrough lines (errorFree_of_clean clean)
  · rintro options input text log response rfl done success
    exact clean_of_exit_zero done success

theorem comment_behind_quality_unread :
    ∃ line next rest,
      Line.read {} Bundled.reference 0 "Quality > 5 # low".toList {} = .ok (line, next) ∧ ErrorFree line.findings ∧
      Line.unread? {} Bundled.reference 0 "Quality > 5 # low".toList {} = some rest ∧ Ignorable rest := by
  have found : (Line.read {} Bundled.reference 0 "Quality > 5 # low".toList {}).map
      (fun answer => (answer.1.keyword, answer.1.findings)) =
        .ok (some ⟨"Quality", ⟨⟨0, 0⟩, ⟨0, 7⟩⟩, some .number⟩, []) := by rfl
  cases done : Line.read {} Bundled.reference 0 "Quality > 5 # low".toList {} with
  | error fault =>
    rw [done] at found
    cases found
  | ok answer =>
    rw [done] at found
    obtain ⟨keyword, findings⟩ := Prod.mk.inj (Except.ok.inj found)
    have free : ErrorFree answer.1.findings := by
      rw [findings]
      exact List.forall_mem_nil _
    obtain ⟨rest, left, ignored | ⟨-, finding, member, -⟩⟩ :=
      (unread_text_behind_duplicates_only {} Bundled.reference).1 0 _ {} answer.1 answer.2 done free _ _ _ keyword nofun
    · exact ⟨answer.1, answer.2, rest, rfl, free, left, ignored⟩
    · rw [findings] at member
      cases member

/-- A class that stands there twice hides the text behind it: there is no error, and the text is not ignored. -/
theorem repeated_class_hides_trailing_text :
    ∃ line next rest,
      Line.read {} Bundled.reference 0 "Class Rings Rings > 5".toList {} = .ok (line, next) ∧
      line.kind? = some .itemClass ∧ ErrorFree line.findings ∧
      Line.unread? {} Bundled.reference 0 "Class Rings Rings > 5".toList {} = some rest ∧ ¬Ignorable rest ∧
      (Document.read {} Bundled.reference "Show\nClass Rings Rings > 5".toList).map Document.hasErrors = .ok false := by
  have read : Line.read {} Bundled.reference 0 "Class Rings Rings > 5".toList {} =
      .ok ({ row := 0, range := ⟨⟨0, 0⟩, ⟨0, 21⟩⟩, findings := [⟨.duplicateValue "Class", ⟨⟨0, 12⟩, ⟨0, 17⟩⟩⟩]
             keyword := some ⟨"Class", ⟨⟨0, 0⟩, ⟨0, 5⟩⟩, some .itemClass⟩ },
        { classes := ["Rings", "Rings"] }) := by rfl
  refine ⟨_, _, " > 5".toList, read, rfl, ?_, rfl, ?_, rfl⟩
  · intro finding member
    rw [List.mem_singleton.mp member]
    rfl
  · intro ignored
    have hash := ignored.head (show (Text.trimStart " > 5".toList).head? = some '>' from rfl)
    cases hash

end Document

end LootFilter
