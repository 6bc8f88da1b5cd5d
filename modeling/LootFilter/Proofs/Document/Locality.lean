import LootFilter.Proofs.Document.History
import LootFilter.Proofs.Line.Motion

/-! Blocks are local: a text that starts with a block is read the same behind any other text, further down. -/

set_option autoImplicit false

namespace LootFilter

theorem Line.addFinding_down (count : Int) (line : Line) (finding : Finding) :
    (line.addFinding finding).down count = (line.down count).addFinding (finding.move (Move.down count)) := by
  simp [addFinding, down]

theorem Line.kind?_down (count : Int) (line : Line) : (line.down count).kind? = line.kind? :=
  kind?_move (Move.down count) line

theorem Block.Alike.occurrences {first second : Block} (alike : first.Alike second) (name : String) :
    second.occurrences name = first.occurrences name := by
  rw [Block.occurrences, alike.counts, Block.occurrences]

theorem Block.Alike.record {first second : Block} (alike : first.Alike second) (name : String) :
    (first.record name).Alike (second.record name) where
  classes := alike.classes
  counts := by simp only [Block.record, alike.occurrences, alike.counts]

namespace Progress

/-- Nothing that is read later tells the one from the other. -/
structure Alike (first second : Progress) : Prop where
  block : first.block.Alike second.block
  blockFound : second.blockFound = first.blockFound

section
variable {settings : Settings} {reference : Reference} {row : Int} {text : List Char} {first second next : Progress}
  {parsed line : Line}

-- A line that opens a block is placed without a look at what came before.
theorem place_down (count : Int) (blocks : first.block.Alike second.block)
    (alike : parsed.kind? ≠ some .block → second.blockFound = first.blockFound)
    (done : first.place reference parsed = .ok (line, next)) :
    ∃ next', second.place reference (parsed.down count) = .ok (line.down count, next') ∧ next.Alike next' := by
  obtain unknown | ⟨name, range, kind, keyword⟩ := parsed.keyword_cases
  · have found := alike (by simp [unknown])
    have unknown' : (parsed.down count).kind? = none := by rw [Line.kind?_down, unknown]
    rw [place_unknown reference first unknown] at done
    cases done
    exact ⟨second, place_unknown reference second unknown', blocks, found⟩
  · have moved : (parsed.down count).keyword = some ⟨name, range.move (Move.down count), some kind⟩ := by
      simp [Line.down, keyword, KeywordMark.move]
    simp only [place, keyword] at done
    simp only [place, moved]
    split at done
    · next opens =>
      cases done
      rw [if_pos opens]
      exact ⟨_, rfl, blocks, rfl⟩
    · next inner =>
      have found : second.blockFound = first.blockFound := by
        apply alike
        rw [Line.kind?, keyword]
        exact fun same => inner (Option.some.inj same)
      rw [if_neg inner, found, blocks.occurrences]
      split at done
      · next outside =>
        cases done
        rw [if_pos outside, Line.addFinding_down]
        exact ⟨_, rfl, blocks, found⟩
      · next inside =>
        rw [if_neg inside]
        cases limit : reference.occurrencesOf name with
        | error gap =>
          rw [limit] at done
          cases done
        | ok greatest =>
          rw [limit] at done
          simp only [bind, Except.bind] at done ⊢
          split at done
          · next within =>
            cases done
            rw [if_pos within]
            exact ⟨_, rfl, blocks.record name, rfl⟩
          · next beyond =>
            cases done
            rw [if_neg beyond, Line.addFinding_down]
            exact ⟨_, rfl, blocks.record name, rfl⟩

theorem step_down (count : Int) (alike : Line.headKind? text ≠ some .block → first.Alike second)
    (done : first.step settings reference row text = (.ok line, next)) :
    ∃ next', second.step settings reference (row + count) text = (.ok (line.down count), next') ∧ next.Alike next' := by
  obtain ⟨parsed, block, read, placed⟩ := step_cases done
  obtain ⟨block', read', blocks⟩ :=
    Line.read_down settings reference row count text (fun inner => (alike inner).block) read
  -- What was found before matters only to a line that opens no block.
  have found : parsed.kind? ≠ some .block → second.blockFound = first.blockFound := by
    intro inner
    rw [Line.read_kind? read] at inner
    exact (alike inner).blockFound
  have blocks' : { first with block }.block.Alike { second with block := block' }.block := blocks
  obtain ⟨next', placed', nexts⟩ := place_down count blocks' found placed
  exact ⟨next', by simp only [step, read', placed'], nexts⟩

end

end Progress

namespace Document

/-- Only the first line can tell what was before it, and it does not if it opens a block. -/
theorem readLines_down {settings : Settings} {reference : Reference} (count : Int) {row : Int}
    {first second : Progress} {texts : List (List Char)} {lines : List Line}
    (alike : ∀ text rest, texts = text :: rest → Line.headKind? text ≠ some .block → first.Alike second)
    (done : readLines settings reference row first texts = .ok lines) :
    readLines settings reference (row + count) second texts = .ok (lines.map (Line.down count)) := by
  induction texts generalizing row first second lines with
  | nil =>
    cases done
    rfl
  | cons text rest ih =>
    obtain ⟨line, next, others, here, later, rfl⟩ := readLines_cons_iff.mp done
    obtain ⟨next', here', nexts⟩ := Progress.step_down count (alike text rest rfl) here
    have later' := ih (fun _ _ _ _ => nexts) later
    rw [Int.add_right_comm] at later'
    exact readLines_cons_iff.mpr ⟨_, next', _, here', later', rfl⟩

theorem findings_down (count : Int) (lines : List Line) :
    (lines.map (Line.down count)).flatMap Line.findings =
      (lines.flatMap Line.findings).map (Finding.move (Move.down count)) := by
  rw [List.flatMap_map, List.map_flatMap]
  rfl

theorem colors_down (count : Int) (lines : List Line) :
    (lines.map (Line.down count)).filterMap Line.color =
      (lines.filterMap Line.color).map (ColorMark.move (Move.down count)) := by
  rw [List.filterMap_map, List.map_filterMap]
  rfl

theorem sounds_down (count : Int) (lines : List Line) :
    (lines.map (Line.down count)).filterMap Line.sound =
      (lines.filterMap Line.sound).map (SoundMark.move (Move.down count)) := by
  rw [List.filterMap_map, List.map_filterMap]
  rfl

/-- A block reads the same behind any text, so many rows further down as that text has. -/
theorem read_append_of_block (settings : Settings) (reference : Reference) (complete : reference.Complete)
    (first second : List Char) (ends : first.getLast? ≠ some '\r') (source : List Char)
    (start : (Text.splitLines second).head? = some source) (opener : Line) (row : Int) (block next : Block)
    (opening : Line.read settings reference row source block = .ok (opener, next))
    (opens : opener.kind? = some .block) :
    ∃ before after whole : Document,
      Document.read settings reference first = .ok before ∧ Document.read settings reference second = .ok after ∧
      Document.read settings reference (first ++ '\n' :: second) = .ok whole ∧
      whole.lines = before.lines ++ after.lines.map (Line.down (Text.splitLines first).length) ∧
      whole.findings = before.findings ++
        after.findings.map (Finding.move (Move.down (Text.splitLines first).length)) ∧
      whole.colors = before.colors ++ after.colors.map (ColorMark.move (Move.down (Text.splitLines first).length)) ∧
      whole.sounds = before.sounds ++
        after.sounds.map (SoundMark.move (Move.down (Text.splitLines first).length)) := by
  obtain ⟨before, readBefore, linesBefore⟩ := read_ok settings complete first
  obtain ⟨after, readAfter, linesAfter⟩ := read_ok settings complete second
  obtain ⟨whole, readWhole, linesWhole⟩ := read_ok settings complete (first ++ '\n' :: second)
  have named : Line.headKind? source = some .block := (Line.read_kind? opening).symm.trans opens
  -- The second text starts with a block, so what the first one has left is forgotten.
  have reset : ∀ text rest, Text.splitLines second = text :: rest → Line.headKind? text ≠ some .block →
      Progress.Alike {} (Progress.after settings reference 0 {} (Text.splitLines first)) := by
    intro text rest split inner
    rw [split] at start
    cases start
    exact absurd named inner
  have moved := readLines_down (Text.splitLines first).length reset linesAfter
  have same : whole.lines = before.lines ++ after.lines.map (Line.down (Text.splitLines first).length) := by
    rw [Text.splitLines_append ends, readLines_append_iff] at linesWhole
    obtain ⟨leading, trailing, first, second, split⟩ := linesWhole
    rw [linesBefore] at first
    rw [moved] at second
    cases first
    cases second
    exact split
  refine ⟨before, after, whole, readBefore, readAfter, readWhole, same, ?_, ?_, ?_⟩
  · rw [findings, same, List.flatMap_append, findings_down]
    rfl
  · rw [colors, same, List.filterMap_append, colors_down]
    rfl
  · rw [sounds, same, List.filterMap_append, sounds_down]
    rfl

theorem read_append_hide_block :
    ∃ before after whole : Document,
      Document.read {} Bundled.reference "Show\nClass \"Gems\"".toList = .ok before ∧
      Document.read {} Bundled.reference "Hide # the rest\nBaseType \"Chaos Orb\"".toList = .ok after ∧
      Document.read {} Bundled.reference
          "Show\nClass \"Gems\"\nHide # the rest\nBaseType \"Chaos Orb\"".toList = .ok whole ∧
      whole.lines = before.lines ++ after.lines.map (Line.down 2) := by
  have opening : Line.read {} Bundled.reference 0 "Hide # the rest".toList {} =
      .ok ({ row := 0, range := ⟨⟨0, 0⟩, ⟨0, 15⟩⟩, keyword := some ⟨"Hide", ⟨⟨0, 0⟩, ⟨0, 4⟩⟩, some .block⟩ },
        .start (some ⟨⟨0, 0⟩, ⟨0, 4⟩⟩)) := by rfl
  obtain ⟨before, after, whole, first, second, both, lines, -⟩ :=
    read_append_of_block {} Bundled.reference Bundled.complete "Show\nClass \"Gems\"".toList
      "Hide # the rest\nBaseType \"Chaos Orb\"".toList (by decide) "Hide # the rest".toList rfl _ 0 {} _ opening rfl
  exact ⟨before, after, whole, first, second, both, lines⟩

end Document

end LootFilter
