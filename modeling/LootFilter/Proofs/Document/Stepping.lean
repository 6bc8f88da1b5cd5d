import LootFilter.Document
import LootFilter.Proofs.Line.Head
import LootFilter.Proofs.Text.Lines

/-! One line of a document after the other: what a step answers, what it leaves behind, and when every step succeeds. -/

set_option autoImplicit false

namespace LootFilter

theorem Line.keyword_cases (line : Line) :
    line.kind? = none ∨ ∃ name range kind, line.keyword = some ⟨name, range, some kind⟩ := by
  unfold kind?
  rcases line.keyword with _ | ⟨name, range, kind?⟩
  · exact .inl rfl
  · cases kind? with
    | none => exact .inl rfl
    | some kind => exact .inr ⟨name, range, kind, rfl⟩

namespace Progress

theorem place_unknown (reference : Reference) (progress : Progress) {line : Line} (unknown : line.kind? = none) :
    progress.place reference line = .ok (line, progress) := by
  unfold place
  split
  · next name range kind keyword =>
    rw [Line.kind?, keyword] at unknown
    cases unknown
  · rfl

section
variable {settings : Settings} {reference : Reference} {row : Int} {text : List Char} {progress next : Progress}
  {parsed line : Line}

/-- A rule outside of a block is reported and not counted; a rule in a block is counted, and reported past its limit.
Other lines stay as they are. -/
theorem place_cases (done : progress.place reference parsed = .ok (line, next)) :
    (parsed.kind? = none ∧ line = parsed ∧ next = progress) ∨
    (parsed.kind? = some .block ∧ line = parsed ∧ next = { progress with blockFound := true }) ∨
    ∃ name range kind, parsed.keyword = some ⟨name, range, some kind⟩ ∧ kind ≠ .block ∧
      ((progress.blockFound = false ∧ line = parsed.addFinding ⟨.outsideBlock name, parsed.range⟩ ∧ next = progress) ∨
        ∃ limit, progress.blockFound = true ∧ reference.occurrencesOf name = .ok limit ∧
          next = { progress with block := progress.block.record name } ∧
          line = if progress.block.occurrences name < limit then parsed
            else parsed.addFinding ⟨.tooMany name (progress.block.occurrences name + 1) limit, range⟩) := by
  obtain unknown | ⟨name, range, kind, keyword⟩ := parsed.keyword_cases
  · rw [place_unknown reference progress unknown] at done
    cases done
    exact .inl ⟨unknown, rfl, rfl⟩
  · simp only [place, keyword] at done
    split at done
    · next opens =>
      cases done
      exact .inr (.inl ⟨by rw [Line.kind?, keyword, opens]; rfl, rfl, rfl⟩)
    · next inner =>
      refine .inr (.inr ⟨name, range, kind, keyword, inner, ?_⟩)
      split at done
      · next outside =>
        cases done
        exact .inl ⟨by simpa using outside, rfl, rfl⟩
      · next inside =>
        cases limit : reference.occurrencesOf name with
        | error gap =>
          rw [limit] at done
          cases done
        | ok count =>
          rw [limit] at done
          refine .inr ⟨count, by simpa using inside, rfl, ?_⟩
          simp only [bind, Except.bind] at done
          split at done
          · next within =>
            cases done
            exact ⟨rfl, by rw [if_pos within]⟩
          · next beyond =>
            cases done
            exact ⟨rfl, by rw [if_neg beyond]⟩

theorem place_rule (done : progress.place reference parsed = .ok (line, next)) {name : String} {range : Range}
    {kind : Kind} (keyword : parsed.keyword = some ⟨name, range, some kind⟩) (inner : kind ≠ .block) :
    (progress.blockFound = false ∧ line = parsed.addFinding ⟨.outsideBlock name, parsed.range⟩) ∨
      ∃ limit, progress.blockFound = true ∧ reference.occurrencesOf name = .ok limit ∧
        line = if progress.block.occurrences name < limit then parsed
          else parsed.addFinding ⟨.tooMany name (progress.block.occurrences name + 1) limit, range⟩ := by
  have named : parsed.kind? = some kind := by
    rw [Line.kind?, keyword]
    rfl
  obtain ⟨nothing, -⟩ | ⟨opens, -⟩ | ⟨name', range', kind', keyword', -, placed⟩ := place_cases done
  · rw [nothing] at named
    cases named
  · rw [opens] at named
    exact absurd (Option.some.inj named).symm inner
  · rw [keyword] at keyword'
    cases keyword'
    obtain ⟨outside, same, -⟩ | ⟨limit, inside, limited, -, same⟩ := placed
    · exact .inl ⟨outside, same⟩
    · exact .inr ⟨limit, inside, limited, same⟩

theorem findings_subset_place (done : progress.place reference parsed = .ok (line, next)) :
    parsed.findings ⊆ line.findings := by
  obtain ⟨-, rfl, -⟩ | ⟨-, rfl, -⟩ | ⟨name, range, kind, -, -, ⟨-, rfl, -⟩ | ⟨limit, -, -, -, rfl⟩⟩ := place_cases done
  · exact List.Subset.refl _
  · exact List.Subset.refl _
  · exact List.subset_append_left _ _
  · split
    · exact List.Subset.refl _
    · exact List.subset_append_left _ _

theorem place_ok (counted : reference.HasOccurrences)
    (keyword : ∀ name range kind, parsed.keyword = some ⟨name, range, some kind⟩ → Kind.ofKeyword? name = some kind) :
    ∃ line next, progress.place reference parsed = .ok (line, next) := by
  unfold place
  split
  · next name range kind mark =>
    split
    · exact ⟨_, _, rfl⟩
    · next inner =>
      split
      · exact ⟨_, _, rfl⟩
      · obtain ⟨limit, -, ok⟩ := Reference.occurrencesOf_ok counted (keyword name range kind mark) inner
        simp only [ok, bind, Except.bind]
        split
        · exact ⟨_, _, rfl⟩
        · exact ⟨_, _, rfl⟩
  · exact ⟨_, _, rfl⟩

theorem step_cases (done : progress.step settings reference row text = (.ok line, next)) :
    ∃ parsed block, Line.read settings reference row text progress.block = .ok (parsed, block) ∧
      place reference { progress with block } parsed = .ok (line, next) := by
  unfold step at done
  split at done
  · cases done
  · next parsed block read =>
    refine ⟨parsed, block, read, ?_⟩
    simp only at done
    split at done
    · cases done
    · next placed =>
      cases done
      exact placed

theorem step_ok (complete : reference.Complete) (oneLine : ∀ c ∈ text, Text.isBreak c = false) :
    ∃ line next, progress.step settings reference row text = (.ok line, next) := by
  obtain ⟨parsed, block, read⟩ :=
    Line.read_ok settings complete.limits complete.words complete.searchable row oneLine progress.block
  -- What was read has a keyword of the language or none, so its limit is there.
  obtain ⟨line, next, placed⟩ : ∃ line next, place reference { progress with block } parsed = .ok (line, next) :=
    place_ok complete.occurrences fun _ _ _ mark => (Line.read_known read mark).2
  exact ⟨line, next, by simp only [step, read, placed]⟩

end

end Progress

end LootFilter
