import LootFilter.Proofs.Document.Bounds

/-! When a document cannot be read: only for want of data about a rule, and then at the first row that lacks them. -/

set_option autoImplicit false

namespace LootFilter

section
variable {settings : Settings} {reference : Reference}

theorem Line.readFrom_error_iff {row : Int} {text : List Char} {block : Block} (gap : Reference.Gap) :
    readFrom settings reference ⟨row, text, 0⟩ block = .error gap ↔
      ∃ word cursor kind, head? ⟨row, text, 0⟩ = some (word, cursor) ∧ Kind.ofKeyword? word.value = some kind ∧
        Rule.Lacks reference word.value cursor block kind gap := by
  cases named : (head? ⟨row, text, 0⟩).bind fun found => Kind.ofKeyword? found.1.value with
  | none =>
    rw [readFrom_plain settings reference block named]
    refine ⟨nofun, ?_⟩
    rintro ⟨word, cursor, kind, found, known, -⟩
    rw [found, Option.bind_some, known] at named
    cases named
  | some kind =>
    obtain ⟨⟨word, cursor⟩, found, known⟩ := Option.bind_eq_some_iff.mp named
    rw [readFrom_rule settings reference block found known, map_eq_error_iff, Rule.read_error_iff]
    simp [found, known]

/-- A line that was read cannot be placed only for want of the count of its rule, and only behind an opened block. -/
theorem Progress.place_error_iff {progress : Progress} {parsed : Line} (gap : Reference.Gap) :
    progress.place reference parsed = .error gap ↔
      ∃ name range kind, parsed.keyword = some ⟨name, range, some kind⟩ ∧ kind ≠ .block ∧
        progress.blockFound = true ∧ reference.occurrences.get? name = none ∧ gap = .noOccurrences name := by
  unfold place
  split
  · next name range kind mark =>
    simp only [mark, Option.some.injEq, KeywordMark.mk.injEq, and_assoc, exists_and_left, exists_eq_left']
    split
    · next opens => simp [opens]
    · next inner =>
      split
      · next outside =>
        have closed : progress.blockFound = false := by simpa using outside
        simp [closed]
      · next inside =>
        have opened : progress.blockFound = true := by simpa using inside
        rw [and_iff_right inner, and_iff_right opened, ← Reference.occurrencesOf_error_iff]
        cases reference.occurrencesOf name with
        | error cause => simp [bind, Except.bind]
        | ok limit =>
          simp only [bind, Except.bind]
          split
          · simp [pure, Except.pure]
          · simp [pure, Except.pure]
  · next other =>
    constructor
    · intro same
      cases same
    · rintro ⟨name, range, kind, mark, -⟩
      exact absurd mark (other name range kind)

end

/-! ## What a failure tells of the data -/

/-- The data explain a fault: it is one of their gaps, and a search without an answer only if they allow for one. -/
def Reference.Explains (reference : Reference) (fault : LineFault) : Prop :=
  ∃ gap, fault = .gap gap ∧ (reference.lengthIndex.Searchable → gap.Tabular)

section
variable {reference : Reference}

theorem Progress.failsOnly_step (settings : Settings) (row : Int) (progress : Progress) {text : List Char}
    (oneLine : ∀ c ∈ text, Text.isBreak c = false) :
    FailsOnly reference.Explains (progress.step settings reference row text).1 := by
  simp only [step, Line.read, Cursor.ofLine?_of_unbroken row oneLine]
  cases read : Line.readFrom settings reference ⟨row, text, 0⟩ progress.block with
  | error gap =>
    obtain ⟨word, cursor, kind, -, -, lacking⟩ := (Line.readFrom_error_iff gap).mp read
    exact .error ⟨gap, rfl, lacking.tabular⟩
  | ok answer =>
    simp only [Except.mapError]
    cases placed : place reference { progress with block := answer.2 } answer.1 with
    | error gap =>
      obtain ⟨name, -, -, -, -, -, -, rfl⟩ := (place_error_iff gap).mp placed
      refine .error ⟨_, rfl, fun _ keyword same => ?_⟩
      cases same
    | ok found => exact .ok found.1

namespace Document

theorem failsOnly_readLines (settings : Settings) (row : Int) (progress : Progress) {texts : List (List Char)}
    (oneLine : ∀ text ∈ texts, ∀ c ∈ text, Text.isBreak c = false) :
    FailsOnly reference.Explains (readLines settings reference row progress texts) := by
  induction texts generalizing row progress with
  | nil => exact .ok _
  | cons text rest ih =>
    have here : FailsOnly reference.Explains (progress.step settings reference row text).1 :=
      progress.failsOnly_step settings row (oneLine text List.mem_cons_self)
    rcases step : progress.step settings reference row text with ⟨fault | line, next⟩
    · rw [step] at here
      simp only [readLines, step]
      exact .error (here fault rfl)
    · simp only [readLines, step]
      have later := ih (row + 1) next fun other member => oneLine other (List.mem_cons_of_mem _ member)
      exact .bind later fun _ _ => .ok _

theorem failsOnly_read (settings : Settings) (reference : Reference) (text : List Char) :
    FailsOnly reference.Explains (read settings reference text) :=
  .bind (failsOnly_readLines settings 0 {} fun _ member => Text.no_break_of_mem_splitLines member) fun _ _ => .ok _

end Document

end

/-- A row reads as a rule that takes numbers, and the data have no limits for them. -/
def Line.NeedsLimits (reference : Reference) (text : List Char) (name : String) : Prop :=
  headword? text = some name ∧ (∃ kind, Kind.ofKeyword? name = some kind ∧ kind.takesNumbers = true) ∧
    reference.limits.get? name = none

namespace Line

theorem readFrom_error_iff_limits (settings : Settings) {reference : Reference} (words : reference.HasWords)
    (searchable : reference.lengthIndex.Searchable) (row : Int) (text : List Char) (block : Block)
    (gap : Reference.Gap) :
    readFrom settings reference ⟨row, text, 0⟩ block = .error gap ↔
      ∃ name, NeedsLimits reference text name ∧ gap = .noLimits name := by
  rw [readFrom_error_iff]
  constructor
  · rintro ⟨word, cursor, kind, found, known, lacking⟩
    obtain ⟨numbers, absent, rfl⟩ := lacking.of_words words searchable
    refine ⟨word.value, ⟨?_, ⟨kind, known, numbers⟩, absent⟩, rfl⟩
    rw [headword?_eq row, found, Option.map_some]
  · rintro ⟨name, ⟨head, ⟨kind, known, numbers⟩, absent⟩, rfl⟩
    obtain ⟨⟨word, cursor⟩, found, rfl⟩ := Option.map_eq_some_iff.mp ((headword?_eq row text).symm.trans head)
    exact ⟨word, cursor, kind, found, known, .limits numbers absent⟩

theorem read_error_iff (settings : Settings) {reference : Reference} (words : reference.HasWords)
    (searchable : reference.lengthIndex.Searchable) (row : Int) {text : List Char}
    (oneLine : ∀ c ∈ text, Text.isBreak c = false) (block : Block) (fault : LineFault) :
    Line.read settings reference row text block = .error fault ↔
      ∃ name, NeedsLimits reference text name ∧ fault = .gap (.noLimits name) := by
  have whole := Cursor.ofLine?_of_unbroken row oneLine
  have failed := readFrom_error_iff_limits settings words searchable row text block
  simp only [Line.read, whole]
  cases done : readFrom settings reference ⟨row, text, 0⟩ block with
  | error gap =>
    obtain ⟨name, needed, rfl⟩ := (failed gap).mp done
    constructor
    · intro same
      cases same
      exact ⟨name, needed, rfl⟩
    · rintro ⟨other, alike, rfl⟩
      obtain rfl : name = other := Option.some.inj (needed.1.symm.trans alike.1)
      rfl
  | ok answer =>
    constructor
    · intro same
      cases same
    · rintro ⟨name, needed, -⟩
      rw [(failed _).mpr ⟨name, needed, rfl⟩] at done
      cases done

end Line

namespace Document

/-- A row behind one that opens a block reads as a rule, and the data do not say how often a block takes it. -/
def NeedsOccurrences (reference : Reference) (earlier : List (List Char)) (text : List Char) (name : String) : Prop :=
  Line.headword? text = some name ∧ (∃ kind, Kind.ofKeyword? name = some kind ∧ kind ≠ .block) ∧
    reference.occurrences.get? name = none ∧ ∃ other ∈ earlier, opensBlock other = true

/-- What the data lack for a row that stands behind others. Missing limits count first. -/
inductive Lacks (reference : Reference) (earlier : List (List Char)) (text : List Char) : Reference.Gap → Prop where
  | limits {name : String} (needed : Line.NeedsLimits reference text name) :
    Lacks reference earlier text (.noLimits name)
  | occurrences {name : String} (needed : NeedsOccurrences reference earlier text name)
    (limited : ¬Line.NeedsLimits reference text name) : Lacks reference earlier text (.noOccurrences name)

theorem exists_lacks_iff {reference : Reference} {earlier : List (List Char)} {text : List Char} :
    (∃ gap, Lacks reference earlier text gap) ↔
      ∃ name, Line.NeedsLimits reference text name ∨ NeedsOccurrences reference earlier text name := by
  constructor
  · rintro ⟨_, ⟨needed⟩ | ⟨needed, -⟩⟩
    · exact ⟨_, .inl needed⟩
    · exact ⟨_, .inr needed⟩
  · rintro ⟨name, needed⟩
    by_cases limited : Line.NeedsLimits reference text name
    · exact ⟨_, .limits limited⟩
    · exact ⟨_, .occurrences (needed.resolve_left limited) limited⟩

theorem Lacks.unique {reference : Reference} {earlier : List (List Char)} {text : List Char}
    {first second : Reference.Gap} (one : Lacks reference earlier text first)
    (other : Lacks reference earlier text second) : first = second := by
  rcases one with ⟨needed⟩ | ⟨needed, limited⟩
  · rcases other with ⟨needed'⟩ | ⟨needed', limited'⟩
    · rw [Option.some.inj (needed.1.symm.trans needed'.1)]
    · obtain rfl := Option.some.inj (needed.1.symm.trans needed'.1)
      exact absurd needed limited'
  · rcases other with ⟨needed'⟩ | ⟨needed', limited'⟩
    · obtain rfl := Option.some.inj (needed.1.symm.trans needed'.1)
      exact absurd needed' limited
    · rw [Option.some.inj (needed.1.symm.trans needed'.1)]

section
variable {settings : Settings} {reference : Reference} {progress : Progress}

theorem place_read_error_iff {row : Int} {text : List Char} {earlier : List (List Char)} {parsed : Line}
    {block : Block} (read : Line.read settings reference row text progress.block = .ok (parsed, block))
    (found : progress.blockFound = earlier.any opensBlock) (gap : Reference.Gap) :
    Progress.place reference { progress with block } parsed = .error gap ↔
      ∃ name, NeedsOccurrences reference earlier text name ∧ gap = .noOccurrences name := by
  have opened : progress.blockFound = true ↔ ∃ other ∈ earlier, opensBlock other = true := by
    rw [found, List.any_eq_true]
  rw [Progress.place_error_iff]
  constructor
  · rintro ⟨name, range, kind, mark, inner, inside, absent, rfl⟩
    obtain ⟨head, known⟩ := Line.read_known read mark
    exact ⟨name, ⟨head, ⟨kind, known, inner⟩, absent, opened.mp inside⟩, rfl⟩
  · rintro ⟨name, ⟨head, ⟨kind, known, inner⟩, absent, opens⟩, rfl⟩
    have keyword := Line.read_keyword read
    rw [head, Option.map_some, known] at keyword
    obtain ⟨⟨held, range, read⟩, mark, same⟩ := Option.map_eq_some_iff.mp keyword
    obtain ⟨rfl, rfl⟩ := Prod.mk.inj same
    exact ⟨held, range, kind, mark, inner, opened.mpr opens, absent, rfl⟩

/-- One row fails exactly for what the data lack for it. -/
theorem step_error_iff (words : reference.HasWords) (searchable : reference.lengthIndex.Searchable)
    {earlier : List (List Char)} (remembers : Remembers settings reference earlier progress) (row : Int)
    {text : List Char} (oneLine : ∀ c ∈ text, Text.isBreak c = false) (fault : LineFault) :
    (progress.step settings reference row text).1 = .error fault ↔
      ∃ gap, Lacks reference earlier text gap ∧ fault = .gap gap := by
  have failed := Line.read_error_iff settings words searchable row oneLine progress.block
  unfold Progress.step
  cases read : Line.read settings reference row text progress.block with
  | error cause =>
    obtain ⟨name, needed, rfl⟩ := (failed cause).mp read
    constructor
    · intro same
      cases same
      exact ⟨_, .limits needed, rfl⟩
    · rintro ⟨gap, lacking, rfl⟩
      rw [lacking.unique (.limits needed)]
  | ok answer =>
    obtain ⟨parsed, block⟩ := answer
    -- The row has its limits, so only its place can fail.
    have limited (name : String) : ¬Line.NeedsLimits reference text name := by
      intro needed
      rw [(failed _).mpr ⟨name, needed, rfl⟩] at read
      cases read
    have misplaced := place_read_error_iff read remembers.found
    simp only
    cases placed : Progress.place reference { progress with block } parsed with
    | error cause =>
      obtain ⟨name, needed, rfl⟩ := (misplaced cause).mp placed
      constructor
      · intro same
        cases same
        exact ⟨_, .occurrences needed (limited name), rfl⟩
      · rintro ⟨gap, lacking, rfl⟩
        rw [lacking.unique (.occurrences needed (limited name))]
    | ok answer =>
      refine ⟨nofun, ?_⟩
      rintro ⟨_, needed | ⟨needed, -⟩, -⟩
      · exact absurd needed (limited _)
      · rw [(misplaced _).mpr ⟨_, needed, rfl⟩] at placed
        cases placed

end

/-! ## Rows in a row -/

def Supplied (reference : Reference) (earlier texts : List (List Char)) : Prop :=
  ∀ before text after, texts = before ++ text :: after → ∀ gap, ¬Lacks reference (earlier ++ before) text gap

def FirstGap (reference : Reference) (earlier texts : List (List Char)) (gap : Reference.Gap) : Prop :=
  ∃ before text after, texts = before ++ text :: after ∧ Supplied reference earlier before ∧
    Lacks reference (earlier ++ before) text gap

section
variable {reference : Reference} {earlier rest : List (List Char)} {text : List Char}

theorem supplied_nil : Supplied reference earlier [] := by
  intro before text after same
  simp at same

theorem supplied_cons_iff :
    Supplied reference earlier (text :: rest) ↔
      (∀ gap, ¬Lacks reference earlier text gap) ∧ Supplied reference (earlier ++ [text]) rest := by
  constructor
  · intro supplied
    refine ⟨by simpa using supplied [] text rest rfl, ?_⟩
    rintro before other after rfl
    simpa using supplied (text :: before) other after rfl
  · rintro ⟨here, later⟩ before other after same
    obtain ⟨rfl, alike⟩ | ⟨before, rfl, rfl⟩ := List.cons_eq_append_iff.mp same
    · cases alike
      simpa using here
    · simpa using later before other after rfl

theorem firstGap_cons_iff {gap : Reference.Gap} :
    FirstGap reference earlier (text :: rest) gap ↔
      Lacks reference earlier text gap ∨
        (∀ other, ¬Lacks reference earlier text other) ∧ FirstGap reference (earlier ++ [text]) rest gap := by
  constructor
  · rintro ⟨before, other, after, same, supplied, lacking⟩
    obtain ⟨rfl, alike⟩ | ⟨before, rfl, rfl⟩ := List.cons_eq_append_iff.mp same
    · cases alike
      exact .inl (by simpa using lacking)
    · obtain ⟨here, later⟩ := supplied_cons_iff.mp supplied
      exact .inr ⟨here, before, other, after, rfl, later, by simpa using lacking⟩
  · rintro (lacking | ⟨here, before, other, after, rfl, later, lacking⟩)
    · exact ⟨[], text, rest, rfl, supplied_nil, by simpa using lacking⟩
    · exact ⟨text :: before, other, after, rfl, supplied_cons_iff.mpr ⟨here, later⟩, by simpa using lacking⟩

end

section
variable {settings : Settings} {reference : Reference}

/-- Reading stops with the first gap, and only with it. -/
theorem readLines_error_iff (words : reference.HasWords) (searchable : reference.lengthIndex.Searchable)
    {texts earlier : List (List Char)} {progress : Progress} (remembers : Remembers settings reference earlier progress)
    (row : Int) (oneLine : ∀ text ∈ texts, ∀ c ∈ text, Text.isBreak c = false) (fault : LineFault) :
    readLines settings reference row progress texts = .error fault ↔
      ∃ gap, FirstGap reference earlier texts gap ∧ fault = .gap gap := by
  induction texts generalizing earlier row progress with
  | nil =>
    refine ⟨nofun, ?_⟩
    rintro ⟨gap, ⟨before, text, after, same, -⟩, -⟩
    simp at same
  | cons text rest ih =>
    have here := step_error_iff words searchable remembers row (oneLine text List.mem_cons_self)
    simp only [firstGap_cons_iff]
    rcases step : progress.step settings reference row text with ⟨cause | line, next⟩
    · rw [step] at here
      obtain ⟨gap, lacking, rfl⟩ := (here cause).mp rfl
      simp only [readLines, step]
      constructor
      · intro same
        cases same
        exact ⟨gap, .inl lacking, rfl⟩
      · rintro ⟨other, alike | ⟨nothing, -⟩, rfl⟩
        · rw [lacking.unique alike]
        · exact absurd lacking (nothing gap)
    · rw [step] at here
      have nothing (gap : Reference.Gap) : ¬Lacks reference earlier text gap := by
        intro lacking
        cases (here (.gap gap)).mpr ⟨gap, lacking, rfl⟩
      have later := ih (step_remembers remembers step) (row + 1)
        fun other member => oneLine other (List.mem_cons_of_mem _ member)
      simp only [nothing, not_false_eq_true, implies_true, true_and, false_or, ← later, readLines, step]
      cases readLines settings reference (row + 1) next rest with
      | error cause => simp [bind, Except.bind]
      | ok lines => simp [bind, Except.bind, pure, Except.pure]

theorem exists_firstGap (earlier after : List (List Char)) {before : List (List Char)} {text : List Char}
    {gap : Reference.Gap} (lacking : Lacks reference (earlier ++ before) text gap) :
    ∃ other, FirstGap reference earlier (before ++ text :: after) other := by
  induction before generalizing earlier with
  | nil => exact ⟨gap, [], text, after, rfl, supplied_nil, lacking⟩
  | cons first rest ih =>
    rw [List.cons_append]
    simp only [firstGap_cons_iff]
    by_cases here : ∃ other, Lacks reference earlier first other
    · obtain ⟨other, found⟩ := here
      exact ⟨other, .inl found⟩
    · obtain ⟨other, found⟩ := ih (earlier ++ [first]) (by simpa using lacking)
      exact ⟨other, .inr ⟨fun gap held => here ⟨gap, held⟩, found⟩⟩

end

theorem read_error_iff (settings : Settings) {reference : Reference} (words : reference.HasWords)
    (searchable : reference.lengthIndex.Searchable) (text : List Char) (fault : LineFault) :
    read settings reference text = .error fault ↔
      ∃ gap, FirstGap reference [] (Text.splitLines text) gap ∧ fault = .gap gap := by
  rw [← readLines_error_iff words searchable (initial_remembers settings reference) 0
    fun _ member => Text.no_break_of_mem_splitLines member, read]
  cases readLines settings reference 0 {} (Text.splitLines text) with
  | error cause => simp [bind, Except.bind]
  | ok lines => simp [bind, Except.bind, pure, Except.pure]

/-- Reading a document never fails because of a line break. With data that let every search for a base answer, and whose
bounds can be written out, it fails exactly at the first row that needs limits or a count that the data do not have,
with that gap; with all limits and counts it answers one line per row. Every bound that a finding then states can be
written out. -/
theorem read_fails_at_first_gap (settings : Settings) (reference : Reference) (words : reference.HasWords)
    (text : List Char) :
    (∀ whole, read settings reference text ≠ .error (.multiline whole)) ∧
    (reference.lengthIndex.Searchable → reference.Writable →
      (∀ fault, read settings reference text = .error fault ↔
        ∃ gap, FirstGap reference [] (Text.splitLines text) gap ∧ fault = .gap gap) ∧
      ((∃ fault, read settings reference text = .error fault) ↔
        ∃ before row after name, Text.splitLines text = before ++ row :: after ∧
          (Line.NeedsLimits reference row name ∨ NeedsOccurrences reference before row name)) ∧
      (reference.HasLimits → reference.HasOccurrences → ∃ document, read settings reference text = .ok document ∧
        document.lines.length = (Text.splitLines text).length) ∧
      ∀ document, read settings reference text = .ok document →
        ∀ finding ∈ document.findings, finding.problem.Writable) := by
  refine ⟨?_, fun searchable writable => ?_⟩
  · intro whole done
    obtain ⟨gap, same, -⟩ := failsOnly_read settings reference text _ done
    cases same
  have failed := read_error_iff settings words searchable text
  refine ⟨failed, ⟨?_, ?_⟩, ?_, fun document done => read_writable writable done⟩
  · rintro ⟨fault, done⟩
    obtain ⟨gap, ⟨before, row, after, same, -, lacking⟩, -⟩ := (failed fault).mp done
    obtain ⟨name, needed⟩ := exists_lacks_iff.mp ⟨gap, lacking⟩
    exact ⟨before, row, after, name, same, needed⟩
  · rintro ⟨before, row, after, name, same, needed⟩
    obtain ⟨gap, lacking⟩ := exists_lacks_iff.mpr ⟨name, needed⟩
    obtain ⟨other, first⟩ := exists_firstGap [] after lacking
    exact ⟨.gap other, (failed _).mpr ⟨other, same ▸ first, rfl⟩⟩
  · intro limits occurrences
    obtain ⟨document, done, lines⟩ := read_ok settings ⟨limits, occurrences, words, searchable⟩ text
    exact ⟨document, done, readLines_length lines⟩

def uncounted : Reference := { Bundled.reference with occurrences := .empty }

theorem uncounted_itemLevel_fails :
    uncounted.HasWords ∧ uncounted.lengthIndex.Searchable ∧ uncounted.Writable ∧
      FirstGap uncounted [] (Text.splitLines "Quality 5\nShow\n# levels\nItemLevel 60\nQuality 20".toList)
        (.noOccurrences "ItemLevel") := by
  have words : uncounted.HasWords := ⟨Bundled.hasWords.rarities, Bundled.hasWords.booleans⟩
  have writable : uncounted.Writable :=
    { Bundled.writable with occurrences := fun _ _ _ found => nomatch found }
  have failed : read {} uncounted "Quality 5\nShow\n# levels\nItemLevel 60\nQuality 20".toList =
      .error (.gap (.noOccurrences "ItemLevel")) := by decide +kernel
  obtain ⟨gap, first, same⟩ :=
    (((read_fails_at_first_gap {} uncounted words _).2 Bundled.searchable writable).1 _).mp failed
  cases same
  exact ⟨words, Bundled.searchable, writable, first⟩

def unsearchable : Reference :=
  { Bundled.reference with lengthIndex := ⟨[.name "Arc"], [.number (-5), .number 0, .number 0]⟩ }

/-- A start before all bases ends the reading, although no row lacks limits or a count. -/
theorem unsearchable_base_fails :
    unsearchable.HasWords ∧ unsearchable.HasLimits ∧ unsearchable.HasOccurrences ∧
      read {} unsearchable "Show\nBaseType A".toList = .error (.gap (.noBase "BaseType")) ∧
      ¬∃ before row after name, Text.splitLines "Show\nBaseType A".toList = before ++ row :: after ∧
        (Line.NeedsLimits unsearchable row name ∨ NeedsOccurrences unsearchable before row name) := by
  have limits : unsearchable.HasLimits := by decide
  have occurrences : unsearchable.HasOccurrences := by decide
  refine ⟨⟨Bundled.hasWords.rarities, Bundled.hasWords.booleans⟩, limits, occurrences, by decide +kernel, ?_⟩
  rintro ⟨before, row, after, name, -, ⟨-, ⟨kind, known, numbers⟩, absent⟩ | ⟨-, ⟨kind, known, inner⟩, absent, -⟩⟩
  · have found := limits _ (Kind.mem_keywords known) numbers
    rw [absent] at found
    cases found
  · have found := occurrences _ (Kind.mem_keywords known) inner
    rw [absent] at found
    cases found

end Document

end LootFilter
