import LootFilter.Proofs.Document.History

/-! The place of a rule: outside of a block it is an error, and past its limit in the block a warning.

The current block is said here in terms of the lines that were read, by the keywords which they report. -/

set_option autoImplicit false

namespace LootFilter

def Line.names (keyword : String) (line : Line) : Bool :=
  line.keyword.any fun mark => mark.name = keyword && mark.kind.isSome

namespace Document

/-- What the place of a line adds to what was read from it, given the lines before. -/
structure Placed (reference : Reference) (earlier : List Line) (parsed line : Line) : Prop where
  plain : parsed.kind? = none ∨ parsed.kind? = some .block → line = parsed
  outside : ∀ name range kind, parsed.keyword = some ⟨name, range, some kind⟩ → kind ≠ .block →
    (∀ other ∈ earlier, other.kind? ≠ some .block) →
    ∃ finding : Finding, line = parsed.addFinding finding ∧ finding.range = parsed.range ∧
      finding.severity = .error ∧ finding.message = s!"Block rule {name} found outside of a Hide or Show block."
  inside : ∀ name range kind, parsed.keyword = some ⟨name, range, some kind⟩ → kind ≠ .block →
    ∀ outer opener inner, earlier = outer ++ opener :: inner → opener.kind? = some .block →
    (∀ other ∈ inner, other.kind? ≠ some .block) →
    ∃ limit, reference.occurrencesOf name = .ok limit ∧
      (inner.countP (Line.names name) < limit → line = parsed) ∧
      (limit ≤ inner.countP (Line.names name) →
        ∃ finding : Finding, line = parsed.addFinding finding ∧ finding.range = range ∧ finding.severity = .warning ∧
          finding.message = Text.ordinal (inner.countP (Line.names name) + 1) ++
            s!" occurrence of the {name} rule within a block with a limit of {limit}.")

/-! ## Keywords of lines and of their texts -/

def heading (line : Line) : Option (String × Option Kind) := line.keyword.map fun mark => (mark.name, mark.kind)

def headingOf (text : List Char) : Option (String × Option Kind) :=
  (Line.headword? text).map fun name => (name, Kind.ofKeyword? name)

theorem kind?_of_heading {line : Line} {text : List Char} (same : heading line = headingOf text) :
    line.kind? = Line.headKind? text := by
  have ofLine : line.kind? = (heading line).bind Prod.snd := by
    rw [Line.kind?, heading]
    cases line.keyword <;> rfl
  have ofText : Line.headKind? text = (headingOf text).bind Prod.snd := by
    rw [Line.headKind?, headingOf]
    cases Line.headword? text <;> rfl
  rw [ofLine, ofText, same]

theorem names_of_heading {line : Line} {text : List Char} (same : heading line = headingOf text) {name : String}
    {kind : Kind} (known : Kind.ofKeyword? name = some kind) :
    Line.names name line = decide (Line.headword? text = some name) := by
  unfold heading headingOf at same
  unfold Line.names
  cases head : Line.headword? text with
  | none =>
    rw [head] at same
    rw [Option.map_eq_none_iff.mp same]
    rfl
  | some other =>
    rw [head] at same
    obtain ⟨mark, keyword, pair⟩ := Option.map_eq_some_iff.mp same
    obtain ⟨rfl, kinds⟩ := Prod.mk.inj pair
    by_cases equal : mark.name = name
    · simp [keyword, kinds, equal, known]
    · simp [keyword, equal]

section
variable {settings : Settings} {reference : Reference} {row : Int} {progress next : Progress}

theorem place_keyword {parsed line : Line} (done : progress.place reference parsed = .ok (line, next)) :
    line.keyword = parsed.keyword := by
  obtain ⟨-, rfl, -⟩ | ⟨-, rfl, -⟩ | ⟨name, range, kind, -, -, ⟨-, rfl, -⟩ | ⟨limit, -, -, -, rfl⟩⟩ :=
    Progress.place_cases done
  · rfl
  · rfl
  · rfl
  · split <;> rfl

theorem step_heading {text : List Char} {line : Line}
    (done : progress.step settings reference row text = (.ok line, next)) : heading line = headingOf text := by
  obtain ⟨parsed, block, read, placed⟩ := Progress.step_cases done
  rw [heading, place_keyword placed]
  exact Line.read_keyword read

theorem readLines_headings {texts : List (List Char)} {lines : List Line}
    (done : readLines settings reference row progress texts = .ok lines) :
    lines.map heading = texts.map headingOf := by
  induction texts generalizing row progress lines with
  | nil =>
    cases done
    rfl
  | cons text rest ih =>
    obtain ⟨line, next, others, first, later, rfl⟩ := readLines_cons_iff.mp done
    rw [List.map_cons, List.map_cons, step_heading first, ih later]

end

theorem opensBlock_of_heading {line : Line} {text : List Char} (same : heading line = headingOf text) :
    opensBlock text = decide (line.kind? = some .block) := by
  rw [opensBlock, kind?_of_heading same]

/-! ## Blocks of lines and of their texts -/

theorem no_opensBlock_of_headings {lines : List Line} {texts : List (List Char)}
    (headings : lines.map heading = texts.map headingOf) (none : ∀ line ∈ lines, line.kind? ≠ some .block) :
    ∀ text ∈ texts, opensBlock text = false := by
  intro text member
  have held : headingOf text ∈ lines.map heading := headings ▸ List.mem_map_of_mem member
  obtain ⟨line, inside, same⟩ := List.mem_map.mp held
  rw [opensBlock_of_heading same]
  exact decide_eq_false (none line inside)

theorem countP_of_headings {lines : List Line} {texts : List (List Char)}
    (headings : lines.map heading = texts.map headingOf) {name : String} {kind : Kind}
    (known : Kind.ofKeyword? name = some kind) :
    lines.countP (Line.names name) = texts.countP fun text => Line.headword? text = some name := by
  induction lines generalizing texts with
  | nil =>
    rw [List.map_eq_nil_iff.mp headings.symm]
    rfl
  | cons line rest ih =>
    obtain ⟨text, others, rfl, same, later⟩ := List.map_eq_cons_iff.mp headings.symm
    rw [List.countP_cons, List.countP_cons, ih later.symm, names_of_heading same.symm known]

theorem currentBlock_append {outer inner : List (List Char)} {opener : List Char} (opens : opensBlock opener = true)
    (none : ∀ text ∈ inner, opensBlock text = false) : currentBlock (outer ++ opener :: inner) = inner := by
  induction inner using List.reverseRecOn with
  | nil => exact currentBlock_opening outer opens
  | append_singleton inner text ih =>
    have earlier : currentBlock (outer ++ opener :: inner) = inner :=
      ih fun other member => none other (by simp [member])
    rw [← List.cons_append, ← List.append_assoc, currentBlock_inner _ (none text (by simp)), earlier]

/-- The texts of the current block, when the last line that opens one is known. -/
theorem currentBlock_of_headings {outer inner : List Line} {opener : Line} {texts : List (List Char)}
    (headings : (outer ++ opener :: inner).map heading = texts.map headingOf) (opens : opener.kind? = some .block)
    (none : ∀ line ∈ inner, line.kind? ≠ some .block) :
    texts.any opensBlock = true ∧ inner.map heading = (currentBlock texts).map headingOf := by
  -- Cut the texts where the lines are cut.
  rw [List.map_append] at headings
  obtain ⟨before, _, rfl, -, second⟩ := List.map_eq_append_iff.mp headings.symm
  obtain ⟨text, after, rfl, same, later⟩ := List.map_eq_cons_iff.mp second
  have opening : opensBlock text = true := by
    rw [opensBlock_of_heading same.symm]
    exact decide_eq_true opens
  rw [currentBlock_append opening (no_opensBlock_of_headings later.symm none)]
  exact ⟨by simp [opening], later.symm⟩

/-! ## Placing -/

theorem place_placed {settings : Settings} {reference : Reference} {texts : List (List Char)} {earlier : List Line}
    {progress next : Progress} {text : List Char} {row : Int} {block : Block} {parsed line : Line}
    (remembers : Remembers settings reference texts progress) (headings : earlier.map heading = texts.map headingOf)
    (read : Line.read settings reference row text progress.block = .ok (parsed, block))
    (placed : Progress.place reference { progress with block } parsed = .ok (line, next)) :
    Placed reference earlier parsed line := by
  constructor
  · intro unplaced
    obtain ⟨-, same, -⟩ | ⟨-, same, -⟩ | ⟨name, range, kind, keyword, inner, -⟩ := Progress.place_cases placed
    · exact same
    · exact same
    · rw [Line.kind?, keyword] at unplaced
      obtain nothing | opens := unplaced
      · cases nothing
      · exact absurd (Option.some.inj opens) inner
  · intro name range kind keyword inner none
    have closed : progress.blockFound = false := by
      rw [remembers.found]
      simpa using no_opensBlock_of_headings headings none
    obtain ⟨-, same⟩ | ⟨limit, found, -⟩ := Progress.place_rule placed keyword inner
    · exact ⟨_, same, rfl, rfl, rfl⟩
    · rw [show progress.blockFound = true from found] at closed
      cases closed
  · intro name range kind keyword inner outer opener since split opens none
    rw [split] at headings
    obtain ⟨opened, sinceHeadings⟩ := currentBlock_of_headings headings opens none
    have found : progress.blockFound = true := remembers.found.trans opened
    have known := (Line.read_known read keyword).2
    have notOpening : opensBlock text = false := by
      rw [opensBlock, ← Line.read_kind? read, Line.kind?, keyword]
      exact decide_eq_false fun same => inner (Option.some.inj same)
    -- Reading this line has not touched the counts yet.
    have count : block.occurrences name = since.countP (Line.names name) := by
      rw [read_occurrences notOpening read, remembers.counts found name kind known inner,
        countP_of_headings sinceHeadings known]
    obtain ⟨closed, -⟩ | ⟨limit, -, limited, same⟩ := Progress.place_rule placed keyword inner
    · rw [show progress.blockFound = false from closed] at found
      cases found
    · simp only [count] at same
      refine ⟨limit, limited, fun within => ?_, fun beyond => ?_⟩
      · rw [same, if_pos within]
      · rw [if_neg (Int.not_lt.mpr beyond)] at same
        exact ⟨_, same, rfl, rfl, rfl⟩

/-- Every document can be read, and each of its lines is what was read from it in the block that the lines before have
left, with what its place adds. -/
theorem read_lines_placed (settings : Settings) (reference : Reference) (complete : reference.Complete)
    (text : List Char) :
    ∃ document, Document.read settings reference text = .ok document ∧
      document.lines.length = (Text.splitLines text).length ∧
      ∀ before source after, Text.splitLines text = before ++ source :: after →
        ∃ earlier line later parsed next, document.lines = earlier ++ line :: later ∧
          earlier.length = before.length ∧
          Line.read settings reference before.length source (Progress.after settings reference 0 {} before).block =
            .ok (parsed, next) ∧
          Placed reference earlier parsed line := by
  obtain ⟨document, done, lines⟩ := read_ok settings complete text
  refine ⟨document, done, readLines_length lines, ?_⟩
  intro before source after split
  rw [split] at lines
  obtain ⟨earlier, line, later, next, same, length, first, step⟩ := readLines_line lines
  rw [Int.zero_add] at step
  obtain ⟨parsed, block, read, placed⟩ := Progress.step_cases step
  have remembers := remembers_before settings reference first
  exact ⟨earlier, line, later, parsed, block, same, length, read,
    place_placed remembers (readLines_headings first) read placed⟩

theorem second_identified_placed :
    ∃ document, Document.read {} Bundled.reference "Show\nIdentified True\nIdentified True".toList = .ok document ∧
      ∃ line ∈ document.lines, ∃ finding ∈ line.findings,
        finding.message = "2nd occurrence of the Identified rule within a block with a limit of 1." := by
  obtain ⟨document, done, -, rows⟩ := read_lines_placed {} Bundled.reference Bundled.complete
    "Show\nIdentified True\nIdentified True".toList
  obtain ⟨earlier, line, later, parsed, next, same, length, read, placed⟩ :=
    rows ["Show".toList, "Identified True".toList] "Identified True".toList [] rfl
  obtain ⟨opener, rule, rfl⟩ := List.length_eq_two.mp length
  have headings : (Document.read {} Bundled.reference "Show\nIdentified True\nIdentified True".toList).map
      (fun document => document.lines.map fun line => (line.kind?, line.names "Identified")) =
        .ok [(some .block, false), (some .boolean, true), (some .boolean, true)] := by rfl
  rw [done] at headings
  simp only [Except.map, same, List.cons_append, List.nil_append, List.map_cons, Except.ok.injEq, List.cons.injEq,
    Prod.mk.injEq] at headings
  have keyword : (Line.read {} Bundled.reference 2 "Identified True".toList
      (Progress.after {} Bundled.reference 0 {} ["Show".toList, "Identified True".toList]).block).map
      (fun answer => answer.1.keyword) = .ok (some ⟨"Identified", ⟨⟨2, 0⟩, ⟨2, 10⟩⟩, some .boolean⟩) := by rfl
  rw [show ((["Show".toList, "Identified True".toList].length : Nat) : Int) = 2 from rfl] at read
  rw [read] at keyword
  obtain ⟨limit, limited, -, beyond⟩ := placed.inside "Identified" _ .boolean (Except.ok.inj keyword) nofun [] opener
    [rule] rfl headings.1.1 (by simp [headings.2.1.1])
  obtain rfl := Except.ok.inj limited
  obtain ⟨finding, rfl, -, -, message⟩ := beyond (by simp [headings.2.1.2])
  refine ⟨document, done, parsed.addFinding finding, by simp [same], finding, by simp [Line.addFinding], ?_⟩
  rw [message, List.countP_cons, headings.2.1.2]
  rfl

end Document

end LootFilter
