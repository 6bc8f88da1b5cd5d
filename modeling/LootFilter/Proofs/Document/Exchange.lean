import LootFilter.Proofs.Document.Locality
import LootFilter.Proofs.Line.Dispatch

/-! Neighbours change places: what a line looks at of the lines before it, what it leaves to the lines behind it, and
which two lines therefore read the same in either order. -/

set_option autoImplicit false

namespace LootFilter

namespace Progress

/-- What a line looks at: whether a block was opened, the count of its own rule, and the classes that the block asks
for if it names a `BaseType` rule. -/
structure LooksSame (text : List Char) (first second : Progress) : Prop where
  found : second.blockFound = first.blockFound
  classes : Line.headKind? text = some .baseType → second.block.classes = first.block.classes
  count : first.blockFound = true → ∀ name kind, Line.headword? text = some name → Kind.ofKeyword? name = some kind →
    kind ≠ .block → second.block.occurrences name = first.block.occurrences name

/-- No line tells the one from the other. The counts are the same, wherever they stand in their tables. -/
structure Agrees (first second : Progress) : Prop where
  found : second.blockFound = first.blockFound
  classes : second.block.classes = first.block.classes
  counts : first.blockFound = true → ∀ name kind, Kind.ofKeyword? name = some kind → kind ≠ .block →
    second.block.occurrences name = first.block.occurrences name

theorem Agrees.looksSame {first second : Progress} (agrees : first.Agrees second) (text : List Char) :
    LooksSame text first second where
  found := agrees.found
  classes _ := agrees.classes
  count found name kind _ := agrees.counts found name kind

theorem LooksSame.symm {text : List Char} {first second : Progress} (looks : LooksSame text first second) :
    LooksSame text second first where
  found := looks.found.symm
  classes named := (looks.classes named).symm
  count found name kind head known inner := (looks.count (looks.found ▸ found) name kind head known inner).symm

section
variable {settings : Settings} {reference : Reference} {row : Int} {text : List Char}
  {first second next next' : Progress} {parsed line line' : Line}

/-! ## What a line looks at -/

theorem place_looksSame (found : second.blockFound = first.blockFound)
    (count : first.blockFound = true → ∀ name range kind, parsed.keyword = some ⟨name, range, some kind⟩ →
      kind ≠ .block → second.block.occurrences name = first.block.occurrences name)
    (done : first.place reference parsed = .ok (line, next)) :
    ∃ next', second.place reference parsed = .ok (line, next') := by
  obtain ⟨nothing, rfl, -⟩ | ⟨opens, rfl, -⟩ |
    ⟨name, range, kind, keyword, inner, ⟨outside, rfl, -⟩ | ⟨limit, inside, limited, -, rfl⟩⟩ := place_cases done
  · exact ⟨second, place_unknown reference second nothing⟩
  · obtain unknown | ⟨name, range, kind, keyword⟩ := line.keyword_cases
    · exact ⟨second, place_unknown reference second unknown⟩
    · rw [Line.kind?, keyword] at opens
      cases opens
      exact ⟨_, by rw [place, keyword]; rfl⟩
  · refine ⟨second, ?_⟩
    simp only [place, keyword, if_neg inner, found, outside]
    rfl
  · have same := count inside name range kind keyword inner
    refine ⟨{ second with block := second.block.record name }, ?_⟩
    simp only [place, keyword, if_neg inner, found, inside, limited, same, Bool.not_true, Bool.false_eq_true, if_false,
      bind, Except.bind]
    split
    · rfl
    · rfl

theorem step_looksSame (looks : LooksSame text first second)
    (done : first.step settings reference row text = (.ok line, next)) :
    ∃ next', second.step settings reference row text = (.ok line, next') := by
  obtain ⟨parsed, block, read, placed⟩ := step_cases done
  obtain ⟨block', read'⟩ := Line.read_in_block looks.classes read
  have count : first.blockFound = true → ∀ name range kind, parsed.keyword = some ⟨name, range, some kind⟩ →
      kind ≠ .block → block'.occurrences name = block.occurrences name := by
    intro found name range kind keyword inner
    obtain ⟨head, known⟩ := Line.read_known read keyword
    -- Reading leaves the counts of the block alone, unless it opens a new one.
    have notOpening : Document.opensBlock text = false := by
      rw [Document.opensBlock, Line.headKind?, head, Option.bind_some, known]
      exact decide_eq_false fun same => inner (Option.some.inj same)
    rw [Document.read_occurrences notOpening read', Document.read_occurrences notOpening read,
      looks.count found name kind head known inner]
  have found : { second with block := block' }.blockFound = { first with block }.blockFound := looks.found
  obtain ⟨next', placed'⟩ := place_looksSame found count placed
  exact ⟨next', by simp only [step, read', placed']⟩

/-! ## What a line leaves -/

theorem agrees_of_remembers {earlier : List (List Char)}
    (remembers : Document.Remembers settings reference earlier first)
    (remembers' : Document.Remembers settings reference earlier second) : first.Agrees second where
  found := remembers'.found.trans remembers.found.symm
  classes := remembers'.classes.trans remembers.classes.symm
  counts := by
    intro found name kind known inner
    have found' : second.blockFound = true := by rw [remembers'.found, ← remembers.found, found]
    rw [remembers'.counts found' name kind known inner, remembers.counts found name kind known inner]

theorem step_agrees (agrees : first.Agrees second)
    (done : first.step settings reference row text = (.ok line, next))
    (done' : second.step settings reference row text = (.ok line', next')) : next.Agrees next' := by
  cases opens : Document.opensBlock text with
  | true =>
    -- Both forget what they knew.
    have fresh : Document.Remembers settings reference ([] ++ [text]) next :=
      Document.step_remembers_opening opens done
    have fresh' : Document.Remembers settings reference ([] ++ [text]) next' :=
      Document.step_remembers_opening opens done'
    exact agrees_of_remembers fresh fresh'
  | false =>
    obtain ⟨found, classes⟩ := Document.step_inner opens done
    obtain ⟨found', classes'⟩ := Document.step_inner opens done'
    constructor
    · rw [found', found, agrees.found]
    · rw [classes', classes, agrees.classes]
    · intro inside name kind known inner
      rw [found] at inside
      rw [Document.step_occurrences opens done' (agrees.found.trans inside) known,
        Document.step_occurrences opens done inside known, agrees.counts inside name kind known inner]

end

end Progress

namespace Document

/-- Neither line looks at what the other one leaves: none opens a block, they are no two rules of one keyword, and no
`Class` rule meets a `BaseType` rule. -/
structure Independent (first second : List Char) : Prop where
  firstInner : Line.headKind? first ≠ some .block
  secondInner : Line.headKind? second ≠ some .block
  apart : Line.headword? first = Line.headword? second → Line.headKind? first = none
  classFirst : ¬ (Line.headKind? first = some .itemClass ∧ Line.headKind? second = some .baseType)
  baseFirst : ¬ (Line.headKind? first = some .baseType ∧ Line.headKind? second = some .itemClass)

theorem Independent.symm {first second : List Char} (independent : Independent first second) :
    Independent second first where
  firstInner := independent.secondInner
  secondInner := independent.firstInner
  apart := by
    intro same
    rw [Line.headKind?, same]
    exact independent.apart same.symm
  classFirst both := independent.baseFirst both.symm
  baseFirst both := independent.classFirst both.symm

theorem headwords_apart {first second : List Char} (independent : Independent first second) {name : String}
    {kind : Kind} (known : Kind.ofKeyword? name = some kind) (head : Line.headword? second = some name) :
    Line.headword? first ≠ some name := by
  intro same
  have nothing := independent.apart (same.trans head.symm)
  rw [Line.headKind?, same, Option.bind_some, known] at nothing
  cases nothing

section
variable {settings : Settings} {reference : Reference}

-- There is only one keyword for classes, so at most one of the lines has any.
theorem acceptedClasses_comm {first second : List Char} (independent : Independent first second) :
    Line.acceptedClasses settings reference first ++ Line.acceptedClasses settings reference second =
      Line.acceptedClasses settings reference second ++ Line.acceptedClasses settings reference first := by
  by_cases named : Line.headKind? first = some .itemClass
  · obtain ⟨name, head, known⟩ := Option.bind_eq_some_iff.mp named
    have other : Line.headKind? second ≠ some .itemClass := by
      intro named'
      obtain ⟨name', head', known'⟩ := Option.bind_eq_some_iff.mp named'
      obtain rfl := Kind.keyword_of_itemClass known
      obtain rfl := Kind.keyword_of_itemClass known'
      exact headwords_apart independent known' head' head
    rw [Line.acceptedClasses_of_other settings reference other, List.append_nil, List.nil_append]
  · rw [Line.acceptedClasses_of_other settings reference named, List.append_nil, List.nil_append]

theorem opensBlock_eq_false {text : List Char} (inner : Line.headKind? text ≠ some .block) : opensBlock text = false :=
  decide_eq_false inner

variable {row : Int} {first second : List Char} {progress next both : Progress} {line other : Line}

/-- A line does not see an independent one before it. -/
theorem looksSame_after (independent : Independent first second)
    (done : progress.step settings reference row first = (.ok line, next)) :
    Progress.LooksSame second progress next := by
  have inner := opensBlock_eq_false independent.firstInner
  obtain ⟨found, classes⟩ := step_inner inner done
  constructor
  · exact found
  · intro asks
    have none : Line.headKind? first ≠ some .itemClass := fun named => independent.classFirst ⟨named, asks⟩
    rw [classes, Line.acceptedClasses_of_other settings reference none, List.append_nil]
  · intro inside name kind head known _
    rw [step_occurrences inner done inside known, if_neg (headwords_apart independent known head), Int.add_zero]

/-- Two independent lines answer the same in either order, and no later line tells the orders apart. -/
theorem step_exchange (independent : Independent first second)
    (done : progress.step settings reference row first = (.ok line, next))
    (later : next.step settings reference (row + 1) second = (.ok other, both)) :
    ∃ next' both', progress.step settings reference row second = (.ok (other.down (-1)), next') ∧
      next'.step settings reference (row + 1) first = (.ok (line.down 1), both') ∧ both.Agrees both' := by
  have alike : ∀ progress : Progress, progress.Alike progress := fun _ => ⟨⟨rfl, rfl⟩, rfl⟩
  obtain ⟨_, unmoved⟩ := Progress.step_looksSame (looksSame_after independent done).symm later
  obtain ⟨next', done', -⟩ := Progress.step_down (-1) (fun _ => alike progress) unmoved
  rw [Int.add_neg_cancel_right] at done'
  obtain ⟨_, unmoved'⟩ := Progress.step_looksSame (looksSame_after independent.symm done') done
  obtain ⟨both', later', -⟩ := Progress.step_down 1 (fun _ => alike next') unmoved'
  refine ⟨next', both', done', later', ?_⟩
  -- Each order adds the same to the classes and to the counts.
  have inner := opensBlock_eq_false independent.firstInner
  have inner' := opensBlock_eq_false independent.secondInner
  obtain ⟨found, classes⟩ := step_inner inner done
  obtain ⟨laterFound, laterClasses⟩ := step_inner inner' later
  obtain ⟨found', classes'⟩ := step_inner inner' done'
  obtain ⟨laterFound', laterClasses'⟩ := step_inner inner later'
  constructor
  · rw [laterFound', found', laterFound, found]
  · rw [laterClasses', classes', laterClasses, classes, List.append_assoc, List.append_assoc,
      acceptedClasses_comm independent]
  · intro inside name kind known _
    have before : progress.blockFound = true := found ▸ laterFound ▸ inside
    rw [step_occurrences inner later' (found'.trans before) known, step_occurrences inner' done' before known,
      step_occurrences inner' later (found.trans before) known, step_occurrences inner done before known]
    omega

theorem readLines_agrees {progress progress' : Progress} (agrees : progress.Agrees progress')
    {texts : List (List Char)} {lines : List Line}
    (done : readLines settings reference row progress texts = .ok lines) :
    readLines settings reference row progress' texts = .ok lines := by
  induction texts generalizing row progress progress' lines with
  | nil => exact done
  | cons text rest ih =>
    obtain ⟨line, next, others, here, later, rfl⟩ := readLines_cons_iff.mp done
    obtain ⟨next', here'⟩ := Progress.step_looksSame (agrees.looksSame text) here
    exact readLines_cons_iff.mpr
      ⟨line, next', others, here', ih (Progress.step_agrees agrees here here') later, rfl⟩

theorem readLines_exchange (independent : Independent first second) {rest : List (List Char)} {lines : List Line}
    (done : readLines settings reference row progress (first :: second :: rest) = .ok lines) :
    ∃ line other later, lines = line :: other :: later ∧
      readLines settings reference row progress (second :: first :: rest) =
        .ok (other.down (-1) :: line.down 1 :: later) := by
  obtain ⟨line, next, _, here, others, rfl⟩ := readLines_cons_iff.mp done
  obtain ⟨other, both, later, there, after, rfl⟩ := readLines_cons_iff.mp others
  obtain ⟨next', both', there', here', agrees⟩ := step_exchange independent here there
  refine ⟨line, other, later, rfl, ?_⟩
  apply readLines_cons_iff.mpr
  refine ⟨_, next', _, there', ?_, rfl⟩
  exact readLines_cons_iff.mpr ⟨_, both', later, here', readLines_agrees agrees after, rfl⟩

end

/-- Two independent neighbours that change places read the same, each in the row of the other, and so do all the lines
before and behind them. -/
theorem read_exchange_of_independent (settings : Settings) (reference : Reference) (complete : reference.Complete)
    (before : List (List Char)) (first second : List Char) (after : List (List Char))
    (oneLine : ∀ text ∈ before ++ first :: second :: after, ∀ c ∈ text, Text.isBreak c = false)
    (independent : Independent first second) :
    ∃ document exchanged : Document,
      Document.read settings reference (['\n'].intercalate (before ++ first :: second :: after)) = .ok document ∧
      Document.read settings reference (['\n'].intercalate (before ++ second :: first :: after)) = .ok exchanged ∧
      ∃ earlier line other later, document.lines = earlier ++ line :: other :: later ∧
        earlier.length = before.length ∧
        exchanged.lines = earlier ++ other.down (-1) :: line.down 1 :: later := by
  have split := Text.splitLines_intercalate (by simp) oneLine
  have oneLine' : ∀ text ∈ before ++ second :: first :: after, ∀ c ∈ text, Text.isBreak c = false := by
    intro text member
    apply oneLine
    simp only [List.mem_append, List.mem_cons] at member ⊢
    tauto
  have split' := Text.splitLines_intercalate (by simp) oneLine'
  obtain ⟨document, done, lines⟩ :=
    read_ok settings complete (['\n'].intercalate (before ++ first :: second :: after))
  rw [split] at lines
  obtain ⟨earlier, rest, leading, trailing, same⟩ := readLines_append_iff.mp lines
  obtain ⟨line, other, later, rfl, swapped⟩ := readLines_exchange independent trailing
  refine ⟨document, ⟨earlier ++ other.down (-1) :: line.down 1 :: later⟩, done, ?_, earlier, line, other, later, same,
    readLines_length leading, rfl⟩
  rw [read, split', readLines_append_iff.mpr ⟨earlier, _, leading, swapped, rfl⟩]
  rfl

theorem class_exchanges_with_quality :
    ∃ document exchanged : Document,
      Document.read {} Bundled.reference "Show\nClass \"Gems\"\nQuality > 90\nBaseType \"Chaos Orb\"".toList =
        .ok document ∧
      Document.read {} Bundled.reference "Show\nQuality > 90\nClass \"Gems\"\nBaseType \"Chaos Orb\"".toList =
        .ok exchanged ∧
      ∃ earlier line other later, document.lines = earlier ++ line :: other :: later ∧ earlier.length = 1 ∧
        exchanged.lines = earlier ++ other.down (-1) :: line.down 1 :: later :=
  read_exchange_of_independent {} Bundled.reference Bundled.complete ["Show".toList] "Class \"Gems\"".toList
    "Quality > 90".toList ["BaseType \"Chaos Orb\"".toList] (by simp [Text.isBreak])
    ⟨by decide, by decide, by decide, by decide, by decide⟩

end Document

end LootFilter
