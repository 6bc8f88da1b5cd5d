import LootFilter.Proofs.Rule.Judging
import LootFilter.Proofs.Scanner.Extent

/-! What a rule answers stands in its line: the ranges of its findings, of its colour and of its sound cover text. -/

set_option autoImplicit false

namespace LootFilter

def FindingsCover (row : Int) (line : List Char) (findings : List Finding) : Prop :=
  ∀ finding ∈ findings, finding.range.Covers row line

structure Outcome.Covers (row : Int) (line : List Char) (outcome : Outcome) : Prop where
  findings : FindingsCover row line outcome.findings
  color : ∀ mark, outcome.color = some mark → mark.range.Covers row line
  sound : ∀ mark, outcome.sound = some mark → mark.range.Covers row line

section
variable {row : Int} {line : List Char}

theorem FindingsCover.nil : FindingsCover row line [] := List.forall_mem_nil _

theorem FindingsCover.cons {finding : Finding} {findings : List Finding} (first : finding.range.Covers row line)
    (rest : FindingsCover row line findings) : FindingsCover row line (finding :: findings) :=
  List.forall_mem_cons.mpr ⟨first, rest⟩

theorem FindingsCover.append {first second : List Finding} (early : FindingsCover row line first)
    (late : FindingsCover row line second) : FindingsCover row line (first ++ second) :=
  List.forall_mem_append.mpr ⟨early, late⟩

theorem Outcome.covers_plain {findings : List Finding} {cursor : Cursor} (covers : FindingsCover row line findings) :
    Outcome.Covers row line { findings, cursor } where
  findings := covers
  color := fun _ => nofun
  sound := fun _ => nofun

end

namespace Rule

section
variable {row : Int} {line : List Char} {cursor next : Cursor} {findings : List Finding}

theorem finish_covers (on : cursor.On row line) (early : FindingsCover row line findings) :
    FindingsCover row line (finish findings cursor) := by
  unfold finish
  split
  · next left_over =>
    have visible : cursor.isIgnorable = false := by simpa using (Bool.and_eq_true_iff.mp left_over).2
    exact .cons (on.restRange visible) .nil
  · exact early

theorem missing_covers (on : cursor.On row line) (keyword : String) (expected : Expectation) :
    FindingsCover row line [missing keyword expected cursor] :=
  .cons on.lineRange .nil

theorem readEquality_covers (on : cursor.On row line) {keyword : String}
    (found : readEquality keyword cursor = (findings, next)) : FindingsCover row line findings ∧ next.On row line := by
  rcases result : cursor.readOperator with ⟨token?, after⟩
  obtain ⟨on', covers⟩ := on.operator result
  simp only [readEquality, result] at found
  cases token? with
  | none =>
    cases found
    exact ⟨.nil, on'⟩
  | some token =>
    cases found
    refine ⟨?_, on'⟩
    split
    · exact .nil
    · exact .cons (covers token rfl) .nil

theorem readBlock_covers (on : cursor.On row line) : (readBlock cursor).Covers row line := by
  apply Outcome.covers_plain
  split
  · exact .nil
  · next visible => exact .cons (on.restRange (by simpa using visible)) .nil

theorem readNumberAfter_covers (on : cursor.On row line) (limits : Limits) (keyword : String)
    (early : FindingsCover row line findings) : (readNumberAfter limits keyword findings cursor).Covers row line := by
  rcases result : cursor.readNumber with ⟨token?, after⟩
  obtain ⟨on', covers⟩ := on.number result
  simp only [readNumberAfter, result]
  apply Outcome.covers_plain
  apply finish_covers on'
  apply early.append
  cases token? with
  | none => exact missing_covers on' keyword (.number limits)
  | some token =>
    simp only
    split
    · exact .nil
    · exact .cons (covers token rfl) .nil

theorem readChoice_covers (on : cursor.On row line) (accepts : String → Bool) (expected : Expectation)
    (keyword : String) (early : FindingsCover row line findings) :
    (readChoice accepts expected keyword findings cursor).Covers row line := by
  rcases result : cursor.readString with ⟨token?, after⟩
  obtain ⟨on', covers⟩ := on.string result
  simp only [readChoice, result]
  apply Outcome.covers_plain
  apply finish_covers on'
  apply early.append
  cases token? with
  | none => exact missing_covers on' keyword expected
  | some token =>
    simp only
    split
    · exact .nil
    · exact .cons (covers token rfl) .nil

theorem readBoolean_covers (on : cursor.On row line) {reference : Reference} {keyword : String} {outcome : Outcome}
    (done : readBoolean reference keyword cursor = .ok outcome) : outcome.Covers row line := by
  rcases equality : readEquality keyword cursor with ⟨early, middle⟩
  obtain ⟨covers, on'⟩ := readEquality_covers on equality
  rcases result : middle.readBoolean with ⟨token?, after⟩
  obtain ⟨on'', -⟩ := on'.boolean result
  simp only [readBoolean, equality, result] at done
  cases token? with
  | none =>
    cases words : reference.booleanWords keyword with
    | error gap =>
      rw [words] at done
      cases done
    | ok names =>
      rw [words] at done
      cases done
      exact Outcome.covers_plain (covers.append (.cons on''.lineRange .nil))
  | some token =>
    cases done
    exact Outcome.covers_plain (finish_covers on'' covers)

/-! ## Colours -/

structure ChannelsCover (row : Int) (line : List Char) (first last : Nat) (channels : List (Token Int)) : Prop where
  covers : ∀ channel ∈ channels, channel.range.Covers row line
  from_first : ∀ channel ∈ channels, first ≤ channel.range.start.character
  to_last : ∀ channel ∈ channels, channel.range.stop.character ≤ last
  ordered : channels.Pairwise fun early late => early.range.stop.character ≤ late.range.start.character

theorem readChannels_covers (limits : Limits) (keyword : String) {count : Nat} (on : cursor.On row line)
    {channels? : Option (List (Token Int))}
    (found : readChannels limits keyword count cursor = (findings, channels?, next)) :
    FindingsCover row line findings ∧ next.On row line ∧ cursor.column ≤ next.column ∧
      ∀ channels, channels? = some channels → ChannelsCover row line cursor.column next.column channels := by
  induction count generalizing cursor next findings channels? with
  | zero =>
    cases found
    refine ⟨.nil, on, Nat.le_refl _, ?_⟩
    intro channels same
    cases same
    exact ⟨nofun, nofun, nofun, .nil⟩
  | succ count ih =>
    rcases result : cursor.readNumber with ⟨token?, middle⟩
    obtain ⟨on', covers⟩ := on.number result
    cases token? with
    | none =>
      simp only [readChannels, result] at found
      cases found
      exact ⟨missing_covers on keyword _, on, Nat.le_refl _, nofun⟩
    | some number =>
      obtain ⟨-, -, start, behind, before, range⟩ := Cursor.read_eq_some Lexeme.captures_number result
      rcases later : readChannels limits keyword count middle with ⟨own, rest?, last⟩
      obtain ⟨covers', on'', forward, ordered⟩ := ih on' later
      simp only [readChannels, result, later] at found
      by_cases inside : limits.spans number.value = true
      · rw [if_pos inside] at found
        cases found
        refine ⟨covers', on'', by omega, ?_⟩
        intro channels same
        obtain ⟨rest, rfl, rfl⟩ := Option.map_eq_some_iff.mp same
        obtain ⟨all, from_first, to_last, sorted⟩ := ordered rest rfl
        -- The number ends where the next reading starts.
        have place : number.range.start.character = start ∧ number.range.stop.character = middle.column := by
          rw [range]
          exact ⟨rfl, rfl⟩
        refine ⟨?_, ?_, ?_, List.pairwise_cons.mpr ⟨?_, sorted⟩⟩
        · exact List.forall_mem_cons.mpr ⟨covers number rfl, all⟩
        · refine List.forall_mem_cons.mpr ⟨by omega, fun channel member => ?_⟩
          have := from_first channel member
          omega
        · exact List.forall_mem_cons.mpr ⟨by omega, to_last⟩
        · intro channel member
          have := from_first channel member
          omega
      · rw [if_neg inside] at found
        cases found
        refine ⟨.cons (covers number rfl) covers', on'', by omega, ?_⟩
        intro channels same
        obtain ⟨all, from_first, to_last, sorted⟩ := ordered channels same
        refine ⟨all, fun channel member => ?_, to_last, sorted⟩
        have := from_first channel member
        omega

theorem colorMark?_covers {first last : Nat} {channels : List (Token Int)}
    (cover : ChannelsCover row line first last channels) {alpha? : Option (Token Int)}
    (alpha : ∀ token, alpha? = some token → token.range.Covers row line ∧ last ≤ token.range.start.character)
    {mark : ColorMark} (found : colorMark? channels alpha? = some mark) : mark.range.Covers row line := by
  unfold colorMark? at found
  split at found
  · next red green blue =>
    cases found
    have covers : red.range.Covers row line := cover.covers red (by simp)
    cases alpha? with
    | none =>
      have ordered : red.range.stop.character ≤ blue.range.start.character :=
        (List.pairwise_cons.mp cover.ordered).1 blue (by simp)
      have behind : red.range.start.character ≤ blue.range.start.character := by
        have := covers.not_empty
        omega
      exact covers.join (cover.covers blue (by simp)) behind
    | some token =>
      obtain ⟨covers', behind⟩ := alpha token rfl
      have behind : red.range.start.character ≤ token.range.start.character := by
        have := covers.not_empty
        have := cover.to_last red (by simp)
        omega
      exact covers.join covers' behind
  · cases found

theorem readColor_covers (on : cursor.On row line) (limits : Limits) (keyword : String) :
    (readColor limits keyword cursor).Covers row line := by
  rcases equality : readEquality keyword cursor with ⟨early, middle⟩
  obtain ⟨covers, on'⟩ := readEquality_covers on equality
  rcases three : readChannels limits keyword 3 middle with ⟨own, channels?, last⟩
  obtain ⟨covers', on'', -, channels⟩ := readChannels_covers limits keyword on' three
  cases channels? with
  | none =>
    simp only [readColor, equality, three]
    exact Outcome.covers_plain (covers.append covers')
  | some found =>
    rcases fourth : last.readNumber with ⟨alpha?, final⟩
    obtain ⟨onEnd, alpha⟩ := on''.number fourth
    simp only [readColor, equality, three, fourth]
    refine ⟨?_, ?_, fun _ => nofun⟩
    · apply finish_covers onEnd
      apply (covers.append covers').append
      intro finding member
      obtain ⟨token, bad, rfl⟩ := List.mem_map.mp member
      exact alpha token (Option.filter_eq_some_iff.mp (Option.mem_toList.mp bad)).1
    · intro mark made
      refine colorMark?_covers (channels found rfl) ?_ made
      intro token good
      have read := (Option.filter_eq_some_iff.mp good).1
      subst read
      obtain ⟨-, -, start, behind, -, range⟩ := Cursor.read_eq_some Lexeme.captures_number fourth
      refine ⟨alpha token rfl, ?_⟩
      rw [range]
      exact Int.ofNat_le.mpr behind

/-! ## Sounds -/

def IdentifierCovers (row : Int) (line : List Char) : Option (List Finding × Option Identifier) → Prop
  | none => True
  | some (own, identifier?) =>
    FindingsCover row line own ∧ ∀ identifier ∈ identifier?, identifier.range.Covers row line

theorem readIdentifier_covers (on : cursor.On row line) {settings : Settings} {sounds : Sounds} {keyword : String}
    {answer : Option (List Finding × Option Identifier)}
    (found : readIdentifier settings sounds keyword cursor = (answer, next)) :
    next.On row line ∧ IdentifierCovers row line answer := by
  rcases word : cursor.readWord with ⟨word?, after⟩
  obtain ⟨on', covers⟩ := on.word word
  simp only [readIdentifier, word] at found
  cases word? with
  | some token =>
    have covers := covers token rfl
    simp only at found
    split at found
    · cases found
      exact ⟨on', .nil, by simpa using covers⟩
    · split at found
      · cases found
        exact ⟨on', .nil, by simpa using covers⟩
      · cases found
        exact ⟨on', .cons covers .nil, nofun⟩
  | none =>
    rcases number : after.readNumber with ⟨number?, last⟩
    obtain ⟨on'', covers⟩ := on'.number number
    simp only [number] at found
    cases number? with
    | none =>
      cases found
      exact ⟨on'', trivial⟩
    | some token =>
      have covers := covers token rfl
      simp only at found
      split at found
      · cases found
        exact ⟨on'', .nil, by simpa using covers⟩
      · cases found
        exact ⟨on'', .cons covers .nil, nofun⟩

theorem readVolume_covers (on : cursor.On row line) {keyword : String} {volume : Int}
    (found : readVolume keyword cursor = (findings, volume, next)) :
    FindingsCover row line findings ∧ next.On row line := by
  rcases result : cursor.readNumber with ⟨token?, after⟩
  obtain ⟨on', covers⟩ := on.number result
  simp only [readVolume, result] at found
  cases token? with
  | none =>
    cases found
    exact ⟨.nil, on'⟩
  | some token =>
    simp only at found
    split at found
    · cases found
      exact ⟨.nil, on'⟩
    · cases found
      exact ⟨.cons (covers token rfl) .nil, on'⟩

theorem readSound_covers (on : cursor.On row line) (settings : Settings) (sounds : Sounds) (keyword : String) :
    (readSound settings sounds keyword cursor).Covers row line := by
  rcases equality : readEquality keyword cursor with ⟨early, middle⟩
  obtain ⟨covers, on'⟩ := readEquality_covers on equality
  rcases named : readIdentifier settings sounds keyword middle with ⟨answer, after⟩
  obtain ⟨on'', identified⟩ := readIdentifier_covers on' named
  cases answer with
  | none =>
    simp only [readSound, equality, named]
    exact Outcome.covers_plain (covers.append (missing_covers on'' keyword _))
  | some found =>
    obtain ⟨covers', marks⟩ := identified
    rcases loudness : readVolume keyword after with ⟨late, volume, final⟩
    obtain ⟨covers'', onEnd⟩ := readVolume_covers on'' loudness
    simp only [readSound, equality, named, loudness]
    refine ⟨finish_covers onEnd ((covers.append covers').append covers''), fun _ => nofun, ?_⟩
    intro mark made
    obtain ⟨identifier, same, rfl⟩ := Option.map_eq_some_iff.mp made
    exact marks identifier same

/-! ## Values -/

theorem readStringsUpTo_covers (count : Nat) (on : cursor.On row line) :
    (∀ token ∈ (cursor.readStringsUpTo count).1, token.range.Covers row line) ∧
      (cursor.readStringsUpTo count).2.On row line := by
  induction count generalizing cursor with
  | zero => exact ⟨List.forall_mem_nil _, on⟩
  | succ count ih =>
    rcases result : cursor.readString with ⟨token?, after⟩
    obtain ⟨on', covers⟩ := on.string result
    cases token? with
    | none =>
      simp only [Cursor.readStringsUpTo, result]
      exact ⟨List.forall_mem_nil _, on⟩
    | some token =>
      obtain ⟨all, last⟩ := ih on'
      simp only [Cursor.readStringsUpTo, result]
      exact ⟨List.forall_mem_cons.mpr ⟨covers token rfl, all⟩, last⟩

theorem judge_covers (accepts : String → Bool) (keyword : String) (expected : Expectation) (accepted : List String)
    {tokens : List (Token String)} (covers : ∀ token ∈ tokens, token.range.Covers row line) :
    FindingsCover row line (judge accepts keyword expected accepted tokens).1 := by
  induction tokens generalizing accepted with
  | nil => exact .nil
  | cons token rest ih =>
    obtain ⟨first, later⟩ := List.forall_mem_cons.mp covers
    have repeated : FindingsCover row line
        (if accepted.contains token.value then [⟨.duplicateValue keyword, token.range⟩] else []) := by
      split
      · exact .cons first .nil
      · exact .nil
    simp only [judge]
    split
    · exact repeated.append (ih _ later)
    · exact repeated.append (.cons first (ih _ later))

theorem readValues_covers (on : cursor.On row line) (accepts : String → Bool) (keyword : String)
    (expected : Expectation) : (readValues accepts keyword expected cursor).1.Covers row line := by
  rcases equality : readEquality keyword cursor with ⟨early, middle⟩
  obtain ⟨covers, on'⟩ := readEquality_covers on equality
  obtain ⟨tokens, last⟩ := readStringsUpTo_covers middle.rest.length on'
  simp only [readValues, equality]
  apply Outcome.covers_plain
  apply finish_covers last
  apply (covers.append (judge_covers accepts keyword expected [] tokens)).append
  split
  · exact .cons last.lineRange .nil
  · exact .nil

/-! ## Rules of every kind -/

-- A rule that asks for data first answers only with them.
theorem covers_of_answer {α : Type} {data : Except Reference.Gap α} {answer : α → Outcome} {block after : Block}
    {outcome : Outcome} (done : (do return (answer (← data), block)) = .ok (outcome, after))
    (covers : ∀ found, (answer found).Covers row line) : outcome.Covers row line := by
  cases data with
  | error gap => cases done
  | ok found =>
    cases done
    exact covers found

theorem read_covers (on : cursor.On row line) {settings : Settings} {reference : Reference} {kind : Kind}
    {keyword : String} {head : Range} {block after : Block} {outcome : Outcome}
    (done : read settings reference kind keyword head cursor block = .ok (outcome, after)) :
    outcome.Covers row line := by
  rcases equality : readEquality keyword cursor with ⟨early, middle⟩
  obtain ⟨covers, on'⟩ := readEquality_covers on equality
  have on'' : cursor.readOperator.2.On row line := (on.operator rfl).1
  cases kind with
  | block =>
    cases done
    exact readBlock_covers on
  | number => exact covers_of_answer done fun limits => readNumberAfter_covers on'' limits keyword .nil
  | fontSize =>
    refine covers_of_answer done fun limits => ?_
    simp only [readFontSize, equality]
    exact readNumberAfter_covers on' limits keyword covers
  | rarity =>
    simp only [read, readRarity] at done
    cases words : reference.rarityWords keyword with
    | error gap =>
      rw [words] at done
      cases done
    | ok names =>
      rw [words] at done
      cases done
      exact readChoice_covers on'' _ _ keyword .nil
  | socketGroup =>
    cases done
    simp only [readSocketGroup, equality]
    exact readChoice_covers on' _ _ keyword covers
  | boolean =>
    simp only [read] at done
    cases answer : readBoolean reference keyword cursor with
    | error gap =>
      rw [answer] at done
      cases done
    | ok found =>
      rw [answer] at done
      cases done
      exact readBoolean_covers on answer
  | color => exact covers_of_answer done fun limits => readColor_covers on limits keyword
  | itemClass =>
    cases done
    exact readValues_covers on _ keyword _
  | baseType =>
    obtain ⟨-, rfl, -⟩ := read_baseType_eq_ok_iff.mp done
    exact readValues_covers on _ keyword _
  | sound =>
    cases done
    exact readSound_covers on settings reference.sounds keyword

end

end Rule

end LootFilter
