import LootFilter.CommandLine.Run
import LootFilter.Proofs.Document.Extent
import LootFilter.Proofs.Text.Lines

/-! The carets of a report stand under the text that is reported.

The margin of the line and that of the carets are made in different ways, from a number of any length. They are equally
long, and a finding covers text of one line, so that no caret is missing and none is left over. -/

set_option autoImplicit false

namespace LootFilter

open Text (isBreak splitLines)

namespace Diagnostic

theorem withoutBreak_of_no_break {line : List Char} (plain : ∀ c ∈ line, isBreak c = false) :
    withoutBreak line = line := by
  have kept (ends : Char → Bool) (breaks : ∀ c, ends c = true → isBreak c = true) :
      line.reverse.dropWhile ends = line.reverse := by
    cases shape : line.reverse with
    | nil => rfl
    | cons c rest =>
      have inside : c ∈ line := List.mem_reverse.mp (shape ▸ List.mem_cons_self)
      apply List.dropWhile_cons_of_neg
      intro ended
      have unbroken := plain c inside
      rw [breaks c ended] at unbroken
      cases unbroken
  have feeds := kept (· == '\n') fun c feed => by simp [isBreak, eq_of_beq feed]
  have carriages := kept (· == '\r') fun c carriage => by simp [isBreak, eq_of_beq carriage]
  rw [withoutBreak, feeds, carriages, List.reverse_reverse]

theorem no_break_toString (number : Int) : ∀ c ∈ (toString number).toList, isBreak c = false := by
  have digits (magnitude : Nat) : ∀ c ∈ magnitude.repr.toList, isBreak c = false := by
    intro c member
    rw [Nat.toList_repr] at member
    exact Text.isBreak_of_isDigit (Nat.isDigit_of_mem_toDigits (by decide) (by decide) member)
  have spelled : toString number = number.repr := rfl
  rw [spelled, Int.repr_eq_if]
  split
  · exact digits _
  · rw [String.toList_append]
    exact List.forall_mem_append.mpr ⟨by simp [isBreak], digits _⟩

def sourceMargin (range : Range) : String := toString (range.start.line + 1) ++ " | "

def caretIndent (range : Range) : String :=
  spaces ((toString (range.start.line + 1)).length + 1) ++ "| " ++ spaces range.start.character

def carets (range : Range) (line : List Char) : List Char := List.replicate (underlineLength range line).toNat '^'

theorem toList_spaces (count : Int) : (spaces count).toList = List.replicate count.toNat ' ' := String.toList_ofList

theorem no_break_sourceMargin (range : Range) : ∀ c ∈ (sourceMargin range).toList, isBreak c = false := by
  rw [sourceMargin, String.toList_append]
  exact List.forall_mem_append.mpr ⟨no_break_toString _, by simp [isBreak]⟩

theorem mem_caretIndent {range : Range} {c : Char} (member : c ∈ (caretIndent range).toList) : c = ' ' ∨ c = '|' := by
  simp only [caretIndent, String.toList_append, toList_spaces, List.mem_append, List.mem_replicate] at member
  obtain (⟨-, blank⟩ | bar) | ⟨-, blank⟩ := member
  · exact .inl blank
  · simpa [or_comm] using bar
  · exact .inl blank

theorem length_caretIndent (range : Range) :
    (caretIndent range).toList.length = (sourceMargin range).toList.length + range.start.character.toNat := by
  have bar : " | ".length = "| ".length + 1 := rfl
  simp only [caretIndent, sourceMargin, String.toList_append, List.length_append, toList_spaces, List.length_replicate,
    String.length_toList]
  omega

theorem excerptLines_eq (diagnostic : Diagnostic) {line : List Char} (plain : ∀ c ∈ line, isBreak c = false)
    (file : String) :
    ∃ first second gutter, diagnostic.excerptLines line file = [first, second, gutter ++ "|",
      sourceMargin diagnostic.range ++ String.ofList line,
      caretIndent diagnostic.range ++ String.ofList (carets diagnostic.range line)] := by
  rw [excerptLines, withoutBreak_of_no_break plain]
  exact ⟨_, _, _, rfl⟩

/-- An excerpt ends with two lines for the source and for the carets. The bar that ends the line before them keeps a
carriage return in the name of a file away from them. -/
theorem splitLines_excerpt (diagnostic : Diagnostic) {line : List Char} (plain : ∀ c ∈ line, isBreak c = false)
    (file : String) :
    ∃ earlier, splitLines (diagnostic.excerpt line file).toList = earlier ++
      [(sourceMargin diagnostic.range).toList ++ line,
       (caretIndent diagnostic.range).toList ++ carets diagnostic.range line] := by
  obtain ⟨first, second, gutter, lines⟩ := diagnostic.excerptLines_eq plain file
  let heading := first.toList ++ '\n' :: (second.toList ++ '\n' :: gutter.toList) ++ ['|']
  let upper := (sourceMargin diagnostic.range).toList ++ line
  let lower := (caretIndent diagnostic.range).toList ++ carets diagnostic.range line
  have joined : (diagnostic.excerpt line file).toList = heading ++ '\n' :: (upper ++ '\n' :: lower) := by
    simp [excerpt, lines, heading, upper, lower]
  have upperPlain : ∀ c ∈ upper, isBreak c = false :=
    List.forall_mem_append.mpr ⟨no_break_sourceMargin diagnostic.range, plain⟩
  have lowerPlain : ∀ c ∈ lower, isBreak c = false := by
    intro c member
    cases List.mem_append.mp member with
    | inl indent => obtain rfl | rfl := mem_caretIndent indent <;> rfl
    | inr caret =>
      rw [List.eq_of_mem_replicate caret]
      rfl
  have bar : heading.getLast? ≠ some '\r' := by
    rw [List.getLast?_concat]
    decide
  have ends : upper.getLast? ≠ some '\r' := by
    intro last
    cases upperPlain _ (List.mem_of_getLast? last)
  refine ⟨splitLines heading, ?_⟩
  rw [joined, Text.splitLines_append bar, Text.splitLines_append ends, Text.splitLines_of_no_break upperPlain,
    Text.splitLines_of_no_break lowerPlain]
  rfl

/-- A line that shows a source behind a margin, and a line below it that has one caret under each character of a range
of the source and no other caret. -/
def Underlines (range : Range) (source upper lower : List Char) : Prop :=
  ∃ margin before after blank,
    source = before ++ (range.textOf source ++ after) ∧ (before.length : Int) = range.start.character ∧
    upper = margin ++ source ∧
    lower = blank ++ List.replicate (range.textOf source).length '^' ∧
    blank.length = (margin ++ before).length ∧ '^' ∉ blank

theorem underlines_of_covers {range : Range} {row : Int} {source : List Char} (covers : range.Covers row source) :
    Underlines range source ((sourceMargin range).toList ++ source)
      ((caretIndent range).toList ++ carets range source) := by
  obtain ⟨before, after, parts, place⟩ := covers.split
  -- The range is not empty and ends on its line, so neither the least count nor the end of the line comes into play.
  have count : (underlineLength range source).toNat = (range.textOf source).length := by
    have length := covers.length_textOf
    have some_text := covers.not_empty
    rw [underlineLength, if_pos (covers.stops_on.trans covers.starts_on.symm)]
    omega
  refine ⟨_, before, after, _, parts, place, rfl, by rw [carets, count], ?_, ?_⟩
  · rw [length_caretIndent, ← place, Int.toNat_natCast, List.length_append]
  · intro caret
    cases mem_caretIndent caret with
    | inl blank => cases blank
    | inr bar => cases bar

end Diagnostic

namespace Document

theorem finding_covers {settings : Settings} {reference : Reference} {text : List Char} {document : Document}
    (done : Document.read settings reference text = .ok document) {finding : Finding}
    (reported : finding ∈ document.findings) :
    ∃ (row : Nat) (source : List Char), (splitLines text)[row]? = some source ∧ finding.range.Covers row source := by
  obtain ⟨line, member, found⟩ := List.mem_flatMap.mp reported
  obtain ⟨row, place⟩ := List.mem_iff_getElem?.mp member
  obtain ⟨source, listed, same, covers⟩ := readLines_covers (readLines_of_read done) place
  rw [Int.zero_add] at same
  exact ⟨row, source, listed, same ▸ covers.findings finding found⟩

theorem excerpts_of_finding {document : Document} {text source : List Char} {finding : Finding}
    (reported : finding ∈ document.findings)
    (listed : (splitLines text)[finding.range.start.line.toNat]? = some source) (input : Path) :
    ∃ earlier later, CommandLine.excerpts document text input =
      earlier ++ ((Diagnostic.ofFinding finding).excerpt source input.toString ++ "\n") ++ later := by
  obtain ⟨before, after, same⟩ := List.append_of_mem reported
  have line : (splitLines text).getD finding.range.start.line.toNat [] = source := by
    rw [List.getD_eq_getElem?_getD, listed]
    rfl
  simp only [CommandLine.excerpts, same, List.map_append, List.map_cons, String.join_append, String.join_cons, line]
  exact ⟨_, _, String.append_assoc.symm⟩

/-- Every finding of a document is in a row of its text, so that a report always has a line to show. An excerpt for any
name of the file ends with that line and a line of carets, which stand under the text of the finding, one for each
character. -/
theorem carets_under_flagged_text (settings : Settings) (reference : Reference) (text : List Char) (document : Document)
    (done : Document.read settings reference text = .ok document) (finding : Finding)
    (reported : finding ∈ document.findings) :
    0 ≤ finding.range.start.line ∧
      ∃ source, (splitLines text)[finding.range.start.line.toNat]? = some source ∧
        (∀ input, ∃ earlier later, CommandLine.excerpts document text input =
          earlier ++ ((Diagnostic.ofFinding finding).excerpt source input.toString ++ "\n") ++ later) ∧
        finding.range.textOf source ≠ [] ∧
        ∀ file, ∃ earlier upper lower,
          splitLines ((Diagnostic.ofFinding finding).excerpt source file).toList = earlier ++ [upper, lower] ∧
          Diagnostic.Underlines finding.range source upper lower := by
  obtain ⟨row, source, found, covers⟩ := finding_covers done reported
  have listed : (splitLines text)[finding.range.start.line.toNat]? = some source := by
    rw [covers.starts_on, Int.toNat_natCast]
    exact found
  have some_text : finding.range.textOf source ≠ [] := by
    have length := covers.length_textOf
    have not_empty := covers.not_empty
    intro nothing
    rw [nothing] at length
    simp only [List.length_nil] at length
    omega
  refine ⟨by simp [covers.starts_on], source, listed, excerpts_of_finding reported listed, some_text, fun file => ?_⟩
  have plain := Text.no_break_of_mem_splitLines (List.mem_of_getElem? listed)
  obtain ⟨earlier, ends⟩ := (Diagnostic.ofFinding finding).splitLines_excerpt plain file
  exact ⟨earlier, _, _, ends, Diagnostic.underlines_of_covers covers⟩

theorem trailing_text_underlined :
    ∃ document, Document.read {} Bundled.reference "Show\n  ItemLevel 5  or so ".toList = .ok document ∧
      ⟨.trailingText, ⟨⟨1, 15⟩, ⟨1, 20⟩⟩⟩ ∈ document.findings ∧
      ∃ earlier upper lower,
        splitLines ((Diagnostic.ofFinding ⟨.trailingText, ⟨⟨1, 15⟩, ⟨1, 20⟩⟩⟩).excerpt
          "  ItemLevel 5  or so ".toList "a.filter").toList = earlier ++ [upper, lower] ∧
        Diagnostic.Underlines ⟨⟨1, 15⟩, ⟨1, 20⟩⟩ "  ItemLevel 5  or so ".toList upper lower := by
  have found : (Document.read {} Bundled.reference "Show\n  ItemLevel 5  or so ".toList).map findings =
      .ok [⟨.trailingText, ⟨⟨1, 15⟩, ⟨1, 20⟩⟩⟩] := by rfl
  cases done : Document.read {} Bundled.reference "Show\n  ItemLevel 5  or so ".toList with
  | error fault =>
    rw [done] at found
    cases found
  | ok document =>
    rw [done] at found
    have reported : ⟨.trailingText, ⟨⟨1, 15⟩, ⟨1, 20⟩⟩⟩ ∈ document.findings := by
      rw [Except.ok.inj found]
      exact List.mem_cons_self
    obtain ⟨-, source, listed, -, -, carets⟩ := carets_under_flagged_text _ _ _ document done _ reported
    have sources : splitLines "Show\n  ItemLevel 5  or so ".toList =
        ["Show".toList, "  ItemLevel 5  or so ".toList] := by rfl
    rw [sources] at listed
    obtain rfl : "  ItemLevel 5  or so ".toList = source := Option.some.inj listed
    exact ⟨document, rfl, reported, carets "a.filter"⟩

end Document

end LootFilter
