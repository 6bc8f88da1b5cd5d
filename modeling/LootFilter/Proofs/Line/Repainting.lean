import LootFilter.Proofs.Line.Replacement
import LootFilter.Proofs.Text.Lines

/-! A colour written anew. A clean rule with a colour stays clean, and keeps its colour, when the text that presents the
colour takes the place of its channels: signs, zeros and blanks may go, and a full alpha may come or go. -/

set_option autoImplicit false

namespace LootFilter

open Grammar
open Text (isBlank endsHere)

/-! ## Numbers as they are written -/

def Lexeme.ReadsBack (number : Int) : Prop := Shape.number (toString number).toList number

theorem Lexeme.readsBack_of_le {number : Int} (least : 0 ≤ number) (greatest : number ≤ largestNumber) :
    ReadsBack number := by
  obtain ⟨magnitude, rfl⟩ := Int.eq_ofNat_of_zero_le least
  have digits : (toString (magnitude : Int)).toList = Nat.toDigits 10 magnitude := Nat.toList_repr
  have value : decimalValue (Nat.toDigits 10 magnitude) = magnitude :=
    Nat.ofDigitChars_toDigits (by decide) (by decide)
  rw [ReadsBack, digits]
  refine ⟨[], Nat.toDigits 10 magnitude, (List.nil_append _).symm, .inl rfl, Nat.toDigits_ne_nil, ?_, ?_⟩
  · intro c member
    exact Nat.isDigit_of_mem_toDigits (by decide) (by decide) member
  · simp only [exactValue, clamp, value, reduceCtorEq, decide_false, Bool.false_eq_true, if_false]
    omega

theorem Shape.number_unbroken {chars : List Char} {value : Int} (shaped : Shape.number chars value) :
    ∀ c ∈ chars, Text.isBreak c = false := by
  obtain ⟨sign, digits, rfl, signed, -, all, -⟩ := shaped
  have plain : ∀ c ∈ sign, Text.isBreak c = false := by
    obtain rfl | rfl | rfl := signed <;> simp [Text.isBreak]
  exact List.forall_mem_append.mpr ⟨plain, fun c member => Text.isBreak_of_isDigit (all c member)⟩

namespace Lexeme

def indented (numbers : List Int) : List Char := numbers.flatMap fun number => ' ' :: (toString number).toList

def spaced : List Int → List Char
  | [] => []
  | number :: others => (toString number).toList ++ indented others

theorem endsHere_indented (numbers : List Int) {after : List Char} (ends : endsHere after = true) :
    endsHere (indented numbers ++ after) = true := by
  cases numbers with
  | nil => exact ends
  | cons number others => rfl

section
variable {numbers : List Int} (plain : ∀ number ∈ numbers, ReadsBack number)
include plain

theorem spaced_ne_nil (some_numbers : numbers ≠ []) : spaced numbers ≠ [] := by
  cases numbers with
  | nil => exact absurd rfl some_numbers
  | cons number others =>
    obtain ⟨c, tail, same, -⟩ := captures_number.visible (plain number List.mem_cons_self)
    rw [spaced, same]
    exact List.cons_ne_nil _ _

theorem unbroken_spaced : ∀ c ∈ spaced numbers, Text.isBreak c = false := by
  intro c member
  cases numbers with
  | nil => cases member
  | cons number others =>
    simp only [spaced, indented, List.mem_append, List.mem_flatMap, List.mem_cons] at member
    obtain first | ⟨other, inside, rfl | later⟩ := member
    · exact Shape.number_unbroken (plain number List.mem_cons_self) c first
    · rfl
    · exact Shape.number_unbroken (plain other (List.mem_cons_of_mem number inside)) c later

end

end Lexeme

/-! ## Numbers in a row -/

namespace Cursor

theorem read_behind_blanks {α : Type} {reader : Reader α} {shape : Shape α} (captures : Captures reader shape)
    {cursor : Cursor} {blanks chars rest : List Char} {value : α} (split : cursor.rest = blanks ++ (chars ++ rest))
    (all : ∀ c ∈ blanks, isBlank c = true) (shaped : shape chars value) (ends : endsHere rest = true) :
    ∃ token next, cursor.read reader = (some token, next) ∧ token.value = value ∧
      token.range.start = ⟨cursor.row, (cursor.column + blanks.length : Nat)⟩ ∧ next.rest = rest := by
  have found := read_of_extent captures split all shaped ends
  have follows := (read_eq_some captures found).1
  exact ⟨_, _, found, rfl, rfl, (captures.follows_unique follows ⟨blanks, chars, split, all, shaped, ends⟩).2⟩

inductive Numbers : Cursor → List (Token Int) → Cursor → Prop where
  | done {cursor : Cursor} : Numbers cursor [] cursor
  | next {cursor next last : Cursor} {token : Token Int} {tokens : List (Token Int)} :
      cursor.readNumber = (some token, next) → Numbers next tokens last → Numbers cursor (token :: tokens) last

section
variable {cursor last : Cursor} {tokens : List (Token Int)}

theorem numbers_append_iff {others : List (Token Int)} :
    cursor.Numbers (tokens ++ others) last ↔ ∃ middle, cursor.Numbers tokens middle ∧ middle.Numbers others last := by
  induction tokens generalizing cursor with
  | nil =>
    constructor
    · intro numbers
      exact ⟨cursor, .done, numbers⟩
    · rintro ⟨middle, ⟨⟩, numbers⟩
      exact numbers
  | cons token tokens ih =>
    constructor
    · rintro (_ | ⟨found, numbers⟩)
      obtain ⟨middle, first, second⟩ := ih.mp numbers
      exact ⟨middle, .next found first, second⟩
    · rintro ⟨middle, _ | ⟨found, first⟩, second⟩
      exact .next found (ih.mpr ⟨middle, first, second⟩)

theorem Numbers.rest_ne_nil {token : Token Int} (numbers : cursor.Numbers (token :: tokens) last) :
    cursor.rest ≠ [] := by
  cases numbers with
  | next found _ =>
    have shorter := Lexeme.captures_number.length_lt (read_eq_some Lexeme.captures_number found).1
    exact List.ne_nil_of_length_pos (by omega)

theorem readNumber_of_ignorable (ignorable : Ignorable cursor.rest) : cursor.readNumber = (none, cursor) := by
  rcases found : cursor.readNumber with ⟨number?, next⟩
  cases number? with
  | none => rw [(read_eq_none Lexeme.captures_number found).1]
  | some number =>
    have follows := (read_eq_some Lexeme.captures_number found).1
    exact absurd ignorable (not_ignorable_of_number follows)

theorem Numbers.slot (numbers : cursor.Numbers tokens last) {first final : Token Int}
    (head : tokens.head? = some first) (tail : tokens.getLast? = some final) :
    ∃ blanks chars, cursor.Slot ⟨first.range.start, final.range.stop⟩ blanks chars last.rest ∧
      ∀ c ∈ blanks, isBlank c = true := by
  induction numbers generalizing first with
  | done => cases head
  | @next cursor next last token tokens found numbers ih =>
    obtain rfl : token = first := Option.some.inj head
    obtain ⟨blanks, chars, split, all, shaped, ends, range, same⟩ := read_extent Lexeme.captures_number found
    cases tokens with
    | nil =>
      obtain rfl : token = final := Option.some.inj tail
      cases numbers
      exact ⟨blanks, chars, ⟨split, range, Lexeme.captures_number.visible shaped, ends⟩, all⟩
    | cons second others =>
      -- The text goes on from the first number to the ones that the induction is about, with blanks between.
      obtain ⟨between, later, slot, -⟩ := ih rfl tail
      obtain ⟨c, rest, rfl, plain⟩ := Lexeme.captures_number.visible shaped
      refine ⟨blanks, c :: rest ++ (between ++ later), ⟨?_, ?_, ⟨c, _, rfl, plain⟩, slot.ends⟩, all⟩
      · rw [split, slot.split]
        simp only [List.append_assoc]
      · have stop := congrArg Range.stop slot.place
        have column : next.column = cursor.column + blanks.length + (c :: rest).length := by rw [same]
        have row : next.row = cursor.row := by rw [same]
        simp only [Range.onLine, row, column] at stop
        rw [range, stop]
        simp only [Range.onLine, List.length_append, Nat.add_assoc]

theorem numbers_indented {numbers : List Int} (plain : ∀ number ∈ numbers, Lexeme.ReadsBack number)
    {after : List Char} (split : cursor.rest = Lexeme.indented numbers ++ after) (ends : endsHere after = true) :
    ∃ tokens last, cursor.Numbers tokens last ∧ tokens.map Token.value = numbers ∧ last.rest = after := by
  induction numbers generalizing cursor with
  | nil => exact ⟨[], cursor, .done, rfl, split⟩
  | cons number others ih =>
    obtain ⟨first, later⟩ := List.forall_mem_cons.mp plain
    have here : cursor.rest = [' '] ++ ((toString number).toList ++ (Lexeme.indented others ++ after)) := by
      rw [split]
      simp [Lexeme.indented]
    obtain ⟨token, next, found, rfl, -, rest⟩ := read_behind_blanks Lexeme.captures_number here
      (List.forall_mem_singleton.mpr rfl) first (Lexeme.endsHere_indented others ends)
    obtain ⟨tokens, last, numbers, values, left⟩ := ih later rest
    exact ⟨token :: tokens, last, .next found numbers, by rw [List.map_cons, values], left⟩

theorem numbers_spaced {number : Int} {others : List Int}
    (plain : ∀ each ∈ number :: others, Lexeme.ReadsBack each) {blanks after : List Char}
    (split : cursor.rest = blanks ++ (Lexeme.spaced (number :: others) ++ after))
    (all : ∀ c ∈ blanks, isBlank c = true) (ends : endsHere after = true) :
    ∃ token tokens last, cursor.Numbers (token :: tokens) last ∧
      (token :: tokens).map Token.value = number :: others ∧ last.rest = after ∧
      token.range.start = ⟨cursor.row, (cursor.column + blanks.length : Nat)⟩ := by
  obtain ⟨first, later⟩ := List.forall_mem_cons.mp plain
  rw [Lexeme.spaced, List.append_assoc] at split
  obtain ⟨token, next, found, rfl, start, rest⟩ :=
    read_behind_blanks Lexeme.captures_number split all first (Lexeme.endsHere_indented others ends)
  obtain ⟨tokens, last, numbers, values, left⟩ := numbers_indented later rest ends
  exact ⟨token, tokens, last, .next found numbers, by rw [List.map_cons, values], left, start⟩

end

end Cursor

theorem no_operator_spaced {number : Int} {others : List Int}
    (plain : ∀ each ∈ number :: others, Lexeme.ReadsBack each) {blanks after : List Char}
    (all : ∀ c ∈ blanks, isBlank c = true) (ends : endsHere after = true) (operator : Operator) (rest : List Char) :
    ¬Follows Shape.operator (blanks ++ (Lexeme.spaced (number :: others) ++ after)) operator rest := by
  have first := plain number List.mem_cons_self
  refine no_operator Lexeme.captures_number operandlike_number ⟨blanks, _, ?_, all, first,
    Lexeme.endsHere_indented others ends⟩ operator rest
  rw [Lexeme.spaced, List.append_assoc]

/-! ## Colours -/

namespace Color

/-- The colour of three numbers or four: red, green, blue and perhaps alpha. -/
def ofNumbers? : List Int → Option Color
  | [red, green, blue] => some ⟨channel red, channel green, channel blue, .one⟩
  | [red, green, blue, alpha] => some ⟨channel red, channel green, channel blue, channel alpha⟩
  | _ => none

def InScale (number : Int) : Prop := 0 ≤ number ∧ number ≤ channelScale

theorem InScale.readsBack {number : Int} (inside : InScale number) : Lexeme.ReadsBack number := by
  have small : (channelScale : Int) ≤ Lexeme.largestNumber := by decide
  exact Lexeme.readsBack_of_le inside.1 (Int.le_trans inside.2 small)

theorem channelNumber_channel {number : Int} (inside : InScale number) :
    channelNumber (channel number) = .ok number := by
  have each : ∀ number : Fin (channelScale + 1),
      channelNumber (channel (number.val : Int)) = .ok (number.val : Int) := by decide +kernel
  obtain ⟨magnitude, rfl⟩ := Int.eq_ofNat_of_zero_le inside.1
  exact each ⟨magnitude, Nat.lt_succ_of_le (Int.ofNat_le.mp inside.2)⟩

theorem channel_full : channel channelScale = .one := by decide +kernel

theorem ofNumbers?_eq_some {numbers : List Int} {color : Color} (named : ofNumbers? numbers = some color)
    (each : ∀ number ∈ numbers, InScale number) :
    ∃ red green blue alpha, InScale red ∧ InScale green ∧ InScale blue ∧ InScale alpha ∧
      color = ⟨channel red, channel green, channel blue, channel alpha⟩ := by
  unfold ofNumbers? at named
  split at named
  · next red green blue =>
    cases named
    refine ⟨red, green, blue, channelScale, ?_, ?_, ?_, ⟨by decide, Int.le_refl _⟩, by rw [channel_full]⟩
    all_goals apply each; simp
  · next red green blue alpha =>
    cases named
    refine ⟨red, green, blue, alpha, ?_, ?_, ?_, ?_, rfl⟩
    all_goals apply each; simp
  · cases named

theorem presentation_ofNumbers {numbers : List Int} {color : Color} (named : ofNumbers? numbers = some color)
    (each : ∀ number ∈ numbers, InScale number) (alwaysShowAlpha : Bool) :
    ∃ new shown, color.presentation alwaysShowAlpha = .ok new ∧ new.toList = Lexeme.spaced shown ∧
      ofNumbers? shown = some color ∧ ∀ number ∈ shown, InScale number := by
  obtain ⟨red, green, blue, alpha, inRed, inGreen, inBlue, inAlpha, rfl⟩ := ofNumbers?_eq_some named each
  have blank : (toString " ").toList = [' '] := rfl
  simp only [presentation, channelNumber_channel inRed, channelNumber_channel inGreen, channelNumber_channel inBlue,
    channelNumber_channel inAlpha]
  by_cases shown : (alwaysShowAlpha || alpha != channelScale) = true
  · refine ⟨_, [red, green, blue, alpha], rfl, ?_, rfl, ?_⟩
    · simp [shown, Lexeme.spaced, Lexeme.indented, blank]
    · simp [inRed, inGreen, inBlue, inAlpha]
  · -- Only a full alpha is left out.
    have full : alpha = channelScale := by
      simp only [Bool.or_eq_true, bne_iff_ne, not_or, ne_eq, not_not] at shown
      exact shown.2
    refine ⟨_, [red, green, blue], rfl, ?_, by rw [full, channel_full]; rfl, ?_⟩
    · simp [shown, Lexeme.spaced, Lexeme.indented, blank]
    · simp [inRed, inGreen, inBlue]

end Color

namespace Rule

def paint? : List (Token Int) → Option ColorMark
  | [red, green, blue] => colorMark? [red, green, blue] none
  | [red, green, blue, alpha] => colorMark? [red, green, blue] (some alpha)
  | _ => none

theorem paint?_color (tokens : List (Token Int)) :
    (paint? tokens).map ColorMark.color = Color.ofNumbers? (tokens.map Token.value) := by
  rcases tokens with _ | ⟨red, _ | ⟨green, _ | ⟨blue, _ | ⟨alpha, _ | ⟨fifth, others⟩⟩⟩⟩⟩ <;> rfl

theorem paint?_range {tokens : List (Token Int)} {mark : ColorMark} (painted : paint? tokens = some mark) :
    ∃ first final, tokens.head? = some first ∧ tokens.getLast? = some final ∧
      mark.range = ⟨first.range.start, final.range.stop⟩ := by
  unfold paint? at painted
  split at painted
  · next red green blue =>
    cases painted
    exact ⟨red, blue, rfl, rfl, rfl⟩
  · next red green blue alpha =>
    cases painted
    exact ⟨red, alpha, rfl, rfl, rfl⟩
  · cases painted

/-- A cursor stands before the numbers of a colour, with nothing but ignored text behind them. -/
structure Paints (limits : Limits) (cursor : Cursor) (tokens : List (Token Int)) (last : Cursor) : Prop where
  numbers : cursor.Numbers tokens last
  colored : (paint? tokens).isSome = true
  inside : ∀ token ∈ tokens, limits.spans token.value = true
  ignorable : Ignorable last.rest

section
variable {limits : Limits} {keyword : String} {cursor last : Cursor} {tokens : List (Token Int)}

theorem readChannels_eq_iff {count : Nat} :
    readChannels limits keyword count cursor = ([], some tokens, last) ↔
      cursor.Numbers tokens last ∧ tokens.length = count ∧ ∀ token ∈ tokens, limits.spans token.value = true := by
  induction count generalizing cursor tokens with
  | zero =>
    constructor
    · rintro ⟨⟩
      exact ⟨.done, rfl, nofun⟩
    · rintro ⟨numbers, count, -⟩
      obtain rfl := List.length_eq_zero_iff.mp count
      cases numbers
      rfl
  | succ count ih =>
    constructor
    · intro done
      rcases found : cursor.readNumber with ⟨number?, next⟩
      rcases later : readChannels limits keyword count next with ⟨findings, channels?, behind⟩
      cases number? with
      | none => simp [readChannels, found] at done
      | some number =>
        cases within : limits.spans number.value with
        | false => simp [readChannels, found, later, within] at done
        | true =>
          simp only [readChannels, found, later, within, if_true, Prod.mk.injEq, Option.map_eq_some_iff] at done
          obtain ⟨rfl, ⟨others, rfl, rfl⟩, rfl⟩ := done
          obtain ⟨numbers, rfl, inside⟩ := ih.mp later
          exact ⟨.next found numbers, rfl, List.forall_mem_cons.mpr ⟨within, inside⟩⟩
    · rintro ⟨numbers, length, inside⟩
      cases numbers with
      | done => cases length
      | next found numbers =>
        obtain ⟨within, inside⟩ := List.forall_mem_cons.mp inside
        have later := ih.mpr ⟨numbers, Nat.succ.inj length, inside⟩
        simp only [readChannels, found, later, within, if_true, Option.map_some]

theorem readColor_of_alpha {channels : List (Token Int)} {middle : Cursor} {alpha? : Option (Token Int)}
    (equal : (readEquality keyword cursor).1 = [])
    (read : readChannels limits keyword 3 (readEquality keyword cursor).2 = ([], some channels, middle))
    (found : middle.readNumber = (alpha?, last)) (inside : ∀ alpha ∈ alpha?, limits.spans alpha.value = true)
    (ignorable : Ignorable last.rest) :
    readColor limits keyword cursor = { findings := [], cursor := last, color := colorMark? channels alpha? } := by
  have good : (alpha?.filter fun alpha => limits.spans alpha.value) = alpha? := by
    cases alpha? with
    | none => rfl
    | some alpha => simp [inside alpha rfl]
  have bad : (alpha?.filter fun alpha => !limits.spans alpha.value) = none := by
    cases alpha? with
    | none => rfl
    | some alpha => simp [inside alpha rfl]
  simp [readColor, equal, read, found, good, bad, finish_of_ignorable [] ignorable]

theorem readColor_of_paints (equal : (readEquality keyword cursor).1 = [])
    (paints : Paints limits (readEquality keyword cursor).2 tokens last) :
    readColor limits keyword cursor = { findings := [], cursor := last, color := paint? tokens } := by
  obtain ⟨numbers, colored, inside, ignorable⟩ := paints
  unfold paint? at colored
  split at colored
  · next red green blue =>
    -- What is ignored holds no number, so no alpha is read.
    exact readColor_of_alpha equal (readChannels_eq_iff.mpr ⟨numbers, rfl, inside⟩)
      (Cursor.readNumber_of_ignorable ignorable) nofun ignorable
  · next red green blue alpha =>
    have split : [red, green, blue, alpha] = [red, green, blue] ++ [alpha] := rfl
    rw [split, Cursor.numbers_append_iff] at numbers
    rw [split, List.forall_mem_append, List.forall_mem_singleton] at inside
    obtain ⟨middle, first, second⟩ := numbers
    cases second with
    | next found rest =>
      cases rest
      refine readColor_of_alpha equal (readChannels_eq_iff.mpr ⟨first, rfl, inside.1⟩) found ?_ ignorable
      rintro _ ⟨⟩
      exact inside.2
  · cases colored

theorem paints_of_clean (clean : (readColor limits keyword cursor).findings = []) :
    (readEquality keyword cursor).1 = [] ∧
      ∃ tokens last, Paints limits (readEquality keyword cursor).2 tokens last := by
  rcases equality : readEquality keyword cursor with ⟨findings, start⟩
  rcases channels : readChannels limits keyword 3 start with ⟨own, channels?, middle⟩
  have complete := channels_of_clean limits keyword 3 start
  rcases alpha : middle.readNumber with ⟨alpha?, last⟩
  rw [channels] at complete
  cases channels? with
  | none =>
    simp only [readColor, equality, channels, List.append_eq_nil_iff] at clean
    cases complete clean.2
  | some found =>
    simp only [readColor, equality, channels, alpha, finish_eq_nil_iff, List.append_eq_nil_iff] at clean
    obtain ⟨⟨⟨rfl, rfl⟩, late⟩, ignorable⟩ := clean
    obtain ⟨numbers, three, inside⟩ := readChannels_eq_iff.mp channels
    obtain ⟨red, green, blue, rfl⟩ := List.length_eq_three.mp three
    refine ⟨rfl, ?_⟩
    cases alpha? with
    | none =>
      obtain ⟨rfl, -⟩ := Cursor.read_eq_none Lexeme.captures_number alpha
      exact ⟨_, last, numbers, rfl, inside, ignorable⟩
    | some token =>
      refine ⟨[red, green, blue] ++ [token], last, Cursor.numbers_append_iff.mpr ⟨middle, numbers, .next alpha .done⟩,
        rfl, List.forall_mem_append.mpr ⟨inside, List.forall_mem_singleton.mpr ?_⟩, ignorable⟩
      simpa using late

theorem paint?_start {token : Token Int} {mark : ColorMark} (painted : paint? (token :: tokens) = some mark) :
    mark.range.start = token.range.start := by
  obtain ⟨first, final, head, -, range⟩ := paint?_range painted
  rw [range, Option.some.inj head]

theorem readColor_spaced {lead blanks after : List Char} {shown : List Int} {color : Color}
    (named : Color.ofNumbers? shown = some color)
    (inside : ∀ number ∈ shown, limits.spans number = true) (plain : ∀ number ∈ shown, Lexeme.ReadsBack number)
    (split : cursor.rest = lead ++ (blanks ++ (Lexeme.spaced shown ++ after)))
    (equality : Equality cursor.rest (blanks ++ (Lexeme.spaced shown ++ after))) (all : ∀ c ∈ blanks, isBlank c = true)
    (ends : endsHere after = true) (ignorable : Ignorable after) :
    ∃ last mark, readColor limits keyword cursor = { findings := [], cursor := last, color := some mark } ∧
      mark.color = color ∧ mark.range.start = ⟨cursor.row, (cursor.column + (lead ++ blanks).length : Nat)⟩ := by
  cases shown with
  | nil => cases named
  | cons number others =>
    obtain ⟨equal, rest⟩ := equality.readOperator (no_operator_spaced plain all ends)
    obtain ⟨token, tokens, last, numbers, values, rfl, start⟩ := Cursor.numbers_spaced plain rest all ends
    obtain ⟨row, line⟩ := cursor.readOperator_stays
    have column := Cursor.column_of_rest line (split.trans (by rw [rest])) numbers.rest_ne_nil
    have colored : (paint? (token :: tokens)).map ColorMark.color = some color := by
      rw [paint?_color, values, named]
    obtain ⟨mark, painted, rfl⟩ := Option.map_eq_some_iff.mp colored
    have paints : Paints limits (readEquality keyword cursor).2 (token :: tokens) last := by
      rw [readEquality_cursor]
      refine ⟨numbers, by rw [painted]; rfl, ?_, ignorable⟩
      intro each member
      exact inside _ (values ▸ List.mem_map_of_mem member)
    refine ⟨last, mark, ?_, rfl, ?_⟩
    · rw [readColor_of_paints (readEquality_clean_iff.mpr equal) paints, painted]
    · rw [paint?_start painted, start, row, column, List.length_append, Nat.add_assoc]

/-- A clean rule with a colour keeps a place for it: numbers there with one blank between them, of any colour, leave
the rule clean, and the new colour starts where the old one did. -/
theorem replace_color (clean : (readColor limits keyword cursor).findings = []) {mark : ColorMark}
    (colored : (readColor limits keyword cursor).color = some mark) :
    ∃ numbers front chars after, Color.ofNumbers? numbers = some mark.color ∧
      (∀ number ∈ numbers, limits.spans number = true) ∧ cursor.Slot mark.range front chars after ∧
      ∀ (shown : List Int) (color : Color) (other : Cursor), Color.ofNumbers? shown = some color →
        (∀ number ∈ shown, limits.spans number = true) → (∀ number ∈ shown, Lexeme.ReadsBack number) →
        other.rest = front ++ (Lexeme.spaced shown ++ after) →
        ∃ last new, readColor limits keyword other = { findings := [], cursor := last, color := some new } ∧
          new.color = color ∧ new.range.start = ⟨other.row, (other.column + front.length : Nat)⟩ := by
  obtain ⟨equal, tokens, last, paints⟩ := paints_of_clean clean
  rw [readColor_of_paints equal paints] at colored
  have painted : paint? tokens = some mark := colored
  obtain ⟨first, final, head, tail, range⟩ := paint?_range painted
  obtain ⟨blanks, chars, slot, all⟩ := paints.numbers.slot head tail
  rw [← range, readEquality_cursor] at slot
  obtain ⟨lead, slot', -, equality⟩ := slot.behind_operator
  refine ⟨tokens.map Token.value, lead ++ blanks, chars, last.rest, ?_, ?_, slot', ?_⟩
  · rw [← paint?_color, painted]
    rfl
  · intro number member
    obtain ⟨token, inside, rfl⟩ := List.mem_map.mp member
    exact paints.inside token inside
  · intro shown color other named inside plain rest
    rw [List.append_assoc] at rest
    have still := equality (readEquality_clean_iff.mp equal) (Lexeme.spaced shown)
    rw [← rest] at still
    exact readColor_spaced named inside plain rest still all slot.ends paints.ignorable

end

theorem read_color (settings : Settings) {reference : Reference} {keyword : String} {limits : Limits}
    (found : reference.limits.get? keyword = some limits) (head : Range) (cursor : Cursor) (block : Block) :
    read settings reference .color keyword head cursor block = .ok (readColor limits keyword cursor, block) := by
  simp only [read, Reference.limitsOf, found]
  rfl

end Rule

namespace Line

/-- The text that presents the colour of a clean line, in the place of the colour, leaves a clean line of the same
colour; the colour starts at the same column. -/
theorem presentation_reads_back (settings : Settings) (reference : Reference) (row : Int) (text : List Char)
    (block next : Block) (line : Line)
    (done : Line.read settings reference row text block = .ok (line, next)) (clean : line.findings = [])
    (mark : ColorMark) (colored : line.color = some mark) (name : String) (place : Range)
    (keyword : line.keyword = some ⟨name, place, some .color⟩) (extras : List Int)
    (limits : reference.limits.get? name = some ⟨0, 255, extras⟩) (alwaysShowAlpha : Bool) :
    ∃ new repainted mark', mark.color.presentation alwaysShowAlpha = .ok new ∧
      Line.read settings reference row (mark.range.replace text new.toList) block = .ok (repainted, next) ∧
      repainted.findings = [] ∧ repainted.color = some mark' ∧ mark'.color = mark.color ∧
      mark'.range.start = mark.range.start := by
  obtain ⟨unbroken, ⟨nothing, -⟩ | ⟨word, cursor, kind, outcome, found, known, rule, rfl⟩⟩ :=
    read_eq_ok_iff_dispatch.mp done
  · obtain ⟨head, known⟩ := read_known done keyword
    rw [headKind?, head, Option.bind_some, known] at nothing
    cases nothing
  · cases keyword
    rw [Rule.read_color settings limits] at rule
    cases rule
    obtain ⟨numbers, front, chars, after, named, inside, slot, others⟩ := Rule.replace_color clean colored
    have scaled : ∀ number ∈ numbers, Color.InScale number :=
      fun number member => Rule.spans_iff.mp (inside number member)
    obtain ⟨new, shown, presented, spelled, named', scaled'⟩ :=
      Color.presentation_ofNumbers named scaled alwaysShowAlpha
    -- The keyword is the same, and its rule reads the numbers that the text spells.
    obtain ⟨again, behind, head, same, rest, start⟩ := head?_replace found slot new.toList
    rw [spelled] at rest
    have plain : ∀ number ∈ shown, Lexeme.ReadsBack number := fun number member => (scaled' number member).readsBack
    obtain ⟨last, mark', read, recolored, start'⟩ := others shown mark.color behind named'
      (fun number member => Rule.spans_iff.mpr (scaled' number member)) plain rest
    have rule : Rule.read settings reference .color again.value again.range behind block =
        .ok ({ findings := [], cursor := last, color := some mark' }, block) := by
      rw [same, Rule.read_color settings limits, read]
    have unbroken' : ∀ c ∈ new.toList, Text.isBreak c = false := spelled ▸ Lexeme.unbroken_spaced plain
    have visible : new.toList ≠ [] := spelled ▸ Lexeme.spaced_ne_nil plain (by rintro rfl; cases named')
    exact ⟨new, _, mark', presented, read_eq_ok_iff_dispatch.mpr ⟨mark.range.unbroken_replace unbroken unbroken',
      .inr ⟨again, behind, .color, _, head, same ▸ known, rule, rfl⟩⟩, rfl, rfl, recolored,
      start'.trans (start visible).symm⟩

theorem signed_color_reads_back :
    ∃ line mark, Line.read {} Bundled.reference 2 "SetTextColor = +007 0 -0 255 # red".toList {} = .ok (line, {}) ∧
      line.findings = [] ∧ line.color = some mark ∧
      ∃ repainted mark', Line.read {} Bundled.reference 2 "SetTextColor = 7 0 0 # red".toList {} = .ok (repainted, {}) ∧
        repainted.findings = [] ∧ repainted.color = some mark' ∧ mark'.color = mark.color ∧
        mark'.range.start = mark.range.start := by
  have done : Line.read {} Bundled.reference 2 "SetTextColor = +007 0 -0 255 # red".toList {} =
      .ok ({ row := 2, range := ⟨⟨2, 0⟩, ⟨2, 34⟩⟩
             color := some ⟨⟨Color.channel 7, Color.channel 0, Color.channel 0, Color.channel 255⟩, ⟨⟨2, 15⟩, ⟨2, 28⟩⟩⟩
             keyword := some ⟨"SetTextColor", ⟨⟨2, 0⟩, ⟨2, 12⟩⟩, some .color⟩ }, {}) := by decide +kernel
  have shown : (⟨Color.channel 7, Color.channel 0, Color.channel 0, Color.channel 255⟩ : Color).presentation false =
      .ok "7 0 0" := by decide +kernel
  obtain ⟨new, repainted, mark', presented, read, clean, colored, same, start⟩ :=
    presentation_reads_back {} Bundled.reference 2 _ {} {} _ done rfl _ rfl _ _ rfl [] rfl false
  cases shown.symm.trans presented
  exact ⟨_, _, done, rfl, rfl, repainted, mark', read, clean, colored, same, start⟩

end Line

end LootFilter
