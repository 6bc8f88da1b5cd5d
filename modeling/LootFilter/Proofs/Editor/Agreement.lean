import LootFilter.Editor.Stretch
import LootFilter.Proofs.Scanner.Exclusion
import LootFilter.Proofs.Scanner.Extent

/-! The editor and the scanner see a line the same way. The editor finds the keyword and the values of a line by
position alone; where the scanner reads a keyword and strings behind it, both find the same words in the same places. -/

set_option autoImplicit false

namespace LootFilter

open Text (isBlank endsHere)

/-! ## Keywords -/

namespace Head

theorem ofLine?_eq (row : Int) (line : List Char) :
    ofLine? row line = (Lexeme.run? Char.isAlpha (Text.trimStart line)).bind fun word =>
      if endsHere ((Text.trimStart line).drop word.length) then
        some ⟨String.ofList word,
          Range.onLine row (Text.blanksBefore line) (Text.blanksBefore line + word.length : Nat),
          ⟨(Text.blanksBefore line + word.length : Nat), (Text.trimStart line).drop word.length⟩⟩
      else none := by
  simp only [ofLine?, Lexeme.run?]
  cases (Text.trimStart line).takeWhile Char.isAlpha with
  | nil => rfl
  | cons c rest => rfl

theorem alpha_not_blank {c : Char} (alpha : c.isAlpha = true) : isBlank c = false :=
  Lexeme.letter_not_blank (by simp [Lexeme.isLetter, alpha])

theorem ofLine?_eq_some_iff {row : Int} {line : List Char} {head : Head} :
    ofLine? row line = some head ↔
      ∃ blanks chars rest, line = blanks ++ (chars ++ rest) ∧ (∀ c ∈ blanks, isBlank c = true) ∧ chars ≠ [] ∧
        (∀ c ∈ chars, c.isAlpha = true) ∧ endsHere rest = true ∧
        head = ⟨String.ofList chars, Range.onLine row blanks.length (blanks.length + chars.length : Nat),
          ⟨(blanks.length + chars.length : Nat), rest⟩⟩ := by
  rw [ofLine?_eq]
  constructor
  · intro found
    obtain ⟨chars, run, found⟩ := Option.bind_eq_some_iff.mp found
    obtain ⟨some_chars, all, head⟩ := Lexeme.run?_eq_some run
    split at found
    · next ends =>
      cases found
      refine ⟨line.takeWhile isBlank, chars, _, ?_, ?_, some_chars, all, ends, rfl⟩
      · rw [List.prefix_iff_eq_append.mp head, Text.blanks_append_trimStart]
      · exact fun c member => List.all_eq_true.mp List.all_takeWhile c member
    · cases found
  · rintro ⟨blanks, chars, rest, rfl, blank, some_chars, all, ends, rfl⟩
    have plain : Text.startsPlain (chars ++ rest) = true := by
      obtain ⟨c, others, rfl, visible⟩ := Lexeme.head_plain (fun _ => alpha_not_blank) some_chars all
      simp [Text.startsPlain, visible]
    rw [Text.trimStart_append blank plain, Text.blanksBefore_append blank plain,
      Lexeme.run?_append (fun _ => alpha_not_blank) some_chars all ends, Option.bind_some, List.drop_left, if_pos ends]

end Head

/-! ## Values -/

namespace Stretch

theorem skipBlanks_eq {column : Int} {blanks text : List Char} (all : ∀ c ∈ blanks, isBlank c = true)
    (plain : Text.startsPlain text = true) :
    skipBlanks ⟨column, blanks ++ text⟩ = ⟨column + blanks.length, text⟩ := by
  simp only [skipBlanks, drop, Text.blanksBefore_append all plain, List.drop_left]

theorem skipBlanks_skipBlanks (stretch : Stretch) : stretch.skipBlanks.skipBlanks = stretch.skipBlanks := by
  have nothing : Text.blanksBefore stretch.skipBlanks.chars = 0 := by
    change Text.blanksBefore (stretch.chars.drop _) = 0
    rw [Text.drop_blanksBefore, Text.blanksBefore_trimStart]
  rw [skipBlanks, nothing]
  simp [drop]

theorem nextValue?_skipBlanks (row : Int) (stretch : Stretch) :
    stretch.skipBlanks.nextValue? row = stretch.nextValue? row := by
  rw [nextValue?, nextValue?, skipBlanks_skipBlanks]

theorem valuesUpTo_skipBlanks (count : Nat) (row : Int) (stretch : Stretch) :
    valuesUpTo count row stretch.skipBlanks = valuesUpTo count row stretch := by
  cases count with
  | zero => rfl
  | succ count => rw [valuesUpTo, valuesUpTo, nextValue?_skipBlanks]

theorem valueAtUpTo_skipBlanks (count : Nat) (position : Position) (stretch : Stretch) :
    valueAtUpTo count position stretch.skipBlanks = valueAtUpTo count position stretch := by
  cases count with
  | zero => rfl
  | succ count => rw [valueAtUpTo, valueAtUpTo, nextValue?_skipBlanks]

theorem bare_no_quote {chars : List Char} (all : ∀ c ∈ chars, Lexeme.isBare c = true) : '"' ∉ chars :=
  fun quote => absurd (all '"' quote) (by decide)

theorem valueLength_string {chars rest : List Char} {value : String} (shaped : Shape.string chars value)
    (ends : endsHere rest = true) : valueLength (chars ++ rest) = chars.length := by
  obtain ⟨inner, rfl, closed, -⟩ | ⟨some_chars, all, -⟩ := shaped
  · have whole : '"' :: inner ++ ['"'] ++ rest = '"' :: (inner ++ '"' :: rest) := by simp
    rw [whole, valueLength, Lexeme.takeWhile_quote closed]
    simp
  · have visible : ∀ c ∈ chars, (!isBlank c) = true := fun c member => by simp [Lexeme.bare_not_blank (all c member)]
    have run := Lexeme.run?_append (fun c plain => by simpa using plain) some_chars visible ends
    have taken : (chars ++ rest).takeWhile (!isBlank ·) = chars := by
      unfold Lexeme.run? at run
      split at run
      · cases run
      · exact Option.some.inj run
    unfold valueLength
    split
    · next tail same =>
      obtain ⟨c, others, rfl⟩ := List.exists_cons_of_ne_nil some_chars
      obtain rfl : c = '"' := (List.cons.inj same).1
      exact absurd List.mem_cons_self (bare_no_quote all)
    · rw [taken]

theorem unquote_string {chars : List Char} {value : String} (shaped : Shape.string chars value) :
    unquote chars = value.toList := by
  obtain ⟨inner, rfl, closed, rfl⟩ | ⟨some_chars, all, rfl⟩ := shaped
  · simp [unquote]
  · unfold unquote
    extract_lets opened
    have same : opened = chars := by
      unfold opened
      split
      · exact absurd List.mem_cons_self (bare_no_quote all)
      · rfl
    have last : opened.getLast? ≠ some '"' := by
      rw [same]
      exact fun quote => bare_no_quote all (List.mem_of_getLast? quote)
    rw [if_neg last, same, String.toList_ofList]

end Stretch

namespace Cursor

def stretch (cursor : Cursor) : Stretch := ⟨cursor.column, cursor.rest⟩

section
variable {cursor next : Cursor} {token : Token String}

theorem skipBlanks_stretch {blanks text : List Char} (split : cursor.rest = blanks ++ text)
    (all : ∀ c ∈ blanks, isBlank c = true) (plain : Text.startsPlain text = true) :
    cursor.stretch.skipBlanks = ⟨(cursor.column + blanks.length : Nat), text⟩ := by
  rw [stretch, split, Stretch.skipBlanks_eq all plain]
  rfl

theorem nextValue?_stretch (found : cursor.readString = (some token, next)) :
    cursor.stretch.nextValue? cursor.row = some (token.range, next.stretch) := by
  obtain ⟨blanks, chars, split, all, shaped, ends, range, same⟩ := read_extent Lexeme.captures_string found
  have plain := Lexeme.captures_string.startsPlain shaped next.rest
  have length := Stretch.valueLength_string shaped ends
  let start : Stretch := ⟨(cursor.column + blanks.length : Nat), chars ++ next.rest⟩
  have behind : start.drop (Stretch.valueLength start.chars) = next.stretch := by
    rw [length, stretch, Stretch.drop, List.drop_left, same]
    rfl
  obtain ⟨c, tail, rfl⟩ := List.exists_cons_of_ne_nil (Shape.trimmed_string shaped).ne_nil
  rw [Stretch.nextValue?, skipBlanks_stretch split all plain]
  change some (Range.onLine _ _ (start.drop (Stretch.valueLength start.chars)).column,
    start.drop (Stretch.valueLength start.chars)) = _
  rw [behind, range, stretch, same]

theorem skipEquality_stretch (equal : ∀ operator, cursor.readOperator.1 = some operator → operator.value = .equal)
    (found : cursor.readOperator.2.readString = (some token, next)) :
    cursor.stretch.skipEquality = some cursor.readOperator.2.stretch.skipBlanks := by
  obtain ⟨blanks, chars, split, all, shaped, -, -, -⟩ := read_extent Lexeme.captures_string found
  have plain := Lexeme.captures_string.startsPlain shaped next.rest
  have start := skipBlanks_stretch split all plain
  obtain ⟨c, tail, rfl⟩ := List.exists_cons_of_ne_nil (Shape.trimmed_string shaped).ne_nil
  -- Without an operator the first string follows at once, and no string starts with a sign.
  have apart : c ≠ '=' := (operandlike_string shaped).1
  rcases result : cursor.readOperator with ⟨operator?, after⟩
  rw [result] at start equal
  cases operator? with
  | none =>
    obtain ⟨rfl, -⟩ := read_eq_none Lexeme.captures_operator result
    rw [Stretch.skipEquality, start]
    simp only [List.cons_append]
    split
    · next nothing => cases nothing
    · next rest sign => exact absurd (List.cons.inj sign).1 apart
    · rfl
  | some operator =>
    obtain ⟨before, sign, split', all', shaped', -, -, same⟩ := read_extent Lexeme.captures_operator result
    rw [equal operator rfl] at shaped'
    obtain rfl : sign = ['='] := shaped'
    have behind : Stretch.drop ⟨(cursor.column + before.length : Nat), ['='] ++ after.rest⟩ 1 = after.stretch := by
      rw [stretch, same]
      rfl
    rw [Stretch.skipEquality, skipBlanks_stretch split' all' rfl]
    change Stretch.skipAfter (· == '=') (Stretch.drop ⟨_, ['='] ++ after.rest⟩ 1) = _
    rw [behind, Stretch.skipAfter, start]
    simp [apart]

/-! ### Strings in a row -/

inductive Yields : Cursor → List (Token String) → Prop where
  | done {cursor : Cursor} : Yields cursor []
  | next {cursor next : Cursor} {token : Token String} {tokens : List (Token String)} :
      cursor.readString = (some token, next) → Yields next tokens → Yields cursor (token :: tokens)

theorem yields_readStringsUpTo (count : Nat) (cursor : Cursor) : cursor.Yields (cursor.readStringsUpTo count).1 := by
  induction count generalizing cursor with
  | zero => exact .done
  | succ count ih =>
    rcases found : cursor.readString with ⟨token?, next⟩
    simp only [readStringsUpTo, found]
    cases token? with
    | none => exact .done
    | some token => exact .next found (ih next)

theorem yields_readStrings (cursor : Cursor) : cursor.Yields cursor.readStrings.1 :=
  yields_readStringsUpTo cursor.rest.length cursor

theorem Yields.first {tokens : List (Token String)} (yields : cursor.Yields tokens) (some_strings : tokens ≠ []) :
    ∃ token others next, tokens = token :: others ∧ cursor.readString = (some token, next) := by
  cases yields with
  | done => exact absurd rfl some_strings
  | next found _ => exact ⟨_, _, _, rfl, found⟩

theorem Yields.length_le {tokens : List (Token String)} (yields : cursor.Yields tokens) :
    tokens.length ≤ (Text.trimStart cursor.rest).length := by
  induction yields with
  | done => exact Nat.zero_le _
  | @next cursor next token tokens found _ ih =>
    obtain ⟨blanks, chars, split, all, shaped, -, -, -⟩ := read_extent Lexeme.captures_string found
    have some_chars := List.length_pos_iff.mpr (Shape.trimmed_string shaped).ne_nil
    have shorter : (Text.trimStart next.rest).length ≤ next.rest.length := (List.dropWhile_sublist isBlank).length_le
    rw [split, Text.trimStart_append all (Lexeme.captures_string.startsPlain shaped next.rest)]
    simp only [List.length_cons, List.length_append]
    omega

theorem Yields.behind {tokens : List (Token String)} (yields : cursor.Yields tokens)
    (ends : endsHere cursor.rest = true) : ∀ token ∈ tokens, (cursor.column : Int) < token.range.start.character := by
  induction yields with
  | done => nofun
  | @next cursor next first tokens found _ ih =>
    obtain ⟨blanks, chars, split, -, shaped, ends', range, same⟩ := read_extent Lexeme.captures_string found
    have column : next.column = cursor.column + blanks.length + chars.length := by rw [same]
    intro token member
    obtain rfl | later := List.mem_cons.mp member
    · have some_blank : blanks ≠ [] := by
        rintro rfl
        obtain ⟨c, others, rfl, plain⟩ := Lexeme.captures_string.visible shaped
        rw [split] at ends
        exact absurd ends (by simp [endsHere, plain])
      have := List.length_pos_iff.mpr some_blank
      rw [range]
      simp only [Range.onLine]
      omega
    · have := ih ends' token later
      omega

theorem Yields.values {tokens : List (Token String)} (yields : cursor.Yields tokens) {bound : Nat}
    (enough : tokens.length ≤ bound) :
    (Stretch.valuesUpTo bound cursor.row cursor.stretch).take tokens.length = tokens.map Token.range := by
  induction yields generalizing bound with
  | done => simp
  | @next cursor next token tokens found _ ih =>
    have row : next.row = cursor.row := by rw [(read_eq_some Lexeme.captures_string found).2.1]
    rw [List.length_cons] at enough
    obtain ⟨bound, rfl⟩ := Nat.exists_eq_add_one_of_ne_zero (show bound ≠ 0 by omega)
    have later : (Stretch.valuesUpTo bound next.row next.stretch).take tokens.length = _ := ih (by omega)
    rw [row] at later
    rw [Stretch.valuesUpTo, nextValue?_stretch found]
    simp only [List.length_cons, List.take_succ_cons, List.map_cons, later]

theorem Yields.valueAt {tokens : List (Token String)} (yields : cursor.Yields tokens) {bound : Nat}
    (enough : tokens.length ≤ bound) (member : token ∈ tokens) {column : Int}
    (behind : token.range.start.character ≤ column) (before : column ≤ token.range.stop.character) :
    Stretch.valueAtUpTo bound ⟨cursor.row, column⟩ cursor.stretch = some token.range := by
  induction yields generalizing bound with
  | done => cases member
  | @next cursor next first tokens found yields ih =>
    obtain ⟨blanks, chars, -, -, shaped, ends, range, same⟩ := read_extent Lexeme.captures_string found
    have row : next.row = cursor.row := by rw [same]
    have stop : next.column = cursor.column + blanks.length + chars.length := by rw [same]
    rw [List.length_cons] at enough
    obtain ⟨bound, rfl⟩ := Nat.exists_eq_add_one_of_ne_zero (show bound ≠ 0 by omega)
    rw [Stretch.valueAtUpTo, nextValue?_stretch found]
    obtain rfl | later := List.mem_cons.mp member
    · have touched : Stretch.touches token.range ⟨cursor.row, column⟩ = true := by
        have here : token.range.start.line = cursor.row := by rw [range]; rfl
        simp only [Stretch.touches, here, beq_self_eq_true, Bool.true_and, Bool.and_eq_true, decide_eq_true_eq]
        exact ⟨behind, before⟩
      simp only [touched, if_true]
    · -- A later string starts behind a blank, so the position does not touch the first one.
      have apart := yields.behind ends token later
      have missed : Stretch.touches first.range ⟨cursor.row, column⟩ = false := by
        have beyond : ¬column ≤ (cursor.column + blanks.length + chars.length : Nat) := by omega
        rw [range]
        simp only [Stretch.touches, Range.onLine, beyond, decide_false, Bool.and_false]
      have reached : ¬column < first.range.start.character := by
        rw [range]
        simp only [Range.onLine]
        omega
      have rest : Stretch.valueAtUpTo bound ⟨next.row, column⟩ next.stretch = some token.range := ih (by omega) later
      rw [row] at rest
      simp only [missed, reached, Bool.false_eq_true, if_false]
      exact rest

theorem Yields.unquote {tokens : List (Token String)} (yields : cursor.Yields tokens) :
    ∀ token ∈ tokens, Stretch.unquote (token.range.textOf cursor.line) = token.value.toList := by
  induction yields with
  | done => nofun
  | @next cursor next first tokens found _ ih =>
    obtain ⟨blanks, chars, split, -, shaped, -, range, same⟩ := read_extent Lexeme.captures_string found
    intro token member
    obtain rfl | later := List.mem_cons.mp member
    · have text : token.range.textOf cursor.line = chars := by
        rw [range, Range.textOf]
        simp only [Range.onLine, Int.toNat_natCast, ← List.drop_drop]
        change List.take _ (cursor.rest.drop blanks.length) = chars
        rw [split, List.drop_left, Nat.add_sub_cancel_left, List.take_left]
      rw [text, Stretch.unquote_string shaped]
    · have line : next.line = cursor.line := by rw [same]
      rw [← line]
      exact ih token later

theorem readString_readStrings (cursor : Cursor) : cursor.readStrings.2.readString.1 = none := by
  rcases found : cursor.readStrings.2.readString with ⟨token?, next⟩
  cases token? with
  | none => rfl
  | some token =>
    exact absurd (read_eq_some Lexeme.captures_string found).1 ((strings_readStrings cursor).ended _ _)

end

end Cursor

/-! ## Agreement -/

/-- The strings of a line, as a scanner reads them, are the first values of a stretch of the line. -/
structure Stretch.Starts (values : Stretch) (row : Int) (line : List Char) (tokens : List (Token String)) : Prop where
  located : ofIndex? line values.column = some values
  first : tokens.head?.map (·.range.start.character) = some values.column
  ranges : (values.values row).take tokens.length = tokens.map Token.range
  touched : ∀ token ∈ tokens, ∀ column, token.range.start.character ≤ column → column ≤ token.range.stop.character →
    values.valueAt? ⟨row, column⟩ = some token.range
  unquoted : ∀ token ∈ tokens, unquote (token.range.textOf line) = token.value.toList

theorem Stretch.ofIndex?_natCast (line : List Char) (column : Nat) :
    ofIndex? line column = some ⟨column, line.drop column⟩ := by
  rw [ofIndex?, if_pos (by omega), Indexing.upwardFrom, if_pos (Int.natCast_nonneg column)]
  rfl

namespace Cursor

theorem readOperator_stays (cursor : Cursor) :
    cursor.readOperator.2.row = cursor.row ∧ cursor.readOperator.2.line = cursor.line := by
  rcases result : cursor.readOperator with ⟨operator?, next⟩
  cases operator? with
  | none =>
    rw [(read_eq_none Lexeme.captures_operator result).1]
    exact ⟨rfl, rfl⟩
  | some operator =>
    rw [(read_eq_some Lexeme.captures_operator result).2.1]
    exact ⟨rfl, rfl⟩

theorem ofIndex?_stretch (cursor : Cursor) : Stretch.ofIndex? cursor.line cursor.column = some cursor.stretch :=
  Stretch.ofIndex?_natCast cursor.line cursor.column

theorem starts_readStrings {cursor : Cursor} (some_strings : cursor.readStrings.1 ≠ []) :
    cursor.stretch.skipBlanks.Starts cursor.row cursor.line cursor.readStrings.1 := by
  have yields := yields_readStrings cursor
  generalize cursor.readStrings.1 = tokens at some_strings yields ⊢
  have chars : cursor.stretch.skipBlanks.chars = Text.trimStart cursor.rest := Text.drop_blanksBefore cursor.rest
  have enough := yields.length_le
  rw [← chars] at enough
  refine ⟨?_, ?_, ?_, ?_, yields.unquote⟩
  · have place : cursor.stretch.skipBlanks.column = (cursor.column + Text.blanksBefore cursor.rest : Nat) := rfl
    rw [place, Stretch.ofIndex?_natCast, ← List.drop_drop]
    rfl
  · obtain ⟨token, others, next, rfl, found⟩ := yields.first some_strings
    obtain ⟨blanks, text, split, all, shaped, -, range, -⟩ := read_extent Lexeme.captures_string found
    rw [skipBlanks_stretch split all (Lexeme.captures_string.startsPlain shaped next.rest)]
    simp only [List.head?_cons, Option.map_some, range]
    rfl
  · rw [Stretch.values, Stretch.valuesUpTo_skipBlanks]
    exact yields.values enough
  · intro token member column behind before
    rw [Stretch.valueAt?, Stretch.valueAtUpTo_skipBlanks]
    exact yields.valueAt enough member behind before

theorem starts_behind_equality {cursor : Cursor}
    (equal : ∀ operator, cursor.readOperator.1 = some operator → operator.value = .equal)
    (some_strings : cursor.readOperator.2.readStrings.1 ≠ []) :
    ∃ values, cursor.stretch.skipEquality = some values ∧
      values.Starts cursor.row cursor.line cursor.readOperator.2.readStrings.1 := by
  obtain ⟨token, others, next, -, found⟩ := (yields_readStrings _).first some_strings
  refine ⟨_, skipEquality_stretch equal found, ?_⟩
  rw [← (readOperator_stays cursor).1, ← (readOperator_stays cursor).2]
  exact starts_readStrings some_strings

end Cursor

namespace Head

theorem readWord_of_ofLine? {row : Int} {line : List Char} {head : Head} (found : ofLine? row line = some head) :
    ∃ next : Cursor, (⟨row, line, 0⟩ : Cursor).readWord = (some ⟨head.word, head.range⟩, next) ∧
      next.row = row ∧ next.line = line ∧ next.column = head.range.stop.character ∧ next.stretch = head.rest := by
  obtain ⟨blanks, chars, rest, rfl, blank, some_chars, all, ends, rfl⟩ := ofLine?_eq_some_iff.mp found
  have letters : ∀ c ∈ chars, Lexeme.isLetter c = true := fun c member => by simp [Lexeme.isLetter, all c member]
  let start : Cursor := ⟨row, blanks ++ (chars ++ rest), 0⟩
  have read : start.readWord = _ := Cursor.read_of_extent Lexeme.captures_word rfl blank ⟨some_chars, letters, rfl⟩ ends
  simp only [start, Nat.zero_add] at read
  refine ⟨_, read, rfl, rfl, rfl, ?_⟩
  rw [Cursor.stretch, Cursor.rest]
  simp only [← List.drop_drop, List.drop_left]

theorem ofLine?_of_readWord {row : Int} {line : List Char} {word : Token String} {next : Cursor}
    (found : (⟨row, line, 0⟩ : Cursor).readWord = (some word, next)) (plain : 'ö' ∉ word.value.toList) :
    ∃ head, ofLine? row line = some head ∧ head.word = word.value ∧ head.range = word.range := by
  obtain ⟨blanks, chars, split, blank, ⟨some_chars, letters, value⟩, ends, range, -⟩ :=
    Cursor.read_extent Lexeme.captures_word found
  rw [value, String.toList_ofList] at plain
  have all : ∀ c ∈ chars, c.isAlpha = true := by
    intro c member
    have letter := letters c member
    simp only [Lexeme.isLetter, Bool.or_eq_true, beq_iff_eq] at letter
    obtain alpha | rfl := letter
    · exact alpha
    · exact absurd member plain
  have head : ofLine? row line = some _ := ofLine?_eq_some_iff.mpr
    ⟨blanks, chars, next.rest, split, blank, some_chars, all, ends, rfl⟩
  refine ⟨_, head, value.symm, ?_⟩
  rw [range]
  simp only [Nat.zero_add]

/-- On every line the editor and the scanner agree. The keyword of a line is the first word that the scanner reads, as
long as it has plain letters. Where strings follow the keyword, after an equality sign or none, the editor finds these
strings, from the first one on, in the same places and with the same text. -/
theorem editor_agrees_with_scanner (row : Int) (line : List Char) (oneLine : ∀ c ∈ line, Text.isBreak c = false) :
    ∃ start, Cursor.ofLine? row line = some start ∧
      (∀ head, ofLine? row line = some head →
        ∃ next, start.readWord = (some ⟨head.word, head.range⟩, next) ∧
          next.readOperator.2.readStrings.2.readString.1 = none ∧
          Stretch.ofIndex? line head.range.stop.character = some head.rest ∧
          ((∀ operator, next.readOperator.1 = some operator → operator.value = .equal) →
            next.readOperator.2.readStrings.1 ≠ [] →
              ∃ values, head.rest.skipEquality = some values ∧
                values.Starts row line next.readOperator.2.readStrings.1)) ∧
      ∀ word next, start.readWord = (some word, next) → 'ö' ∉ word.value.toList →
        ∃ head, ofLine? row line = some head ∧ head.word = word.value ∧ head.range = word.range := by
  have unbroken : line.any Text.isBreak = false := by simpa using oneLine
  refine ⟨⟨row, line, 0⟩, by rw [Cursor.ofLine?, unbroken]; rfl, ?_, fun _ _ => ofLine?_of_readWord⟩
  intro head found
  obtain ⟨next, read, row_eq, line_eq, column, stretch⟩ := readWord_of_ofLine? found
  refine ⟨next, read, next.readOperator.2.readString_readStrings, ?_, ?_⟩
  · rw [← column, ← stretch, ← line_eq]
    exact next.ofIndex?_stretch
  · intro equal some_strings
    rw [← stretch, ← row_eq, ← line_eq]
    exact Cursor.starts_behind_equality equal some_strings

theorem values_found_behind_equality :
    ∃ head values, ofLine? 3 "\tBaseType = \"Gold Ring\" \"\" Arc <x".toList = some head ∧ head.word = "BaseType" ∧
      head.rest.skipEquality = some values ∧
      values.Starts 3 "\tBaseType = \"Gold Ring\" \"\" Arc <x".toList
        [⟨"Gold Ring", .onLine 3 12 23⟩, ⟨"", .onLine 3 24 26⟩, ⟨"Arc", .onLine 3 27 30⟩] := by
  obtain ⟨start, start_eq, agrees, -⟩ :=
    editor_agrees_with_scanner 3 "\tBaseType = \"Gold Ring\" \"\" Arc <x".toList (by simp [Text.isBreak])
  have found : ofLine? 3 "\tBaseType = \"Gold Ring\" \"\" Arc <x".toList =
      some ⟨"BaseType", .onLine 3 1 9, ⟨9, " = \"Gold Ring\" \"\" Arc <x".toList⟩⟩ := by decide +kernel
  obtain ⟨next, read, -, -, values⟩ := agrees _ found
  cases start_eq
  obtain rfl : _ = next := congrArg Prod.snd read
  obtain ⟨values, skipped, starts⟩ := values (by decide +kernel) (by decide +kernel)
  exact ⟨_, values, found, rfl, skipped, starts⟩

end Head

end LootFilter
