import LootFilter.Proofs.Scanner.Fields
import LootFilter.Proofs.Scanner.Tiling

/-! Requests to a cursor, made one after the other in any order. A request moves the cursor over blanks and one token,
up to a blank or the end of the line, or it leaves the cursor where it is. So the tokens take apart what the cursor has
passed, and a blank stands between any two of them. -/

set_option autoImplicit false

namespace LootFilter

open Text (isBlank endsHere)

theorem Text.blank_of_endsHere {text : List Char} {column : Nat} {c : Char} (ends : endsHere (text.drop column) = true)
    (found : text[column]? = some c) : isBlank c = true := by
  rw [← List.head?_drop] at found
  obtain ⟨rest, same⟩ := List.head?_eq_some_iff.mp found
  rw [same] at ends
  exact ends

inductive Request where
  | number
  | boolean
  | operator
  | word
  | string
  | comment
  deriving DecidableEq, Repr

/-- A request, by what it did: where the cursor stood, the range of the token if there was one, and where the cursor
stands now. -/
structure Call where
  before : Cursor
  found : Option Range
  after : Cursor
  deriving DecidableEq, Repr

namespace Cursor

def ask (cursor : Cursor) : Request → Option Range × Cursor
  | .number => cursor.readNumber.map (Option.map Token.range) id
  | .boolean => cursor.readBoolean.map (Option.map Token.range) id
  | .operator => cursor.readOperator.map (Option.map Token.range) id
  | .word => cursor.readWord.map (Option.map Token.range) id
  | .string => cursor.readString.map (Option.map Token.range) id
  | .comment => cursor.readComment.map (Option.map Token.range) id

def calls (cursor : Cursor) : List Request → List Call
  | [] => []
  | request :: requests =>
    ⟨cursor, (cursor.ask request).1, (cursor.ask request).2⟩ :: (cursor.ask request).2.calls requests

def afterAll (cursor : Cursor) (requests : List Request) : Cursor :=
  requests.foldl (fun cursor request => (cursor.ask request).2) cursor

def ranges (cursor : Cursor) (requests : List Request) : List Range := (cursor.calls requests).filterMap Call.found

/-! ## One request -/

/-- A cursor stays where it is, or it passes blanks and a token that ends at a blank or with the line. -/
inductive Moves (cursor : Cursor) : Option Range → Cursor → Prop where
  | stays : Moves cursor none cursor
  | passes {start stop : Nat} : cursor.column ≤ start → Text.BlankBetween cursor.line cursor.column start →
      (Range.onLine cursor.row start stop).Covers cursor.row cursor.line → endsHere (cursor.line.drop stop) = true →
      Moves cursor (some (.onLine cursor.row start stop)) { cursor with column := stop }

section
variable {α : Type} {cursor : Cursor}

theorem Takes.moves {answer : Option (Token α) × Cursor} {fits : List Char → α → Prop}
    (takes : cursor.Takes answer fits)
    (solid : ∀ chars value, fits chars value →
      Text.Visible chars ∧ ∃ rest, Text.trimStart cursor.rest = chars ++ rest ∧ endsHere rest = true) :
    cursor.Moves (answer.1.map Token.range) answer.2 := by
  rcases answer with ⟨token?, next⟩
  cases token? with
  | none =>
    obtain ⟨rfl, -⟩ := (takes.none_iff next).mp rfl
    exact .stays
  | some token =>
    obtain ⟨chars, fits, range, rfl⟩ := (takes.some_iff token next).mp rfl
    obtain ⟨visible, rest, split, ends⟩ := solid chars token.value fits
    have blank : ∀ c ∈ cursor.rest.takeWhile isBlank, isBlank c = true := fun c => List.mem_takeWhile_imp
    have whole : cursor.rest = cursor.rest.takeWhile isBlank ++ (chars ++ rest) := by
      rw [← split, Text.blanks_append_trimStart]
    have behind : (cursor.behind chars).rest = rest := by
      rw [Cursor.behind, rest_advance, split, List.drop_left]
    rw [← behind] at ends
    rw [Option.map_some, range]
    exact .passes (Nat.le_add_right _ _) (Text.blankBetween_of_rest whole blank) (covers_of_rest whole visible) ends

theorem moves_lexeme {reader : Reader α} {shape : Shape α} (captures : Captures reader shape) (trimmed : shape.Trimmed)
    (cursor : Cursor) : cursor.Moves ((cursor.read reader).1.map Token.range) (cursor.read reader).2 :=
  (takes_lexeme captures cursor).moves fun _ _ fits => ⟨trimmed fits.1, fits.2⟩

theorem moves_comment (cursor : Cursor) : cursor.Moves (cursor.readComment.1.map Token.range) cursor.readComment.2 := by
  apply cursor.takes_comment.moves
  rintro chars value ⟨-, visible, -, blanks, split, all⟩
  exact ⟨visible, blanks, split, Text.endsHere_of_all all⟩

theorem moves_ask (cursor : Cursor) (request : Request) :
    cursor.Moves (cursor.ask request).1 (cursor.ask request).2 := by
  cases request with
  | number => exact moves_lexeme Lexeme.captures_number Shape.trimmed_number cursor
  | boolean => exact moves_lexeme Lexeme.captures_boolean Shape.trimmed_boolean cursor
  | operator => exact moves_lexeme Lexeme.captures_operator Shape.trimmed_operator cursor
  | word => exact moves_lexeme Lexeme.captures_word Shape.trimmed_word cursor
  | string => exact moves_lexeme Lexeme.captures_string Shape.trimmed_string cursor
  | comment => exact cursor.moves_comment

/-! ## Requests in a row -/

theorem Moves.stays_on {next : Cursor} {range? : Option Range} (moves : cursor.Moves range? next) :
    next.row = cursor.row ∧ next.line = cursor.line := by
  cases moves with
  | stays => exact ⟨rfl, rfl⟩
  | passes => exact ⟨rfl, rfl⟩

theorem Moves.inside {next : Cursor} {range? : Option Range} (moves : cursor.Moves range? next)
    (inside : cursor.column ≤ cursor.line.length) : next.column ≤ next.line.length := by
  cases moves with
  | stays => exact inside
  | passes _ _ covers _ => exact Int.ofNat_le.mp covers.stops_inside

theorem calls_move {row : Int} {line : List Char} (requests : List Request) (cursor : Cursor)
    (row_eq : cursor.row = row) (line_eq : cursor.line = line) :
    ∀ call ∈ cursor.calls requests, call.before.row = row ∧ call.before.line = line ∧
      call.before.Moves call.found call.after := by
  induction requests generalizing cursor with
  | nil => exact List.forall_mem_nil _
  | cons request requests ih =>
    have moves := cursor.moves_ask request
    obtain ⟨same_row, same_line⟩ := moves.stays_on
    exact List.forall_mem_cons.mpr
      ⟨⟨row_eq, line_eq, moves⟩, ih _ (same_row.trans row_eq) (same_line.trans line_eq)⟩

theorem column_afterAll_le (requests : List Request) (cursor : Cursor) (inside : cursor.column ≤ cursor.line.length) :
    (cursor.afterAll requests).column ≤ cursor.line.length := by
  induction requests generalizing cursor with
  | nil => exact inside
  | cons request requests ih =>
    have moves := cursor.moves_ask request
    rw [← moves.stays_on.2]
    exact ih _ (moves.inside inside)

theorem ranges_cons (request : Request) (requests : List Request) (cursor : Cursor) :
    cursor.ranges (request :: requests) = (cursor.ask request).1.toList ++ (cursor.ask request).2.ranges requests := by
  simp only [ranges, calls, List.filterMap_cons]
  cases (cursor.ask request).1 with
  | none => rfl
  | some range => rfl

theorem tiling_ranges (requests : List Request) (cursor : Cursor) :
    Range.Tiling cursor.row cursor.line cursor.column (cursor.afterAll requests).column (cursor.ranges requests) := by
  induction requests generalizing cursor with
  | nil => exact .nil (Nat.le_refl _) fun column _ behind before => absurd before (Nat.not_lt.mpr behind)
  | cons request requests ih =>
    have moves := cursor.moves_ask request
    have rest := ih (cursor.ask request).2
    rw [ranges_cons, show cursor.afterAll (request :: requests) = (cursor.ask request).2.afterAll requests from rfl]
    generalize cursor.ask request = answer at moves rest ⊢
    obtain ⟨range?, next⟩ := answer
    cases moves with
    | stays => exact rest
    | passes later blank covers ends =>
      obtain ⟨c, found, plain⟩ := covers.first
      exact .cons later blank found plain (Int.ofNat_lt.mp covers.not_empty) rest

theorem mem_ranges {requests : List Request} {range : Range} (member : range ∈ cursor.ranges requests) :
    range.Covers cursor.row cursor.line ∧ endsHere (cursor.line.drop range.stop.character.toNat) = true := by
  obtain ⟨⟨before, range?, after⟩, member, rfl⟩ := List.mem_filterMap.mp member
  obtain ⟨row, line, moves⟩ := calls_move requests cursor rfl rfl _ member
  dsimp only at row line moves
  rw [← row, ← line]
  cases moves with
  | passes _ _ covers ends => exact ⟨covers, ends⟩

/-- A blank stands behind a token that is not the last one. -/
theorem ranges_apart (requests : List Request) (cursor : Cursor) :
    (cursor.ranges requests).Pairwise fun left right => left.stop.character < right.start.character ∧
      ∃ c, cursor.line[left.stop.character.toNat]? = some c ∧ isBlank c = true := by
  apply (cursor.tiling_ranges requests).ordered.imp_of_mem
  intro left right first second ordered
  obtain ⟨covers, ends⟩ := mem_ranges first
  obtain ⟨covers', -⟩ := mem_ranges second
  obtain ⟨c, found, plain⟩ := covers'.first
  have inside : left.stop.character.toNat < cursor.line.length := by
    have := covers'.not_empty
    have := covers'.stops_inside
    have := covers'.starts_inside
    omega
  have behind := List.getElem?_eq_getElem inside
  have blank := Text.blank_of_endsHere ends behind
  -- What stands behind the one token is blank, and the other one does not start with a blank.
  have apart : left.stop.character ≠ right.start.character := by
    intro same
    rw [← same, behind] at found
    rw [Option.some.inj found, plain] at blank
    cases blank
  exact ⟨Int.lt_iff_le_and_ne.mpr ⟨ordered, apart⟩, _, behind, blank⟩

end

/-- Requests move a cursor along its line, however many there are and in whatever order. One that finds nothing leaves
the cursor where it is. A token moves it over blanks to the end of the token, where a blank or the end of the line
follows. The tokens take the line apart up to the place where the cursor stands in the end: they come one behind the
other with a blank between any two of them, and each character that is not blank is in exactly one of them. -/
theorem requests_take_line_apart (row : Int) (text : List Char) (oneLine : ∀ c ∈ text, Text.isBreak c = false)
    (requests : List Request) :
    ∃ start, ofLine? row text = some start ∧ start.column = 0 ∧
      (∀ call ∈ start.calls requests, call.before.row = row ∧ call.before.line = text ∧
        call.before.Moves call.found call.after) ∧
      Range.Tiling row text 0 (start.afterAll requests).column (start.ranges requests) ∧
      (start.afterAll requests).column ≤ text.length ∧
      (start.ranges requests).Pairwise fun left right => left.stop.character < right.start.character ∧
        ∃ c, text[left.stop.character.toNat]? = some c ∧ isBlank c = true := by
  refine ⟨⟨row, text, 0⟩, ofLine?_of_unbroken row oneLine, rfl, ?_, ?_, ?_, ?_⟩
  · exact calls_move requests _ rfl rfl
  · exact tiling_ranges requests ⟨row, text, 0⟩
  · exact column_afterAll_le requests _ (Nat.zero_le _)
  · exact ranges_apart requests ⟨row, text, 0⟩

theorem baseType_line_taken_apart :
    ∃ start, ofLine? 4 "\tBaseType >= \"Gold Ring\" # rare  ".toList = some start ∧
      start.calls [.number, .word, .string, .operator, .string, .comment] =
        [⟨start, none, start⟩, ⟨start, some (.onLine 4 1 9), { start with column := 9 }⟩,
          ⟨{ start with column := 9 }, none, { start with column := 9 }⟩,
          ⟨{ start with column := 9 }, some (.onLine 4 10 12), { start with column := 12 }⟩,
          ⟨{ start with column := 12 }, some (.onLine 4 13 24), { start with column := 24 }⟩,
          ⟨{ start with column := 24 }, some (.onLine 4 25 31), { start with column := 31 }⟩] ∧
      Range.Tiling 4 "\tBaseType >= \"Gold Ring\" # rare  ".toList 0 31
        [.onLine 4 1 9, .onLine 4 10 12, .onLine 4 13 24, .onLine 4 25 31] := by
  obtain ⟨start, fresh, -, -, tiling, -⟩ :=
    requests_take_line_apart 4 "\tBaseType >= \"Gold Ring\" # rare  ".toList (by simp [Text.isBreak])
      [.number, .word, .string, .operator, .string, .comment]
  cases fresh
  exact ⟨_, rfl, by decide +kernel, tiling⟩

end Cursor

end LootFilter
