import LootFilter.Scanner.Lexeme
import LootFilter.Source
import LootFilter.Text.Lines

/-! A cursor on one line. Reading skips blanks, takes one lexeme of the wanted shape and moves past it; when the
line goes on with anything else the cursor stays. -/

set_option autoImplicit false

namespace LootFilter

structure Cursor where
  row : Int
  line : List Char
  column : Nat
  deriving DecidableEq, Repr

namespace Cursor

/-- The cursor before a line; there is none when the text holds a line break. -/
def ofLine? (row : Int) (line : List Char) : Option Cursor :=
  if line.any Text.isBreak then none else some ⟨row, line, 0⟩

def rest (cursor : Cursor) : List Char := cursor.line.drop cursor.column

def isSpent (cursor : Cursor) : Bool := Text.allBlank cursor.rest

def isAtComment (cursor : Cursor) : Bool := (Text.trimStart cursor.rest).head? == some '#'

/-- The game ignores what is left of the line. -/
def isIgnorable (cursor : Cursor) : Bool := cursor.isSpent || cursor.isAtComment

/-- The columns of the first character of the line that is not blank and of the one after the last. -/
def textSpan (line : List Char) : Nat × Nat :=
  match Text.trim line with
  | [] => (0, 0)
  | text => (Text.blanksBefore line, Text.blanksBefore line + text.length)

def lineRange (cursor : Cursor) : Range :=
  let span := textSpan cursor.line
  Range.onLine cursor.row span.1 span.2

def restRange (cursor : Cursor) : Range :=
  let start := cursor.column + Text.blanksBefore cursor.rest
  Range.onLine cursor.row start (max start (textSpan cursor.line).2)

def read {α : Type} (reader : Reader α) (cursor : Cursor) : Option (Token α) × Cursor :=
  let start := cursor.column + Text.blanksBefore cursor.rest
  let text := Text.trimStart cursor.rest
  match reader text with
  | none => (none, cursor)
  | some lexeme =>
    if Text.endsHere (text.drop lexeme.chars.length) then
      let stop := start + lexeme.chars.length
      (some ⟨lexeme.value, Range.onLine cursor.row start stop⟩, { cursor with column := stop })
    else (none, cursor)

def readNumber : Cursor → Option (Token Int) × Cursor := read Lexeme.number

/-- A way to read numbers; rules read them by `readNumber` unless they are told otherwise. -/
abbrev NumberReader := Cursor → Option (Token Int) × Cursor

def readBoolean : Cursor → Option (Token Bool) × Cursor := read Lexeme.boolean

def readOperator : Cursor → Option (Token Operator) × Cursor := read Lexeme.operator

def readWord : Cursor → Option (Token String) × Cursor := read Lexeme.word

def readString : Cursor → Option (Token String) × Cursor := read Lexeme.string

def readComment : Cursor → Option (Token String) × Cursor := read Lexeme.comment

def readStringsUpTo : Nat → Cursor → List (Token String) × Cursor
  | 0, cursor => ([], cursor)
  | count + 1, cursor =>
    match cursor.readString with
    | (none, _) => ([], cursor)
    | (some token, next) =>
      let (tokens, last) := readStringsUpTo count next
      (token :: tokens, last)

/-- Strings until the line goes on with something else. Each one takes at least one character. -/
def readStrings (cursor : Cursor) : List (Token String) × Cursor := readStringsUpTo cursor.rest.length cursor

end Cursor

end LootFilter
