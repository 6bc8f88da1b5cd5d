import LootFilter.Indexing
import LootFilter.Source
import LootFilter.Text.Blank

/-! Finding the keyword and the values of a line by position alone, so that an editor can help on lines that do not
read cleanly. -/

set_option autoImplicit false

namespace LootFilter

structure Stretch where
  column : Int
  chars : List Char
  deriving DecidableEq, Repr

namespace Stretch

/-- The stretch from an index on. A negative index counts from the end of the line; reading goes on upward through the
whole line. -/
def ofIndex? (line : List Char) (index : Int) : Option Stretch :=
  if -index ≤ line.length then some ⟨index, Indexing.upwardFrom line index⟩ else none

def drop (stretch : Stretch) (count : Nat) : Stretch := ⟨stretch.column + count, stretch.chars.drop count⟩

def skipBlanks (stretch : Stretch) : Stretch := stretch.drop (Text.blanksBefore stretch.chars)

def isOperatorChar (c : Char) : Bool := c == '<' || c == '>' || c == '='

def skipAfter (isOperator : Char → Bool) (stretch : Stretch) : Option Stretch :=
  let next := stretch.skipBlanks
  match next.chars with
  | [] => none
  | c :: _ => if isOperator c then none else some next

/-- Skips blanks and at most one equality sign; fails at the end of the line and at a second sign. -/
def skipEquality (stretch : Stretch) : Option Stretch :=
  let start := stretch.skipBlanks
  match start.chars with
  | [] => none
  | '=' :: _ => (start.drop 1).skipAfter (· == '=')
  | _ => some start

/-- The length of the operator at the head of a stretch. One of two characters does not reach over the end of the
line. -/
def operatorLength (stretch : Stretch) : Nat :=
  match stretch.chars with
  | first :: '=' :: _ => if (first == '<' || first == '>') && stretch.column != -1 then 2 else 1
  | _ => 1

def skipOperator (stretch : Stretch) : Option Stretch :=
  let start := stretch.skipBlanks
  match start.chars with
  | [] => none
  | c :: _ =>
    if isOperatorChar c then (start.drop start.operatorLength).skipAfter isOperatorChar else some start

/-- How many characters the value at the head of a text has. A quoted value ends at its closing quote or with the line,
a bare one at the next blank. -/
def valueLength : List Char → Nat
  | '"' :: rest =>
    let inner := (rest.takeWhile (· != '"')).length
    if inner < rest.length then inner + 2 else inner + 1
  | text => (text.takeWhile (!Text.isBlank ·)).length

def nextValue? (row : Int) (stretch : Stretch) : Option (Range × Stretch) :=
  let start := stretch.skipBlanks
  match start.chars with
  | [] => none
  | text =>
    let rest := start.drop (valueLength text)
    some (Range.onLine row start.column rest.column, rest)

def valuesUpTo : Nat → Int → Stretch → List Range
  | 0, _, _ => []
  | count + 1, row, stretch =>
    match stretch.nextValue? row with
    | none => []
    | some (range, rest) => range :: valuesUpTo count row rest

def values (row : Int) (stretch : Stretch) : List Range := valuesUpTo stretch.chars.length row stretch

/-- A position in a range or right after its last character. -/
def touches (range : Range) (position : Position) : Bool :=
  position.line == range.start.line && range.start.character ≤ position.character &&
    position.character ≤ range.stop.character

/-- The value that a position touches, among the next `count` values. Values that start past the position need not be
tried. -/
def valueAtUpTo : Nat → Position → Stretch → Option Range
  | 0, _, _ => none
  | count + 1, position, stretch =>
    match stretch.nextValue? position.line with
    | none => none
    | some (range, rest) =>
      if touches range position then some range
      else if position.character < range.start.character then none
      else valueAtUpTo count position rest

def valueAt? (position : Position) (stretch : Stretch) : Option Range :=
  valueAtUpTo stretch.chars.length position stretch

/-- A value without the quotes around it, of which either may be missing. -/
def unquote (value : List Char) : List Char :=
  let opened :=
    match value with
    | '"' :: rest => rest
    | _ => value
  if opened.getLast? = some '"' then opened.dropLast else opened

end Stretch

structure Head where
  word : String
  range : Range
  rest : Stretch
  deriving DecidableEq, Repr

/-- A keyword has letters only and ends at a blank or with the line. -/
def Head.ofLine? (row : Int) (line : List Char) : Option Head :=
  let start := Text.blanksBefore line
  let text := Text.trimStart line
  match text.takeWhile Char.isAlpha with
  | [] => none
  | word =>
    let after := text.drop word.length
    if Text.endsHere after then
      let stop := start + word.length
      some ⟨String.ofList word, Range.onLine row start stop, ⟨stop, after⟩⟩
    else none

end LootFilter
