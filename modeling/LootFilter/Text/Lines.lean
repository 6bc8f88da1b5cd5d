/-! Lines of a text: a line ends at a carriage return, a line feed, or both in that order. -/

set_option autoImplicit false

namespace LootFilter.Text

def isBreak (c : Char) : Bool := c == '\r' || c == '\n'

/-- The lines of a text, without their ends; a text has one line more than it has line ends. -/
def splitLines : List Char → List (List Char)
  | [] => [[]]
  | '\r' :: '\n' :: rest => [] :: splitLines rest
  | c :: rest =>
    if isBreak c then [] :: splitLines rest
    else
      match splitLines rest with
      | [] => [[c]]
      | line :: lines => (c :: line) :: lines

def unifyLineEnds : List Char → List Char
  | [] => []
  | '\r' :: '\n' :: rest => '\n' :: unifyLineEnds rest
  | c :: rest => (if c == '\r' then '\n' else c) :: unifyLineEnds rest

end LootFilter.Text
