import LootFilter.Text.Blank

/-! The shapes of lexemes: numbers, booleans, operators, words, strings and comments.

A reader looks at the head of a text that starts with no blank. It answers the longest lexeme of its shape,
whatever follows; the cursor then asks that the lexeme ends at a blank or at the end of the line. -/

set_option autoImplicit false

namespace LootFilter

structure Lexeme (α : Type) where
  chars : List Char
  value : α
  deriving DecidableEq, Repr

abbrev Reader (α : Type) := List Char → Option (Lexeme α)

inductive Operator where
  | equal
  | less
  | greater
  | atMost
  | atLeast
  deriving DecidableEq, Repr

def Operator.spelling : Operator → String
  | .equal => "="
  | .less => "<"
  | .greater => ">"
  | .atMost => "<="
  | .atLeast => ">="

namespace Lexeme

def isLetter (c : Char) : Bool := c.isAlpha || c == 'ö'

def isBare (c : Char) : Bool :=
  !Text.isBlank c && c != '"' && c != '\'' && c != '<' && c != '>' && c != '='

def run? (member : Char → Bool) (text : List Char) : Option (List Char) :=
  match text.takeWhile member with
  | [] => none
  | run => some run

def decimalValue (digits : List Char) : Nat :=
  digits.foldl (fun value digit => 10 * value + (digit.toNat - '0'.toNat)) 0

/-- No rule has limits that large, so longer numbers need not be told apart. -/
def largestNumber : Nat := Nat.pow 10 18

/-- The number spelled by a sign and digits; its magnitude stops at `largestNumber`. -/
def numberValue (chars : List Char) : Int :=
  let digits := chars.dropWhile (fun c => c == '+' || c == '-')
  let significant := digits.dropWhile (· == '0')
  let magnitude := if 18 < significant.length then largestNumber else decimalValue significant
  if chars.head? = some '-' then -(magnitude : Int) else magnitude

def number : Reader Int := fun text =>
  let chars? :=
    match text with
    | '+' :: rest => (run? Char.isDigit rest).map ('+' :: ·)
    | '-' :: rest => (run? Char.isDigit rest).map ('-' :: ·)
    | _ => run? Char.isDigit text
  chars?.map fun chars => ⟨chars, numberValue chars⟩

def word : Reader String := fun text => (run? isLetter text).map fun chars => ⟨chars, String.ofList chars⟩

def operator : Reader Operator
  | '<' :: '=' :: _ => some ⟨['<', '='], .atMost⟩
  | '>' :: '=' :: _ => some ⟨['>', '='], .atLeast⟩
  | '=' :: _ => some ⟨['='], .equal⟩
  | '<' :: _ => some ⟨['<'], .less⟩
  | '>' :: _ => some ⟨['>'], .greater⟩
  | _ => none

/-- A small letter in either case; the long s counts as an s. -/
def sameLetter (letter c : Char) : Bool := c.toLower == letter || (letter == 's' && c == 'ſ')

def spelled : List Char → List Char → Option (List Char)
  | [], _ => some []
  | _ :: _, [] => none
  | letter :: letters, c :: rest =>
    if sameLetter letter c then (spelled letters rest).map (c :: ·) else none

def literal (letters : String) (value : Bool) : Reader Bool := fun text =>
  (spelled letters.toList text).map fun chars => ⟨chars, value⟩

def boolean : Reader Bool := fun text =>
  (literal "true" true text).or <| (literal "\"true\"" true text).or <|
    (literal "false" false text).or <| literal "\"false\"" false text

/-- A span in double quotes, which may hold blanks, or a bare string. -/
def string : Reader String
  | '"' :: rest =>
    let inner := rest.takeWhile (· != '"')
    match rest.drop inner.length with
    | [] => none
    | _ :: _ => some ⟨'"' :: inner ++ ['"'], String.ofList inner⟩
  | text => (run? isBare text).map fun chars => ⟨chars, String.ofList chars⟩

/-- A comment runs to the last character of the line that is not blank. -/
def comment : Reader String
  | '#' :: rest => some ⟨Text.trimEnd ('#' :: rest), String.ofList (Text.trimEnd ('#' :: rest))⟩
  | _ => none

end Lexeme

end LootFilter
