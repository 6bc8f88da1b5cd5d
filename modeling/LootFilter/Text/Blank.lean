/-! Blank characters, and what is left of a text without the blanks around it. -/

set_option autoImplicit false

namespace LootFilter.Text

def isBlank (c : Char) : Bool :=
  let code := c.toNat
  (0x9 ≤ code && code ≤ 0xD) || (0x1C ≤ code && code ≤ 0x20) || code == 0x85 || code == 0xA0 ||
    code == 0x1680 || (0x2000 ≤ code && code ≤ 0x200A) || code == 0x2028 || code == 0x2029 ||
    code == 0x202F || code == 0x205F || code == 0x3000

def blanksBefore (text : List Char) : Nat := (text.takeWhile isBlank).length

def trimStart (text : List Char) : List Char := text.dropWhile isBlank

def trimEnd : List Char → List Char
  | [] => []
  | c :: rest =>
    match trimEnd rest with
    | [] => if isBlank c then [] else [c]
    | kept => c :: kept

def trim (text : List Char) : List Char := trimEnd (trimStart text)

def allBlank (text : List Char) : Bool := text.all isBlank

/-- A lexeme ends where the text ends or a blank follows. -/
def endsHere : List Char → Bool
  | [] => true
  | c :: _ => isBlank c

end LootFilter.Text
