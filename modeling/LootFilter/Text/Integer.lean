import LootFilter.Text.Blank

/-! Whole numbers spelled in a text: blanks around, a sign, and decimal digits of any script. -/

set_option autoImplicit false

namespace LootFilter.Text

/-- The zero of each script that has decimal digits; the other nine follow it in order. -/
def zeros : List Nat :=
  [0x30, 0x660, 0x6F0, 0x7C0, 0x966, 0x9E6, 0xA66, 0xAE6, 0xB66, 0xBE6, 0xC66, 0xCE6, 0xD66, 0xDE6, 0xE50, 0xED0,
   0xF20, 0x1040, 0x1090, 0x17E0, 0x1810, 0x1946, 0x19D0, 0x1A80, 0x1A90, 0x1B50, 0x1BB0, 0x1C40, 0x1C50, 0xA620,
   0xA8D0, 0xA900, 0xA9D0, 0xA9F0, 0xAA50, 0xABF0, 0xFF10, 0x104A0, 0x10D30, 0x11066, 0x110F0, 0x11136, 0x111D0,
   0x112F0, 0x11450, 0x114D0, 0x11650, 0x116C0, 0x11730, 0x118E0, 0x11950, 0x11C50, 0x11D50, 0x11DA0, 0x16A60,
   0x16AC0, 0x16B50, 0x1D7CE, 0x1D7D8, 0x1D7E2, 0x1D7EC, 0x1D7F6, 0x1E140, 0x1E2F0, 0x1E950, 0x1FBF0]

/-- No whole number is spelled by more decimal digits than these, zeros at the head included. -/
def mostDigits : Nat := 4300

def digit? (c : Char) : Option Nat :=
  (zeros.find? fun first => first ≤ c.toNat && c.toNat < first + 10).map (c.toNat - ·)

/-- Goes on from the value of the digits before. A single underscore may stand between two digits. -/
def digitsAfter? (value : Nat) : List Char → Option Nat
  | [] => some value
  | '_' :: c :: rest => (digit? c).bind fun digit => digitsAfter? (10 * value + digit) rest
  | c :: rest => (digit? c).bind fun digit => digitsAfter? (10 * value + digit) rest

def digitsFrom? : List Char → Option Nat
  | [] => none
  | c :: rest => (digit? c).bind fun digit => digitsAfter? digit rest

def natural? (digits : List Char) : Option Nat :=
  if mostDigits < (digits.filter (· != '_')).length then none else digitsFrom? digits

/-- Blanks that may stand around a number: all but the four information separators. -/
def isPadding (c : Char) : Bool := isBlank c && !(0x1C ≤ c.toNat && c.toNat ≤ 0x1F)

def unpadded (text : List Char) : List Char :=
  ((text.dropWhile isPadding).reverse.dropWhile isPadding).reverse

def integer? (text : String) : Option Int :=
  match unpadded text.toList with
  | '-' :: digits => (natural? digits).map fun value => -(value : Int)
  | '+' :: digits => (natural? digits).map Int.ofNat
  | digits => (natural? digits).map Int.ofNat

end LootFilter.Text
