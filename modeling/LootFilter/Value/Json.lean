import LootFilter.Value.Reading

/-! Reading JSON documents. Fields keep their order, and of two fields with one name the later value counts. A text is
read from its start, and the first fault ends it. -/

set_option autoImplicit false

namespace LootFilter.Json

def isSpace (c : Char) : Bool := c == ' ' || c == '\t' || c == '\n' || c == '\r'

def skipSpace (text : List Char) : List Char := text.dropWhile isSpace

def hexValue? (c : Char) : Option Nat :=
  if '0' ≤ c ∧ c ≤ '9' then some (c.toNat - '0'.toNat)
  else if 'a' ≤ c ∧ c ≤ 'f' then some (c.toNat - 'a'.toNat + 10)
  else if 'A' ≤ c ∧ c ≤ 'F' then some (c.toNat - 'A'.toNat + 10)
  else none

def hexNumber? (digits : List Char) : Option Nat :=
  digits.foldlM (fun value digit => (hexValue? digit).map (16 * value + ·)) 0

def escaped? : Char → Option Nat
  | '"' => some 0x22
  | '\\' => some 0x5C
  | '/' => some 0x2F
  | 'b' => some 0x8
  | 'f' => some 0xC
  | 'n' => some 0xA
  | 'r' => some 0xD
  | 't' => some 0x9
  | _ => none

/-- The code units up to the closing quote, after those of `done` in reverse, and the text after the quote. -/
def codeUnits (done : List Nat) : List Char → Option (List Nat × List Char)
  | [] => none
  | '"' :: rest => some (done.reverse, rest)
  | '\\' :: 'u' :: a :: b :: c :: d :: rest =>
    match hexNumber? [a, b, c, d] with
    | none => none
    | some unit => codeUnits (unit :: done) rest
  | '\\' :: c :: rest =>
    match escaped? c with
    | none => none
    | some unit => codeUnits (unit :: done) rest
  | c :: rest => if c.toNat < 0x20 then none else codeUnits (c.toNat :: done) rest

/-- The first of the 2048 characters that stand for halves of surrogate pairs, at the end of the last private area. -/
def firstHalf : Nat := 0x10F800

/-- Half of a surrogate pair alone is no character. It is read as a private one of its own. -/
def unitChar (unit : Nat) : Char :=
  Char.ofNat (if unit.isValidChar then unit else firstHalf + (unit - 0xD800))

/-- Units come apart as characters, as long as no text has a private character that stands for a half. -/
theorem unitChar_inj {first second : Nat} (one : first < firstHalf) (other : second < firstHalf) :
    unitChar first = unitChar second ↔ first = second := by
  have place {unit : Nat} (small : unit < firstHalf) :
      (unitChar unit).toNat = if unit.isValidChar then unit else firstHalf + (unit - 0xD800) := by
    have valid : (if unit.isValidChar then unit else firstHalf + (unit - 0xD800)).isValidChar := by
      unfold firstHalf at small ⊢
      split
      · assumption
      · unfold Nat.isValidChar at *
        omega
    rw [unitChar, Char.ofNat, dif_pos valid]
    rfl
  rw [← Char.toNat_inj, place one, place other]
  unfold firstHalf Nat.isValidChar at *
  split <;> split <;> omega

def joinUnits (done : List Char) : List Nat → List Char
  | [] => done.reverse
  | [unit] => (unitChar unit :: done).reverse
  | high :: low :: rest =>
    if 0xD800 ≤ high ∧ high < 0xDC00 ∧ 0xDC00 ≤ low ∧ low < 0xE000 then
      joinUnits (Char.ofNat (0x10000 + (high - 0xD800) * 0x400 + (low - 0xDC00)) :: done) rest
    else joinUnits (unitChar high :: done) (low :: rest)

def string (text : List Char) : Option (String × List Char) :=
  (codeUnits [] text).map fun (units, after) => (String.ofList (joinUnits [] units), after)

def digits (text : List Char) : List Char × List Char := text.span Char.isDigit

def digitsValue (digits : List Char) : Nat :=
  digits.foldl (fun value digit => 10 * value + (digit.toNat - '0'.toNat)) 0

def fraction (text : List Char) : List Char × List Char :=
  match text with
  | '.' :: rest =>
    match digits rest with
    | ([], _) => ([], text)
    | found => found
  | _ => ([], text)

def exponent (text : List Char) : Option Int × List Char :=
  let signedDigits (sign : Int) (rest : List Char) : Option Int × List Char :=
    match digits rest with
    | ([], _) => (none, text)
    | (found, after) => (some (sign * digitsValue found), after)
  match text with
  | c :: rest =>
    if c == 'e' || c == 'E' then
      match rest with
      | '-' :: rest => signedDigits (-1) rest
      | '+' :: rest => signedDigits 1 rest
      | _ => signedDigits 1 rest
    else (none, text)
  | [] => (none, text)

def number (negative : Bool) (text : List Char) : Except ReadFault (Value × List Char) :=
  let (whole, rest) :=
    match text with
    | '0' :: rest => (['0'], rest)
    | _ => digits text
  if whole.isEmpty then .error .malformed
  else
    let (part, rest) := fraction rest
    let (power?, rest) := exponent rest
    if !part.isEmpty || power?.isSome then
      .ok (.real (.ofDecimal negative (digitsValue (whole ++ part)) (power?.getD 0 - part.length)), rest)
    else if Text.mostDigits < whole.length then .error .longNumber
    else .ok (.integer (Binary64.signed negative (digitsValue whole)), rest)

def keyword? (word : String) (text : List Char) : Option (List Char) :=
  if word.toList.isPrefixOf text then some (text.drop word.length) else none

def constants : List (String × Value) :=
  [("null", .null), ("true", .boolean true), ("false", .boolean false), ("NaN", .real .nan),
   ("Infinity", .real (.infinite false)), ("-Infinity", .real (.infinite true))]

def constant? (text : List Char) : Option (Value × List Char) :=
  constants.findSome? fun (word, value) => (keyword? word text).map fun rest => (value, rest)

def scalar (text : List Char) : Except ReadFault (Value × List Char) :=
  match constant? text with
  | some found => .ok found
  | none =>
    match text with
    | '"' :: rest => do
      let (value, after) ← ReadFault.required (string rest)
      return (.text value, after)
    | '-' :: rest => number true rest
    | _ => number false text

/-- How many lists and tables may stand inside of each other. -/
def mostLevels : Nat := 988

mutual

def value : Nat → Nat → List Char → Except ReadFault (Value × List Char)
  | 0, _, _ => .error .malformed
  | bound + 1, levels, text =>
    match text, levels with
    | '[' :: _, 0 => .error .tooDeep
    | '\x7b' :: _, 0 => .error .tooDeep
    | '[' :: rest, inner + 1 =>
      match skipSpace rest with
      | ']' :: after => .ok (.list [], after)
      | rest => (items bound inner [] rest).map fun (found, after) => (.list found, after)
    | '\x7b' :: rest, inner + 1 =>
      match skipSpace rest with
      | '\x7d' :: after => .ok (.table .empty, after)
      | rest => (fields bound inner .empty rest).map fun (found, after) => (.table found, after)
    | _, _ => scalar text

def items : Nat → Nat → List Value → List Char → Except ReadFault (List Value × List Char)
  | 0, _, _, _ => .error .malformed
  | bound + 1, levels, done, text =>
    match value bound levels text with
    | .error fault => .error fault
    | .ok (item, rest) =>
      match skipSpace rest with
      | ']' :: after => .ok ((item :: done).reverse, after)
      | ',' :: rest => items bound levels (item :: done) (skipSpace rest)
      | _ => .error .malformed

def fields : Nat → Nat → Table Value → List Char → Except ReadFault (Table Value × List Char)
  | 0, _, _, _ => .error .malformed
  | bound + 1, levels, done, text =>
    match text with
    | '"' :: rest =>
      match string rest with
      | none => .error .malformed
      | some (name, rest) =>
        match skipSpace rest with
        | ':' :: rest =>
          match value bound levels (skipSpace rest) with
          | .error fault => .error fault
          | .ok (field, rest) =>
            match skipSpace rest with
            | '\x7d' :: after => .ok (done.put name field, after)
            | ',' :: rest => fields bound levels (done.put name field) (skipSpace rest)
            | _ => .error .malformed
        | _ => .error .malformed
    | _ => .error .malformed

end

/-- Reads a whole document. Every step takes a character, so the length bounds their number. -/
def parse (text : List Char) : Except ReadFault Value := do
  let (found, rest) ← value (text.length + 1) mostLevels (skipSpace text)
  if (skipSpace rest).isEmpty then return found else .error .malformed

end LootFilter.Json
