import LootFilter.Value.Json

/-! Reading TOML documents: keys and values, tables, arrays of tables, and the values that may stand on one line or
over several. -/

set_option autoImplicit false

namespace LootFilter.Toml

abbrev Path := List String

def isSpace (c : Char) : Bool := c == ' ' || c == '\t'

def isSpaceOrBreak (c : Char) : Bool := isSpace c || c == '\n'

def skipSpace (text : List Char) : List Char := text.dropWhile isSpace

def isControl (c : Char) : Bool := (c.toNat < 0x20 && c != '\t') || c.toNat == 0x7F

def isBareKey (c : Char) : Bool := c.isAlphanum || c == '-' || c == '_'

/-! ## Texts -/

def escaped? : Char → Option Char
  | 'b' => some '\x08'
  | 't' => some '\t'
  | 'n' => some '\n'
  | 'f' => some '\x0c'
  | 'r' => some '\r'
  | '"' => some '"'
  | '\\' => some '\\'
  | _ => none

def hexChar? (count : Nat) (text : List Char) : Option (Char × List Char) := do
  let digits := text.take count
  if digits.length < count then none
  else
    let code ← Json.hexNumber? digits
    if code.isValidChar then some (Char.ofNat code, text.drop count) else none

/-- The text after an escaped line end: all blanks up to the next word. -/
def afterLineEnd? (text : List Char) : Option (List Char) :=
  match skipSpace text with
  | [] => some []
  | '\n' :: rest => some (rest.dropWhile isSpaceOrBreak)
  | _ => none

def basicBody (multiline : Bool) : Nat → List Char → Option (List Char × List Char)
  | 0, _ => none
  | bound + 1, text =>
    match text with
    | [] => none
    | '"' :: rest =>
      if !multiline then some ([], rest)
      else
        match rest with
        | '"' :: '"' :: after => some ([], after)
        | _ => (basicBody multiline bound rest).map fun (chars, after) => ('"' :: chars, after)
    | '\\' :: rest =>
      match rest with
      | 'u' :: rest => do
        let (c, rest) ← hexChar? 4 rest
        let (chars, after) ← basicBody multiline bound rest
        some (c :: chars, after)
      | 'U' :: rest => do
        let (c, rest) ← hexChar? 8 rest
        let (chars, after) ← basicBody multiline bound rest
        some (c :: chars, after)
      | c :: _ =>
        if multiline && isSpaceOrBreak c then do
          let rest ← afterLineEnd? rest
          basicBody multiline bound rest
        else do
          let plain ← escaped? c
          let (chars, after) ← basicBody multiline bound (rest.drop 1)
          some (plain :: chars, after)
      | [] => none
    | c :: rest =>
      if isControl c && !(multiline && c == '\n') then none
      else (basicBody multiline bound rest).map fun (chars, after) => (c :: chars, after)

def basic (multiline : Bool) (text : List Char) : Option (List Char × List Char) :=
  basicBody multiline (text.length + 1) text

def literal : List Char → Option (List Char × List Char)
  | [] => none
  | '\'' :: rest => some ([], rest)
  | c :: rest => if isControl c then none else (literal rest).map fun (chars, after) => (c :: chars, after)

def multilineLiteral : List Char → Option (List Char × List Char)
  | [] => none
  | '\'' :: '\'' :: '\'' :: rest => some ([], rest)
  | c :: rest =>
    if isControl c && c != '\n' then none
    else (multilineLiteral rest).map fun (chars, after) => (c :: chars, after)

/-- One or two quotes right after the closing ones belong to the text. -/
def withExtraMarks (mark : Char) (chars rest : List Char) : List Char × List Char :=
  let extra := (rest.take 2).takeWhile (· == mark)
  (chars ++ extra, rest.drop extra.length)

def skipBreak : List Char → List Char
  | '\n' :: rest => rest
  | text => text

def text? : List Char → Option (String × List Char)
  | '"' :: '"' :: '"' :: rest =>
    (basic true (skipBreak rest)).map fun (chars, after) =>
      let (chars, after) := withExtraMarks '"' chars after
      (String.ofList chars, after)
  | '\'' :: '\'' :: '\'' :: rest =>
    (multilineLiteral (skipBreak rest)).map fun (chars, after) =>
      let (chars, after) := withExtraMarks '\'' chars after
      (String.ofList chars, after)
  | '"' :: rest => (basic false rest).map fun (chars, after) => (String.ofList chars, after)
  | '\'' :: rest => (literal rest).map fun (chars, after) => (String.ofList chars, after)
  | _ => none

/-! ## Numbers and moments -/

def groupedDigits (member : Char → Bool) : List Char → List Char × List Char
  | [] => ([], [])
  | '_' :: c :: rest =>
    if member c then
      let (digits, after) := groupedDigits member rest
      (c :: digits, after)
    else ([], '_' :: c :: rest)
  | c :: rest =>
    if member c then
      let (digits, after) := groupedDigits member rest
      (c :: digits, after)
    else ([], c :: rest)

def digits? (member : Char → Bool) : List Char → Option (List Char × List Char)
  | [] => none
  | c :: rest => if member c then some (groupedDigits member (c :: rest)) else none

def isHex (c : Char) : Bool := (Json.hexValue? c).isSome

def isOctal (c : Char) : Bool := '0' ≤ c && c ≤ '7'

def isBinary (c : Char) : Bool := c == '0' || c == '1'

def inBase (base : Nat) (digits : List Char) : Nat :=
  digits.foldl (fun value digit => base * value + (Json.hexValue? digit).getD 0) 0

def based? (letter : Char) (text : List Char) : Option (Value × List Char) :=
  let member := if letter == 'x' then isHex else if letter == 'o' then isOctal else isBinary
  let base := if letter == 'x' then 16 else if letter == 'o' then 8 else 2
  (digits? member text).map fun (digits, after) => (.integer (inBase base digits), after)

def fraction (text : List Char) : List Char × List Char :=
  match text with
  | '.' :: rest => (digits? Char.isDigit rest).getD ([], text)
  | _ => ([], text)

def exponent (text : List Char) : Option Int × List Char :=
  let signedDigits (sign : Int) (rest : List Char) : Option Int × List Char :=
    match digits? Char.isDigit rest with
    | none => (none, text)
    | some (digits, after) => (some (sign * inBase 10 digits), after)
  match text with
  | c :: rest =>
    if c == 'e' || c == 'E' then
      match rest with
      | '-' :: rest => signedDigits (-1) rest
      | '+' :: rest => signedDigits 1 rest
      | _ => signedDigits 1 rest
    else (none, text)
  | [] => (none, text)

def decimal? (negative : Bool) (text : List Char) : Option (Value × List Char) := do
  let (whole, rest) ←
    match text with
    | '0' :: rest => some (['0'], rest)
    | _ => digits? Char.isDigit text
  let (part, rest) := fraction rest
  let (power?, rest) := exponent rest
  if part.isEmpty && power?.isNone then
    some (.integer (Binary64.signed negative (inBase 10 whole)), rest)
  else
    some (.real (.ofDecimal negative (inBase 10 (whole ++ part)) (power?.getD 0 - part.length)), rest)

def special? (negative : Bool) (text : List Char) : Option (Value × List Char) :=
  match Json.keyword? "inf" text with
  | some rest => some (.real (.infinite negative), rest)
  | none => (Json.keyword? "nan" text).map fun rest => (.real .nan, rest)

def number? (text : List Char) : Option (Value × List Char) :=
  let unsignedForm :=
    match text with
    | '0' :: letter :: rest =>
      if letter == 'x' || letter == 'o' || letter == 'b' then based? letter rest else none
    | _ => none
  let signedForm (negative : Bool) (rest : List Char) := (decimal? negative rest).or (special? negative rest)
  unsignedForm.or <|
    match text with
    | '+' :: rest => signedForm false rest
    | '-' :: rest => signedForm true rest
    | _ => signedForm false text

def field? (count least greatest : Nat) (text : List Char) : Option (Nat × List Char) :=
  let digits := text.take count
  let value := inBase 10 digits
  if digits.length = count ∧ digits.all Char.isDigit ∧ least ≤ value ∧ value ≤ greatest then
    some (value, text.drop count)
  else none

def mark? (marks : List Char) : List Char → Option (List Char)
  | [] => none
  | c :: rest => if marks.contains c then some rest else none

def afterTime? (text : List Char) : Option (List Char) := do
  let (_, rest) ← field? 2 0 23 text
  let rest ← mark? [':'] rest
  let (_, rest) ← field? 2 0 59 rest
  let rest ← mark? [':'] rest
  let (_, rest) ← field? 2 0 59 rest
  match rest with
  | '.' :: after => if (after.head?.any Char.isDigit) then some (after.dropWhile Char.isDigit) else some rest
  | _ => some rest

def afterOffset (text : List Char) : List Char :=
  let offset? : Option (List Char) := do
    let rest ← mark? ['+', '-'] text
    let (_, rest) ← field? 2 0 23 rest
    let rest ← mark? [':'] rest
    let (_, rest) ← field? 2 0 59 rest
    some rest
  ((mark? ['Z', 'z'] text).or offset?).getD text

def isLeapYear (year : Nat) : Bool := year % 4 == 0 && (year % 100 != 0 || year % 400 == 0)

def daysIn (year month : Nat) : Nat :=
  if month = 2 then if isLeapYear year then 29 else 28
  else if month = 4 ∨ month = 6 ∨ month = 9 ∨ month = 11 then 30
  else 31

def readPart (text after : List Char) : String := String.ofList (text.take (text.length - after.length))

/-- A date, alone or with a time of day. The outer option tells whether the text has the form of a date. -/
def dated? (text : List Char) : Option (Option (Value × List Char)) := do
  let (year, rest) ← field? 4 0 9999 text
  let rest ← mark? ['-'] rest
  let (month, rest) ← field? 2 1 12 rest
  let rest ← mark? ['-'] rest
  let (day, rest) ← field? 2 1 31 rest
  let after := (((mark? ['T', 't', ' '] rest).bind afterTime?).map afterOffset).getD rest
  if 1 ≤ year ∧ day ≤ daysIn year month then some (some (.moment (readPart text after), after)) else some none

def timed? (text : List Char) : Option (Value × List Char) :=
  (afterTime? text).map fun after => (.moment (readPart text after), after)

/-- A whole number in decimal form has only so many digits; with a base letter it may have any number. -/
def isLong (value : Value) (spelling : List Char) : Bool :=
  match value with
  | .integer _ =>
    let digits := spelling.filter Char.isDigit
    decide (Text.mostDigits < digits.length) && !spelling.any Char.isAlpha
  | _ => false

def numeric (text : List Char) : Except ReadFault (Value × List Char) :=
  match number? text with
  | none => .error .malformed
  | some (value, after) =>
    if isLong value (text.take (text.length - after.length)) then .error .longNumber else .ok (value, after)

def scalar (text : List Char) : Except ReadFault (Value × List Char) :=
  match text with
  | '"' :: _ => ReadFault.required ((text? text).map fun (value, after) => (.text value, after))
  | '\'' :: _ => ReadFault.required ((text? text).map fun (value, after) => (.text value, after))
  | _ =>
    match Json.keyword? "true" text, Json.keyword? "false" text with
    | some after, _ => .ok (.boolean true, after)
    | _, some after => .ok (.boolean false, after)
    | none, none =>
      match dated? text with
      | some found => ReadFault.required found
      | none =>
        match timed? text with
        | some found => .ok found
        | none => numeric text

/-! ## Keys -/

def keyPart? (text : List Char) : Option (String × List Char) :=
  match text with
  | '"' :: rest => (basic false rest).map fun (chars, after) => (String.ofList chars, after)
  | '\'' :: rest => (literal rest).map fun (chars, after) => (String.ofList chars, after)
  | _ =>
    match text.span isBareKey with
    | ([], _) => none
    | (chars, after) => some (String.ofList chars, after)

def keyWithin? : Nat → List Char → Option (Path × List Char)
  | 0, _ => none
  | bound + 1, text => do
    let (part, rest) ← keyPart? text
    match skipSpace rest with
    | '.' :: rest =>
      let (parts, after) ← keyWithin? bound (skipSpace rest)
      some (part :: parts, after)
    | after => some ([part], after)

def key? (text : List Char) : Option (Path × List Char) := keyWithin? (text.length + 1) text

/-! ## Tables under construction -/

/-- Changes the table that a path leads to, making tables on the way. Through an array of tables the path goes to the
last one, if `throughLists` allows it. -/
def changeAt (throughLists : Bool) (change : Table Value → Option (Table Value)) :
    Path → Table Value → Option (Table Value)
  | [], table => change table
  | part :: path, table =>
    match table.get? part with
    | none => (changeAt throughLists change path .empty).map fun inner => table.put part (.table inner)
    | some (.table inner) => (changeAt throughLists change path inner).map fun inner => table.put part (.table inner)
    | some (.list items) =>
      match throughLists, items.getLast? with
      | true, some (.table inner) =>
        (changeAt throughLists change path inner).map fun inner =>
          table.put part (.list (items.dropLast ++ [.table inner]))
      | _, _ => none
    | some _ => none

def addField (throughLists : Bool) (path : Path) (value : Value) (table : Table Value) : Option (Table Value) :=
  match path.getLast? with
  | none => none
  | some name =>
    changeAt throughLists (fun inner => if inner.contains name then none else some (inner.put name value))
      path.dropLast table

def addToSeries (path : Path) (table : Table Value) : Option (Table Value) :=
  match path.getLast? with
  | none => none
  | some name =>
    changeAt true
      (fun inner =>
        match inner.get? name with
        | none => some (inner.put name (.list [.table .empty]))
        | some (.list items) => some (inner.put name (.list (items ++ [.table .empty])))
        | some _ => none)
      path.dropLast table

def isCompound : Value → Bool
  | .list _ => true
  | .table _ => true
  | _ => false

/-- A path at or below one of the frozen paths, whose values were written whole. -/
def isFrozen (frozen : List Path) (path : Path) : Bool := frozen.any (·.isPrefixOf path)

/-! ## Values -/

def skipComment (text : List Char) : Option (List Char) :=
  match text with
  | '#' :: rest =>
    let (comment, after) := rest.span (· != '\n')
    if comment.any isControl then none else some after
  | _ => some text

def skipFiller : Nat → List Char → Option (List Char)
  | 0, _ => none
  | bound + 1, text =>
    match text.dropWhile isSpaceOrBreak with
    | '#' :: rest => (skipComment ('#' :: rest)).bind (skipFiller bound)
    | after => some after

/-- How much room values have inside of each other. A list takes two units of it and a table three. -/
def mostRoom : Nat := 986

mutual

def value : Nat → Nat → List Char → Except ReadFault (Value × List Char)
  | 0, _, _ => .error .malformed
  | bound + 1, room, text =>
    match text with
    | '[' :: rest =>
      if room < 2 then .error .tooDeep
      else (items bound (room - 2) rest).map fun (found, after) => (.list found, after)
    | '\x7b' :: rest =>
      if room < 3 then .error .tooDeep
      else
        match skipSpace rest with
        | '\x7d' :: after => .ok (.table .empty, after)
        | rest => (fields bound (room - 3) .empty [] rest).map fun (found, after) => (.table found, after)
    | _ => scalar text

def items : Nat → Nat → List Char → Except ReadFault (List Value × List Char)
  | 0, _, _ => .error .malformed
  | bound + 1, room, text => do
    match ← ReadFault.required (skipFiller (text.length + 1) text) with
    | ']' :: after => .ok ([], after)
    | text =>
      let (item, rest) ← value bound room text
      match ← ReadFault.required (skipFiller (rest.length + 1) rest) with
      | ']' :: after => .ok ([item], after)
      | ',' :: rest =>
        let (others, after) ← items bound room rest
        return (item :: others, after)
      | _ => .error .malformed

def fields : Nat → Nat → Table Value → List Path → List Char → Except ReadFault (Table Value × List Char)
  | 0, _, _, _, _ => .error .malformed
  | bound + 1, room, found, frozen, text => do
    let (path, rest) ← ReadFault.required (key? text)
    match rest with
    | '=' :: rest =>
      let (field, rest) ← value bound room (skipSpace rest)
      if isFrozen frozen path then .error .malformed
      else
        let found ← ReadFault.required (addField false path field found)
        let frozen := if isCompound field then path :: frozen else frozen
        match skipSpace rest with
        | '\x7d' :: after => .ok (found, after)
        | ',' :: rest => fields bound room found frozen (skipSpace rest)
        | _ => .error .malformed
    | _ => .error .malformed

end

/-! ## Documents -/

/-- A document while it is read: what it holds so far, the table that fields go to, the tables that a header or a
dotted key has already made, and the paths of values written whole. -/
structure Draft where
  content : Table Value
  header : Path
  opened : List Path
  pending : List Path
  frozen : List Path

def Draft.initial : Draft := ⟨.empty, [], [], [], []⟩

def innerPaths (header path : Path) : List Path :=
  (List.range (path.length - 1)).map fun count => header ++ path.take (count + 1)

def Draft.addPair (draft : Draft) (path : Path) (value : Value) : Option Draft :=
  let inner := innerPaths draft.header path
  let whole := draft.header ++ path
  if inner.any draft.opened.contains || isFrozen draft.frozen whole.dropLast then none
  else
    (addField true whole value draft.content).map fun content =>
      { draft with
        content
        pending := draft.pending ++ inner
        frozen := if isCompound value then whole :: draft.frozen else draft.frozen }

/-- Tables made by dotted keys are closed to headers that come later. -/
def Draft.settle (draft : Draft) : Draft := { draft with opened := draft.opened ++ draft.pending, pending := [] }

def Draft.openTable (draft : Draft) (path : Path) : Option Draft :=
  if draft.opened.contains path || isFrozen draft.frozen path then none
  else
    (changeAt true some path draft.content).map fun content =>
      { draft with content, header := path, opened := path :: draft.opened }

def Draft.openSeries (draft : Draft) (path : Path) : Option Draft :=
  if isFrozen draft.frozen path then none
  else
    (addToSeries path draft.content).map fun content =>
      { draft with
        content
        header := path
        opened := path :: draft.opened.filter (!path.isPrefixOf ·)
        frozen := draft.frozen.filter (!path.isPrefixOf ·) }

def statement (draft : Draft) (text : List Char) : Except ReadFault (Draft × List Char) :=
  match text with
  | '[' :: '[' :: rest => do
    let (path, rest) ← ReadFault.required (key? (skipSpace rest))
    let draft ← ReadFault.required (draft.settle.openSeries path)
    match rest with
    | ']' :: ']' :: after => .ok (draft, after)
    | _ => .error .malformed
  | '[' :: rest => do
    let (path, rest) ← ReadFault.required (key? (skipSpace rest))
    let draft ← ReadFault.required (draft.settle.openTable path)
    match rest with
    | ']' :: after => .ok (draft, after)
    | _ => .error .malformed
  | _ => do
    let (path, rest) ← ReadFault.required (key? text)
    match rest with
    | '=' :: rest =>
      let (found, after) ← value (rest.length + 1) mostRoom (skipSpace rest)
      let draft ← ReadFault.required (draft.addPair path found)
      return (draft, after)
    | _ => .error .malformed

/-- A statement, if the line has one, must reach the end of the line but for a comment. -/
def statements : Nat → Draft → List Char → Except ReadFault Draft
  | 0, _, _ => .error .malformed
  | bound + 1, draft, text =>
    match skipSpace text with
    | [] => .ok draft
    | '\n' :: rest => statements bound draft rest
    | c :: rest => do
      let (draft, rest) ← if c == '#' then .ok (draft, c :: rest) else statement draft (c :: rest)
      match ← ReadFault.required (skipComment (skipSpace rest)) with
      | [] => .ok draft
      | '\n' :: rest => statements bound draft rest
      | _ => .error .malformed

/-- A carriage return before a line feed belongs to the line end. -/
def joinLineEnds : List Char → List Char
  | [] => []
  | '\r' :: '\n' :: rest => '\n' :: joinLineEnds rest
  | c :: rest => c :: joinLineEnds rest

def parse (text : List Char) : Except ReadFault (Table Value) :=
  let text := joinLineEnds text
  (statements (text.length + 1) .initial text).map (·.content)

end LootFilter.Toml
