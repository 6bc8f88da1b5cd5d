import LootFilter.Block
import LootFilter.Color
import LootFilter.Kind
import LootFilter.Reference.Pool
import LootFilter.Scanner.Cursor
import LootFilter.Settings

/-! What each kind of rule reads after its keyword.

A rule reads an optional operator and then its values. Text that is left over is reported only if nothing else is
wrong with the rule. -/

set_option autoImplicit false

namespace LootFilter

structure Outcome where
  findings : List Finding
  cursor : Cursor
  color : Option ColorMark := none
  sound : Option SoundMark := none
  deriving DecidableEq, Repr

namespace Rule

/-- Adds the text left over to the findings of a rule that is clean otherwise. -/
def finish (findings : List Finding) (cursor : Cursor) : List Finding :=
  if findings.isEmpty && !cursor.isIgnorable then [⟨.trailingText, cursor.restRange⟩] else findings

def readEquality (keyword : String) (cursor : Cursor) : List Finding × Cursor :=
  match cursor.readOperator with
  | (some operator, next) =>
    (if operator.value = .equal then [] else [⟨.wrongOperator keyword, operator.range⟩], next)
  | (none, next) => ([], next)

def missing (keyword : String) (expected : Expectation) (cursor : Cursor) : Finding :=
  ⟨.missingValue keyword expected, cursor.lineRange⟩

def invalid (keyword : String) (expected : Expectation) (range : Range) : Finding :=
  ⟨.invalidValue keyword expected, range⟩

def readBlock (cursor : Cursor) : Outcome :=
  { findings := if cursor.isIgnorable then [] else [⟨.ignoredText, cursor.restRange⟩], cursor }

/-- Reads a boolean. The names of the booleans are asked for only if there is none. -/
def readBoolean (reference : Reference) (keyword : String) (cursor : Cursor) : Except Reference.Gap Outcome := do
  let (findings, cursor) := readEquality keyword cursor
  let (value?, cursor) := cursor.readBoolean
  match value? with
  | some _ => return { findings := finish findings cursor, cursor }
  | none =>
    let words ← reference.booleanWords keyword
    return { findings := findings ++ [⟨.missingBoolean words, cursor.lineRange⟩], cursor }

def readNumberAfter (limits : Limits) (keyword : String) (findings : List Finding) (cursor : Cursor)
    (numbers : Cursor.NumberReader := Cursor.readNumber) : Outcome :=
  let (number?, cursor) := numbers cursor
  let own :=
    match number? with
    | none => [missing keyword (.number limits) cursor]
    | some number =>
      if limits.contains number.value then [] else [invalid keyword (.number limits) number.range]
  { findings := finish (findings ++ own) cursor, cursor }

def readNumber (limits : Limits) (keyword : String) (cursor : Cursor)
    (numbers : Cursor.NumberReader := Cursor.readNumber) : Outcome :=
  readNumberAfter limits keyword [] cursor.readOperator.2 numbers

def readFontSize (limits : Limits) (keyword : String) (cursor : Cursor)
    (numbers : Cursor.NumberReader := Cursor.readNumber) : Outcome :=
  let (findings, cursor) := readEquality keyword cursor
  readNumberAfter limits keyword findings cursor numbers

def readChoice (accepts : String → Bool) (expected : Expectation) (keyword : String) (findings : List Finding)
    (cursor : Cursor) : Outcome :=
  let (value?, cursor) := cursor.readString
  let own :=
    match value? with
    | none => [missing keyword expected cursor]
    | some value => if accepts value.value then [] else [invalid keyword expected value.range]
  { findings := finish (findings ++ own) cursor, cursor }

def readRarity (reference : Reference) (keyword : String) (cursor : Cursor) : Except Reference.Gap Outcome := do
  let words ← reference.rarityWords keyword
  return readChoice reference.hasRarity (.rarity words) keyword [] cursor.readOperator.2

def isSocketColor (c : Char) : Bool :=
  c.toLower == 'r' || c.toLower == 'g' || c.toLower == 'b' || c.toLower == 'w'

def isSocketGroup (value : String) : Bool :=
  1 ≤ value.length && value.length ≤ 6 && value.toList.all isSocketColor

def readSocketGroup (keyword : String) (cursor : Cursor) : Outcome :=
  let (findings, cursor) := readEquality keyword cursor
  readChoice isSocketGroup .socketGroup keyword findings cursor

/-- Reads `count` channels. Channels out of range are reported and left out; the answer has no channels when the line
runs out of numbers. -/
def readChannels (limits : Limits) (keyword : String) (count : Nat) (cursor : Cursor)
    (numbers : Cursor.NumberReader := Cursor.readNumber) : List Finding × Option (List (Token Int)) × Cursor :=
  match count with
  | 0 => ([], some [], cursor)
  | count + 1 =>
    match numbers cursor with
    | (none, _) => ([missing keyword (.channels limits) cursor], none, cursor)
    | (some number, next) =>
      let (findings, channels?, last) := readChannels limits keyword count next numbers
      if limits.spans number.value then (findings, channels?.map (number :: ·), last)
      else (invalid keyword (.channels limits) number.range :: findings, channels?, last)

def colorMark? (channels : List (Token Int)) (alpha? : Option (Token Int)) : Option ColorMark :=
  match channels with
  | [red, green, blue] =>
    let alpha := (alpha?.map fun alpha => Color.channel alpha.value).getD Binary64.one
    some
      { color := ⟨Color.channel red.value, Color.channel green.value, Color.channel blue.value, alpha⟩
        range := ⟨red.range.start, (alpha?.getD blue).range.stop⟩ }
  | _ => none

def readColor (limits : Limits) (keyword : String) (cursor : Cursor)
    (numbers : Cursor.NumberReader := Cursor.readNumber) : Outcome :=
  let (findings, cursor) := readEquality keyword cursor
  match readChannels limits keyword 3 cursor numbers with
  | (own, none, cursor) => { findings := findings ++ own, cursor }
  | (own, some channels, cursor) =>
    let (alpha?, cursor) := numbers cursor
    let bad := alpha?.filter fun alpha => !limits.spans alpha.value
    let good := alpha?.filter fun alpha => limits.spans alpha.value
    let late := bad.toList.map fun alpha => invalid keyword (.channels limits) alpha.range
    { findings := finish (findings ++ own ++ late) cursor, cursor, color := colorMark? channels good }

structure Identifier where
  name : String
  known : Bool
  range : Range

/-- Reads a sound identifier: a word or a number. Without either, there is nothing to go on with. -/
def readIdentifier (settings : Settings) (sounds : Sounds) (keyword : String) (cursor : Cursor)
    (numbers : Cursor.NumberReader := Cursor.readNumber) : Option (List Finding × Option Identifier) × Cursor :=
  let expected := Expectation.sound sounds.least sounds.greatest
  match cursor.readWord with
  | (some word, cursor) =>
    if sounds.labels.contains word.value then (some ([], some ⟨word.value, true, word.range⟩), cursor)
    else if settings.soundWhitelist.contains word.value then
      (some ([], some ⟨word.value, false, word.range⟩), cursor)
    else (some ([invalid keyword expected word.range], none), cursor)
  | (none, cursor) =>
    match numbers cursor with
    | (none, cursor) => (none, cursor)
    | (some number, cursor) =>
      if sounds.least ≤ number.value ∧ number.value ≤ sounds.greatest then
        (some ([], some ⟨toString number.value, true, number.range⟩), cursor)
      else (some ([invalid keyword expected number.range], none), cursor)

def readVolume (keyword : String) (cursor : Cursor) (numbers : Cursor.NumberReader := Cursor.readNumber) :
    List Finding × Int × Cursor :=
  match numbers cursor with
  | (none, cursor) => ([], defaultVolume, cursor)
  | (some number, cursor) =>
    if 0 ≤ number.value ∧ number.value ≤ greatestVolume then ([], number.value, cursor)
    else ([invalid keyword .volume number.range], defaultVolume, cursor)

def readSound (settings : Settings) (sounds : Sounds) (keyword : String) (cursor : Cursor)
    (numbers : Cursor.NumberReader := Cursor.readNumber) : Outcome :=
  let (findings, cursor) := readEquality keyword cursor
  match readIdentifier settings sounds keyword cursor numbers with
  | (none, cursor) =>
    { findings := findings ++ [missing keyword (.sound sounds.least sounds.greatest) cursor], cursor }
  | (some (own, identifier?), cursor) =>
    let (late, volume, cursor) := readVolume keyword cursor numbers
    { findings := finish (findings ++ own ++ late) cursor
      cursor
      sound := identifier?.map fun identifier =>
        ⟨identifier.known, identifier.name, volume, identifier.range⟩ }

/-- Judges values in order: a value that was accepted before is a duplicate, and one that fails the test is not
accepted. Answers the findings and the accepted values. -/
def judge (accepts : String → Bool) (keyword : String) (expected : Expectation) :
    List String → List (Token String) → List Finding × List String
  | accepted, [] => ([], accepted)
  | accepted, token :: rest =>
    let repeated :=
      if accepted.contains token.value then [⟨.duplicateValue keyword, token.range⟩] else []
    if accepts token.value then
      let (findings, all) := judge accepts keyword expected (accepted ++ [token.value]) rest
      (repeated ++ findings, all)
    else
      let (findings, all) := judge accepts keyword expected accepted rest
      (repeated ++ invalid keyword expected token.range :: findings, all)

def valueTokens (cursor : Cursor) : List (Token String) := cursor.readOperator.2.readStrings.1

/-- Reads strings until none is left; at least one has to be accepted. Answers the accepted values too. -/
def readValues (accepts : String → Bool) (keyword : String) (expected : Expectation) (cursor : Cursor) :
    Outcome × List String :=
  let (findings, cursor) := readEquality keyword cursor
  let (tokens, cursor) := cursor.readStrings
  let (own, accepted) := judge accepts keyword expected [] tokens
  let late := if accepted.isEmpty then [⟨.missingStrings keyword, cursor.lineRange⟩] else []
  ({ findings := finish (findings ++ own ++ late) cursor, cursor }, accepted)

def acceptsClass (settings : Settings) (reference : Reference) (value : String) : Bool :=
  reference.classes.any (Text.occursIn value) || settings.classWhitelist.any (Text.occursIn value)

/-- Reads the bases that a block asks for. Each value is looked up, so one search without an answer ends the reading. -/
def readBaseType (settings : Settings) (reference : Reference) (classes : List String) (keyword : String)
    (cursor : Cursor) : Except Reference.Gap Outcome :=
  let pool := Pool.choose reference classes
  if (valueTokens cursor).all (pool.answers ·.value) then
    .ok (readValues (pool.accepts settings.baseWhitelist) keyword pool.expectation cursor).1
  else .error (.noBase keyword)

/-- Reads a rule of a kind and tells what becomes of its block. `head` is the range of the keyword. -/
def read (settings : Settings) (reference : Reference) (kind : Kind) (keyword : String) (head : Range)
    (cursor : Cursor) (block : Block) (numbers : Cursor.NumberReader := Cursor.readNumber) :
    Except Reference.Gap (Outcome × Block) :=
  match kind with
  | .block => .ok (readBlock cursor, .start (some head))
  | .number => do
    let limits ← reference.limitsOf keyword
    return (readNumber limits keyword cursor numbers, block)
  | .fontSize => do
    let limits ← reference.limitsOf keyword
    return (readFontSize limits keyword cursor numbers, block)
  | .rarity => do return (← readRarity reference keyword cursor, block)
  | .socketGroup => .ok (readSocketGroup keyword cursor, block)
  | .boolean => do return (← readBoolean reference keyword cursor, block)
  | .color => do
    let limits ← reference.limitsOf keyword
    return (readColor limits keyword cursor numbers, block)
  | .itemClass =>
    let (outcome, accepted) := readValues (acceptsClass settings reference) keyword .itemClass cursor
    .ok (outcome, block.addClasses accepted)
  | .baseType => do return (← readBaseType settings reference block.classes keyword cursor, block)
  | .sound => .ok (readSound settings reference.sounds keyword cursor numbers, block)

end Rule

end LootFilter
