import LootFilter.Editor.Stretch
import LootFilter.Kind
import LootFilter.Reference
import LootFilter.Settings

/-! What could stand at a position of a line: a keyword, or a value of the rule that the keyword names. -/

set_option autoImplicit false

namespace LootFilter

namespace Suggestion

inductive Source where
  | language
  | reference
  | whitelist
  | extra
  deriving DecidableEq, Repr

end Suggestion

/-- A text to put in place of a range, as the reference data have it. `filterText` is what the editor compares with the
text already typed. -/
structure Suggestion where
  label : Value
  newText : Value
  range : Range
  source : Suggestion.Source
  filterText : Option String

namespace Suggestion

inductive Unfit where
  | keyword
  | value
  deriving DecidableEq, Repr

def Unfit.message : Unfit → String
  | .keyword => "a list or a table stands for a keyword"
  | .value => "a value that holds no text has to be written"

def inQuotes (value : Value) : String := "\"" ++ value.spelled ++ "\""

/-- A value as it has to be written: in quotes if it holds a space, or if quotes are wanted anyway. -/
def writtenValue (always : Bool) (value : Value) : Except Unfit Value :=
  if always then .ok (.text (inQuotes value))
  else
    match value.holds? " " with
    | none => .error .value
    | some true => .ok (.text (inQuotes value))
    | some false => .ok value

def ofValue (source : Source) (quotes : Bool) (range : Range) (value : Value) : Except Unfit Suggestion := do
  let newText ← writtenValue quotes value
  return { label := value, newText, range, source, filterText := some (inQuotes value) }

def ofValues (source : Source) (quotes : Bool) (range : Range) (values : List Value) :
    Except Unfit (List Suggestion) :=
  values.mapM (ofValue source quotes range)

def isPlain (suggestion : Suggestion) : Bool :=
  match suggestion.label, suggestion.newText with
  | .text _, .text _ => true
  | _, _ => false

/-! ## Keywords -/

/-- A colour keyword comes with channels to start from. -/
def keywordText (keyword : String) : String :=
  if Kind.ofKeyword? keyword = some .color then keyword ++ " 255 255 255" else keyword

def ofKeyword (range : Range) (keyword : Value) : Except Unfit Suggestion :=
  let suggestion (newText : Value) : Suggestion :=
    { label := keyword, newText, range, source := .language, filterText := none }
  match keyword with
  | .text text => .ok (suggestion (.text (keywordText text)))
  | .list _ => .error .keyword
  | .table _ => .error .keyword
  | _ => .ok (suggestion keyword)

def keywords (settings : Settings) (reference : Reference) (range : Range) : Except Unfit (List Suggestion) := do
  let known ← reference.rules.mapM (ofKeyword range)
  let allowed := settings.ruleWhitelist.map fun keyword =>
    { label := .text keyword, newText := .text keyword, range, source := .whitelist, filterText := none }
  return known ++ allowed

/-! ## Values -/

def classes (settings : Settings) (reference : Reference) (range : Range) : Except Unfit (List Suggestion) := do
  let quotes := settings.itemValueQuotes
  let known ← ofValues .reference quotes range (reference.classes.map .text)
  let allowed ← ofValues .whitelist quotes range (settings.classWhitelist.map .text)
  let extra ← ofValues .extra quotes range reference.extraClasses
  return known ++ allowed ++ extra

def ofExtraBase (quotes : Bool) (range : Range) : ExtraBase → Except Unfit Suggestion
  | .name name => ofValue .extra quotes range (.text name)
  | .snippet label text =>
    .ok { label, newText := text, range, source := .extra, filterText := some (inQuotes label) }

def bases (settings : Settings) (reference : Reference) (range : Range) : Except Unfit (List Suggestion) := do
  let quotes := settings.itemValueQuotes
  let known ← ofValues .reference quotes range (reference.lengthIndex.bases.map Base.toValue)
  let allowed ← ofValues .whitelist quotes range (settings.baseWhitelist.map .text)
  let extra ← reference.extraBases.mapM (ofExtraBase quotes range)
  return known ++ allowed ++ extra

def ofSound (range : Range) (entry : Value × Value) : Suggestion :=
  { label := entry.2, newText := entry.1, range, source := .reference, filterText := some (inQuotes entry.1) }

def sounds (settings : Settings) (reference : Reference) (range : Range) : Except Unfit (List Suggestion) := do
  let allowed ← ofValues .whitelist false range (settings.soundWhitelist.map .text)
  return reference.sounds.labels.entries.map (ofSound range) ++ allowed

/-! ## Ranges -/

/-- The range that a value replaces in a rule of many values, in the stretch where the values start. There is none
before the values. -/
def rangeInList (position : Position) (values? : Option Stretch) : Option Range :=
  match values? with
  | none => some (.empty position)
  | some values =>
    if position.character < values.column then none
    else some ((values.valueAt? position).getD (.empty position))

/-- The range that the value replaces in a rule of one value. There is none before the value and after it. -/
def rangeOfOne (position : Position) (values? : Option Stretch) : Option Range :=
  match values? with
  | none => some (.empty position)
  | some values =>
    if position.character < values.column then none
    else
      match values.nextValue? position.line with
      | none => some (.empty position)
      | some (first, _) => if Stretch.touches first position then some first else none

/-! ## Suggestions at a position -/

def valuesAt (settings : Settings) (reference : Reference) (kind : Kind) (rest : Stretch) (position : Position) :
    Except Unfit (List Suggestion) :=
  let fill (range? : Option Range) (suggest : Range → Except Unfit (List Suggestion)) :=
    match range? with
    | none => .ok []
    | some range => suggest range
  match kind with
  | .itemClass => fill (rangeInList position rest.skipEquality) (classes settings reference)
  | .baseType => fill (rangeInList position rest.skipEquality) (bases settings reference)
  | .sound => fill (rangeOfOne position rest.skipEquality) (sounds settings reference)
  | .rarity =>
    fill (rangeOfOne position rest.skipOperator) fun range =>
      ofValues .reference settings.rarityQuotes range reference.rarities
  | .boolean =>
    fill (rangeOfOne position rest.skipEquality) fun range =>
      ofValues .reference settings.booleanQuotes range reference.booleans
  | _ => .ok []

/-- Keywords on the keyword and before it, values after it. A line without a keyword takes one where it is blank up to
the position. -/
def suggest (settings : Settings) (reference : Reference) (line : List Char) (position : Position) :
    Except Unfit (List Suggestion) :=
  match Head.ofLine? position.line line with
  | none =>
    if Text.allBlank (Indexing.before line (position.character + 1)) then
      keywords settings reference (.empty position)
    else .ok []
  | some head =>
    if position.character < head.range.start.character then keywords settings reference (.empty position)
    else if position.character ≤ head.range.stop.character then keywords settings reference head.range
    else
      match Kind.ofKeyword? head.word with
      | none => .ok []
      | some kind => valuesAt settings reference kind head.rest position

end Suggestion

end LootFilter
