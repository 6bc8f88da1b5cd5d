import LootFilter.Reference
import LootFilter.Text.Integer
import LootFilter.Value

/-! Assembling reference data from documents: items by class, the rules of the filter language, suggestions, and
unique items. The first two have to be there. -/

set_option autoImplicit false

namespace LootFilter.Reference

inductive Defect where
  | missingField (name : String)
  | malformed
  | notTable
  | unbounded
  | index (flaw : LengthIndex.Flaw)
  deriving DecidableEq, Repr

def Defect.message : Defect → String
  | .missingField name => s!"malformed reference data: '{name}'"
  | .malformed => "malformed reference data: <detail>"
  | .notTable => "a table is expected in the reference data"
  | .unbounded => "an infinite number stands in the reference data"
  | .index (.unordered base) => s!"sorted bases out of order at '{base}'"
  | .index .unlike => "bases of one length have no order"
  | .index .unmeasured => "a base has no length"
  | .index (.wrongCount expected found) => s!"expected {expected} length indices, got {found}"
  | .index (.misplaced length start) => s!"length index for {length} points at {start.spelled}"
  | .index .noPosition => "a length index is no position"
  | .index (.outside position) => s!"length index {position} lies outside of the bases"

/-! ## Parts of documents -/

def fieldOf (name : String) : Value → Except Defect Value
  | .table fields =>
    match fields.get? name with
    | some value => .ok value
    | none => .error (.missingField name)
  | _ => .error .malformed

def tableOf : Value → Except Defect (Table Value)
  | .table fields => .ok fields
  | _ => .error .notTable

def elementsOf (value : Value) : Except Defect (List Value) :=
  match value.elements? with
  | some elements => .ok elements
  | none => .error .malformed

def namesOf (value : Value) : Except Defect (List String) := (elementsOf value).map (·.map Value.spelled)

/-- Whether a document names a field. A list is asked for an item of that name and a text for a part. -/
def mentions (name : String) (value : Value) : Except Defect Bool :=
  match value.holds? name with
  | some answer => .ok answer
  | none => .error .malformed

/-- The whole number of a value: reals lose their fraction, and a text may spell a number. -/
def integerOf : Value → Except Defect Int
  | .integer value => .ok value
  | .boolean value => .ok (if value then 1 else 0)
  | .real (.infinite _) => .error .unbounded
  | .real value =>
    match value.truncated? with
    | some whole => .ok whole
    | none => .error .malformed
  | .text value =>
    match Text.integer? value with
    | some whole => .ok whole
    | none => .error .malformed
  | _ => .error .malformed

/-! ## Items -/

def basesByClassOf (value : Value) : Except Defect (Table (List String)) := do
  let fields ← tableOf value
  let entries ← fields.entries.mapM fun (itemClass, bases) => return (itemClass, ← namesOf bases)
  return .ofList entries

/-- A base in several classes belongs to the last of them. -/
def classByBaseOf (basesByClass : Table (List String)) : Table String :=
  .ofList (basesByClass.entries.flatMap fun (itemClass, bases) => bases.map fun base => (base, itemClass))

def ofFlaw : LengthIndex.Flaw → Defect
  | .unlike => .malformed
  | .unmeasured => .malformed
  | .noPosition => .malformed
  | flaw => .index flaw

def givenIndex (bases starts : Value) : Except Defect LengthIndex := do
  let bases ← elementsOf bases
  let starts ← elementsOf starts
  (LengthIndex.ofValues bases starts).mapError ofFlaw

/-- The length index that a document gives, or else the one of all bases. -/
def lengthIndexOf (items : Value) (bases : List String) : Except Defect LengthIndex := do
  if (← mentions "sortedBases" items) && (← mentions "sortedBasesIndices" items) then
    givenIndex (← fieldOf "sortedBases" items) (← fieldOf "sortedBasesIndices" items)
  else return .ofNames bases

/-! ## Rules -/

def limitsEntry (entry : String × Value) : Except Defect (String × Limits) := do
  let least ← integerOf (← fieldOf "min" entry.2)
  let greatest ← integerOf (← fieldOf "max" entry.2)
  let extras ←
    match (← tableOf entry.2).get? "additionals" with
    | none => pure []
    | some extras => (← elementsOf extras).mapM integerOf
  return (entry.1, ⟨least, greatest, extras⟩)

def limitsTableOf (rules : Value) : Except Defect (Table Limits) := do
  let fields ← tableOf (← fieldOf "ruleRanges" rules)
  return .ofList (← fields.entries.mapM limitsEntry)

/-- Names with labels: a table, or a list of pairs. -/
def labelsOf : Value → Except Defect Labels
  | .table fields => .ok (.ofTable fields)
  | .list items => do
    let pairs ← items.mapM fun item =>
      match item.elements? with
      | some [name, label] => .ok (name, label)
      | _ => .error Defect.malformed
    match Labels.ofPairs? pairs with
    | some labels => return labels
    | none => .error .malformed
  | .text value => if value.isEmpty then .ok .empty else .error .malformed
  | _ => .error .malformed

def soundsOf (rules : Value) : Except Defect Sounds := do
  let sounds ← fieldOf "sounds" rules
  let numbers ← fieldOf "numberIdentifier" sounds
  let least ← integerOf (← fieldOf "min" numbers)
  let greatest ← integerOf (← fieldOf "max" numbers)
  let labels ← labelsOf (← fieldOf "stringIdentifiers" sounds)
  return ⟨least, greatest, labels⟩

def occurrencesTableOf (rules : Value) : Except Defect (Table Int) := do
  let fields ← tableOf (← fieldOf "ruleLimits" rules)
  return .ofList (← fields.entries.mapM fun (keyword, limit) => return (keyword, ← integerOf limit))

def descriptionsOf (rules : Value) : Except Defect Labels := do
  match (← tableOf rules).get? "keywordDescriptions" with
  | none => return .empty
  | some descriptions => labelsOf descriptions

/-! ## Suggestions and unique items -/

def optionalTable (value : Value) : Except Defect (Table Value) :=
  if value.isVoid then .ok .empty else tableOf value

def optionalElements (fields : Table Value) (name : String) : Except Defect (List Value) :=
  match fields.get? name with
  | none => .ok []
  | some value => elementsOf value

def extraBaseOf : Value → Except Defect ExtraBase
  | .text name => .ok (.name name)
  | entry => do
    let label ← fieldOf "name" entry
    let text ← fieldOf "text" entry
    return .snippet label text

def extraClassOf : Value → Except Defect Value
  | .text name => .ok (.text name)
  | entry => fieldOf "name" entry

def uniqueOf : Value → Except Defect Unique
  | .text name => .ok (.name name)
  | entry => do
    let name ← fieldOf "name" entry
    let fields ← tableOf entry
    let leagues ← optionalElements fields "leagues"
    let origin : Origin :=
      { boss := fields.getD "boss" .null
        league := fields.getD "league" .null
        leagues
        location := fields.getD "location" .null }
    return .item name origin

def uniquesOf (uniques : Value) : Except Defect (Table (List Unique)) := do
  let fields ← optionalTable uniques
  let entries ← fields.entries.mapM fun (base, entries) => return (base, ← (← elementsOf entries).mapM uniqueOf)
  return .ofList entries

/-! ## Assembly -/

/-- Assembles reference data; the first defect in reading order counts. -/
def assemble (items rules suggestions uniques : Value) : Except Defect Reference := do
  let basesByClass ←
    if ← mentions "classesToBases" items then basesByClassOf (← fieldOf "classesToBases" items)
    else basesByClassOf items
  let classByBase := classByBaseOf basesByClass
  let lengthIndex ← lengthIndexOf items classByBase.names
  let limits ← limitsTableOf rules
  let sounds ← soundsOf rules
  let extras ← optionalTable suggestions
  let extraBases ← (← optionalElements extras "extraBases").mapM extraBaseOf
  let extraClasses ← (← optionalElements extras "extraClasses").mapM extraClassOf
  let uniques ← uniquesOf uniques
  let keywords ← elementsOf (← fieldOf "rules" rules)
  let occurrences ← occurrencesTableOf rules
  let rarities ← elementsOf (← fieldOf "rarities" rules)
  let booleans ← elementsOf (← fieldOf "booleans" rules)
  let descriptions ← descriptionsOf rules
  return {
    basesByClass, classByBase, lengthIndex, occurrences, limits, rarities, booleans, sounds, descriptions
    extraClasses, extraBases, uniques
    rules := keywords }

end LootFilter.Reference
