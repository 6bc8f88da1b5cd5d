import LootFilter.Limits
import LootFilter.Reference.LengthIndex
import LootFilter.Value.Labels

/-! Reference data: what the game knows of item classes, bases, rules and sounds.

Names, labels and descriptions are kept as documents give them, whatever their type; only classes and their bases are
always texts. -/

set_option autoImplicit false

namespace LootFilter

structure Sounds where
  least : Int
  greatest : Int
  labels : Labels

/-- A base suggestion that is no base of the game: a name, or a label with the text to insert. -/
inductive ExtraBase where
  | name (value : String)
  | snippet (label text : Value)

structure Origin where
  boss : Value := .null
  league : Value := .null
  leagues : List Value := []
  location : Value := .null

inductive Unique where
  | name (value : String)
  | item (name : Value) (origin : Origin)

structure Reference where
  basesByClass : Table (List String)
  classByBase : Table String
  lengthIndex : LengthIndex
  rules : List Value
  occurrences : Table Int
  limits : Table Limits
  rarities : List Value
  booleans : List Value
  sounds : Sounds
  descriptions : Labels
  extraClasses : List Value
  extraBases : List ExtraBase
  uniques : Table (List Unique)

namespace Reference

def classes (reference : Reference) : List String := reference.basesByClass.names

def basesOf (reference : Reference) (itemClass : String) : List String := reference.basesByClass.getD itemClass []

def classOf? (reference : Reference) (base : String) : Option String := reference.classByBase.get? base

inductive Gap where
  | noLimits (keyword : String)
  | noOccurrences (keyword : String)
  | noWords (keyword : String)
  | noBase (keyword : String)
  deriving DecidableEq, Repr

def Gap.message : Gap → String
  | .noWords keyword => s!"no words to list the values of rule '{keyword}'"
  | .noBase keyword => s!"no base where the search for a value of rule '{keyword}' starts"
  | .noLimits keyword => s!"no numeric range defined for rule '{keyword}'"
  | .noOccurrences keyword => s!"no occurrence limit defined for rule '{keyword}'"

/-- Missing limits and counts are expected, and told as errors of the data; any other gap ends a run. -/
def Gap.isExpected : Gap → Bool
  | .noLimits _ => true
  | .noOccurrences _ => true
  | _ => false

def limitsOf (reference : Reference) (keyword : String) : Except Gap Limits :=
  match reference.limits.get? keyword with
  | some limits => .ok limits
  | none => .error (.noLimits keyword)

def occurrencesOf (reference : Reference) (keyword : String) : Except Gap Int :=
  match reference.occurrences.get? keyword with
  | some limit => .ok limit
  | none => .error (.noOccurrences keyword)

def rarityWords (reference : Reference) (keyword : String) : Except Gap (List String) :=
  match Value.wordsOf? reference.rarities with
  | some words => .ok words
  | none => .error (.noWords keyword)

def hasRarity (reference : Reference) (name : String) : Bool := reference.rarities.any (·.isText name)

def booleanWords (reference : Reference) (keyword : String) : Except Gap (List String) :=
  match Value.texts? reference.booleans with
  | some words => .ok words
  | none => .error (.noWords keyword)

end Reference

end LootFilter
