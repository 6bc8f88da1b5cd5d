import LootFilter.Indexing
import LootFilter.Reference.Base

/-! Base names sorted by length, with the place where the names of at least a given length start.

A name can only hold a value that is no longer than itself, so a search for a value starts at the first name of at
least its length. -/

set_option autoImplicit false

namespace LootFilter

/-- A position among the bases. Documents may write the first two as booleans. -/
inductive Start where
  | number (position : Int)
  | flag (second : Bool)
  deriving DecidableEq, Repr

namespace Start

def position : Start → Int
  | .number position => position
  | .flag second => if second then 1 else 0

def toValue : Start → Value
  | .number position => .integer position
  | .flag second => .boolean second

def ofValue? : Value → Option Start
  | .integer value => some (.number value)
  | .boolean value => some (.flag value)
  | _ => none

def spelled (start : Start) : String := start.toValue.spelled

end Start

/-- `starts` has one entry per length from one up to the longest name. -/
structure LengthIndex where
  bases : List Base
  starts : List Start

namespace LengthIndex

inductive Flaw where
  | unordered (base : String)
  | unlike
  | unmeasured
  | wrongCount (expected found : Nat)
  | misplaced (length : Nat) (start : Start)
  | outside (position : Int)
  | noPosition
  deriving DecidableEq, Repr

/-- Shorter names come first, and names of one length by their characters. -/
def precedes (first second : String) : Bool :=
  first.length < second.length || (first.length == second.length && decide (first < second))

theorem follows?_name (first second : String) :
    (Base.name first).follows? (.name second) = some (precedes second first) := by
  have same : (Value.text first).equal (.text second) = (first == second) := rfl
  rcases Nat.lt_trichotomy first.length second.length with less | equal | greater
  · simp [Base.follows?, Base.length, precedes, less, Nat.not_lt.2 (Nat.le_of_lt less), Nat.ne_of_gt less]
  · by_cases identical : first = second
    · subst identical
      simp [Base.follows?, Base.toValue, same, precedes]
    · simp [Base.follows?, Base.length, Base.toValue, same, identical, Value.follows?, precedes, equal]
  · simp [Base.follows?, Base.length, precedes, greater, Nat.not_lt.2 (Nat.le_of_lt greater)]

def insertName (name : String) : List String → List String
  | [] => [name]
  | head :: rest =>
    if name = head then head :: rest
    else if precedes name head then name :: head :: rest
    else head :: insertName name rest

def sortNames (names : List String) : List String := names.foldl (fun sorted name => insertName name sorted) []

/-- A name opens every length past `covered` up to its own. -/
def startsFrom (covered position : Nat) : List String → List Start
  | [] => []
  | base :: rest =>
    List.replicate (base.length - covered) (.number position) ++
      startsFrom (max covered base.length) (position + 1) rest

def ofNames (names : List String) : LengthIndex :=
  let bases := sortNames names
  ⟨bases.map .name, startsFrom 0 0 bases⟩

def checkOrder : List Base → Except Flaw Unit
  | first :: second :: rest =>
    match first.follows? second with
    | none => .error .unlike
    | some true => .error (.unordered second.spelled)
    | some false => checkOrder (second :: rest)
  | _ => .ok ()

def longest (bases : List Base) : Nat := (bases.getLast?.map Base.length).getD 0

def checkCount (bases : List Base) (count : Nat) : Except Flaw Unit :=
  if count = longest bases then .ok () else .error (.wrongCount (longest bases) count)

/-- The entry for a length must lead to a base that is long enough, with no such base right before it. -/
def checkStarts (bases : List Base) : Nat → List Start → Except Flaw Unit
  | _, [] => .ok ()
  | length, start :: rest =>
    match Indexing.at? bases start.position with
    | none => .error (.outside start.position)
    | some base =>
      if base.length < length ||
          (0 < start.position &&
            (Indexing.at? bases (start.position - 1)).any fun earlier => length ≤ earlier.length) then
        .error (.misplaced length start)
      else checkStarts bases (length + 1) rest

def check (index : LengthIndex) : Except Flaw Unit := do
  checkOrder index.bases
  checkCount index.bases index.starts.length
  checkStarts index.bases 1 index.starts

def leading {α β : Type} (answer? : α → Option β) : List α → List β
  | [] => []
  | item :: rest =>
    match answer? item with
    | none => []
    | some answer => answer :: leading answer? rest

/-- Takes values for a length index if they are one. They are checked in order, so that a value of the wrong type only
counts when nothing before it is wrong. -/
def ofValues (bases starts : List Value) : Except Flaw LengthIndex := do
  let measured := leading Base.ofValue? bases
  let positions := leading Start.ofValue? starts
  checkOrder measured
  if measured.length < bases.length then .error .unmeasured
  checkCount measured starts.length
  checkStarts measured 1 positions
  if positions.length < starts.length then .error .noPosition
  return ⟨measured, positions⟩

def startFor (index : LengthIndex) (length : Nat) : Int :=
  if length = 0 then 0 else (index.starts.map Start.position).getD (length - 1) 0

/-- Looks for a base that holds the value, from the first one that is long enough. The search fails if it would start
before all bases, counted from their end. -/
def finds? (index : LengthIndex) (value : String) : Option Bool :=
  if index.starts.length < value.length then some false
  else
    let start := index.startFor value.length
    if -start ≤ index.bases.length then some ((Indexing.upwardFrom index.bases start).any (·.holds value))
    else none

def finds (index : LengthIndex) (value : String) : Bool := (index.finds? value).getD false

/-- No start lies before all bases, so that every search answers. -/
def Searchable (index : LengthIndex) : Prop := ∀ start ∈ index.starts, -start.position ≤ index.bases.length

instance (index : LengthIndex) : Decidable index.Searchable :=
  inferInstanceAs (Decidable (∀ start ∈ index.starts, _))

theorem Searchable.neg_startFor_le {index : LengthIndex} (searchable : index.Searchable) (length : Nat) :
    -index.startFor length ≤ index.bases.length := by
  rw [startFor, List.getD_eq_getElem?_getD, List.getElem?_map]
  split
  · omega
  · cases found : index.starts[length - 1]? with
    | none => simp
    | some start => exact searchable start (List.mem_of_getElem? found)

theorem Searchable.finds?_eq_some {index : LengthIndex} (searchable : index.Searchable) (value : String) :
    index.finds? value = some (index.finds value) := by
  rw [finds, finds?]
  split
  · rfl
  · simp only [searchable.neg_startFor_le, if_true, Option.getD_some]

end LengthIndex

end LootFilter
