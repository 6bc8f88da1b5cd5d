import LootFilter.Value

/-! Which values are equal, and which of two values comes later.

Numbers count by what they stand for, whatever their type; booleans are the numbers zero and one. Texts go by their
characters and lists by the first items that differ. Values of other types have no order. -/

set_option autoImplicit false

namespace LootFilter

inductive Amount where
  | fraction (dividend : Int) (divisor : Nat)
  | infinite (negative : Bool)
  | nan
  deriving DecidableEq, Repr

namespace Amount

def ofInteger (value : Int) : Amount := .fraction value 1

def ofReal : Binary64 → Amount
  | .finite negative mantissa exponent =>
    let (upper, lower) := Binary64.magnitude mantissa exponent
    .fraction (Binary64.signed negative upper) lower
  | .infinite negative => .infinite negative
  | .nan => .nan

/-- Nothing is less than a NaN, nor greater. -/
def less : Amount → Amount → Bool
  | .fraction dividend divisor, .fraction other divisor' => decide (dividend * divisor' < other * divisor)
  | .fraction _ _, .infinite negative => !negative
  | .infinite negative, .fraction _ _ => negative
  | .infinite negative, .infinite negative' => negative && !negative'
  | _, _ => false

/-- A NaN is equal to a NaN only. -/
def equal : Amount → Amount → Bool
  | .nan, .nan => true
  | .nan, _ => false
  | _, .nan => false
  | first, second => !first.less second && !second.less first

end Amount

namespace Value

def amount? : Value → Option Amount
  | .boolean value => some (.ofInteger (if value then 1 else 0))
  | .integer value => some (.ofInteger value)
  | .real value => some (.ofReal value)
  | _ => none

def equalPlain (first second : Value) : Bool :=
  match first, second with
  | .null, .null => true
  | .text value, .text other => value == other
  | .moment spelling, .moment other => spelling == other
  | _, _ =>
    match first.amount?, second.amount? with
    | some amount, some other => amount.equal other
    | _, _ => false

mutual

/-- The order of fields does not count. -/
def equal : Value → Value → Bool
  | .list items, .list others => equalItems items others
  | .table ⟨fields⟩, .table others => fields.length == others.entries.length && equalFields fields others
  | first, second => equalPlain first second

def equalItems : List Value → List Value → Bool
  | [], [] => true
  | item :: rest, other :: others => item.equal other && equalItems rest others
  | _, _ => false

def equalFields : List (String × Value) → Table Value → Bool
  | [], _ => true
  | (name, value) :: rest, others =>
    (match others.get? name with
      | some other => value.equal other
      | none => false) && equalFields rest others

end

mutual

def follows? : Value → Value → Option Bool
  | .text value, .text other => some (decide (other < value))
  | .list items, .list others => itemsFollow? items others
  | first, second => do
    let amount ← first.amount?
    let other ← second.amount?
    return other.less amount

def itemsFollow? : List Value → List Value → Option Bool
  | [], _ => some false
  | _ :: _, [] => some true
  | item :: rest, other :: others => if item.equal other then itemsFollow? rest others else item.follows? other

end

end Value

end LootFilter
