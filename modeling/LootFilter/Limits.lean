import LootFilter.Text.Listing

/-! The numbers that a rule takes: a closed interval and single numbers beside it. -/

set_option autoImplicit false

namespace LootFilter

structure Limits where
  least : Int
  greatest : Int
  extras : List Int
  deriving DecidableEq, Repr

namespace Limits

def spans (limits : Limits) (number : Int) : Bool := limits.least ≤ number && number ≤ limits.greatest

def contains (limits : Limits) (number : Int) : Bool := limits.spans number || limits.extras.contains number

def describe (limits : Limits) : String :=
  if limits.extras.isEmpty then
    s!"Valid values are between {limits.least} and {limits.greatest}."
  else
    let extras := Text.enumerate (limits.extras.map toString) ", or"
    s!"Valid values are either {limits.least}-{limits.greatest} or {extras}."

end Limits

end LootFilter
