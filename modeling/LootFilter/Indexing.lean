/-! Lists read by a signed index: a negative index counts from the end. -/

set_option autoImplicit false

namespace LootFilter.Indexing

variable {α : Type}

/-- The item at an index from `-length` up to `length - 1`. -/
def at? (items : List α) (index : Int) : Option α :=
  if 0 ≤ index then items[index.toNat]?
  else if -index ≤ items.length then items[items.length - (-index).toNat]?
  else none

/-- The items met when the index counts up to the end of the list: a negative start meets the last items,
and after them the whole list. -/
def upwardFrom (items : List α) (start : Int) : List α :=
  if 0 ≤ start then items.drop start.toNat
  else items.drop (items.length - (-start).toNat) ++ items

def before (items : List α) (stop : Int) : List α :=
  if 0 ≤ stop then items.take stop.toNat else items.take (items.length - (-stop).toNat)

end LootFilter.Indexing
