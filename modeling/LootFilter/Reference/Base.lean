import LootFilter.Value.Order

/-! Bases as a document lists them: names, or lists and tables in the place of names. -/

set_option autoImplicit false

namespace LootFilter

inductive Base where
  | name (text : String)
  | list (items : List Value)
  | table (fields : Table Value)

namespace Base

def toValue : Base → Value
  | .name text => .text text
  | .list items => .list items
  | .table fields => .table fields

/-- Only a value that has a length can be a base. -/
def ofValue? : Value → Option Base
  | .text value => some (.name value)
  | .list items => some (.list items)
  | .table fields => some (.table fields)
  | _ => none

@[simp] theorem ofValue?_toValue (base : Base) : ofValue? base.toValue = some base := by
  cases base <;> rfl

def length : Base → Nat
  | .name text => text.length
  | .list items => items.length
  | .table fields => fields.entries.length

/-- A name holds its parts, a list its items, and a table the names of its fields. -/
def holds (base : Base) (value : String) : Bool :=
  match base with
  | .name text => Text.occursIn value text
  | .list items => items.any (·.isText value)
  | .table fields => fields.contains value

def spelled (base : Base) : String := base.toValue.spelled

/-- Whether the first base comes after the second one: by length, and bases of one length by their order as values,
which not all of them have. -/
def follows? (first second : Base) : Option Bool :=
  if first.length < second.length then some false
  else if second.length < first.length then some true
  else if first.toValue.equal second.toValue then some false
  else first.toValue.follows? second.toValue

end Base

end LootFilter
