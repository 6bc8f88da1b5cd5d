import LootFilter.Text.Integer
import LootFilter.Value

/-! What keeps a text from being read as a value. -/

set_option autoImplicit false

namespace LootFilter

inductive ReadFault where
  | malformed
  | longNumber
  | tooDeep
  deriving DecidableEq, Repr

namespace ReadFault

def message : ReadFault → String
  | .malformed => "the text breaks the rules of its format"
  | .longNumber => s!"a whole number has more than {Text.mostDigits} digits"
  | .tooDeep => "values stand too deep inside of others"

def required {α : Type} : Option α → Except ReadFault α
  | some found => .ok found
  | none => .error .malformed

end ReadFault

end LootFilter
