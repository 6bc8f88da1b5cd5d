/-! Places in a source text. Lines and characters count from zero, and a range ends before its stop. -/

set_option autoImplicit false

namespace LootFilter

structure Position where
  line : Int
  character : Int
  deriving DecidableEq, Repr, Inhabited

structure Range where
  start : Position
  stop : Position
  deriving DecidableEq, Repr, Inhabited

def Range.onLine (line start stop : Int) : Range := ⟨⟨line, start⟩, ⟨line, stop⟩⟩

def Range.empty (position : Position) : Range := ⟨position, position⟩

structure Token (α : Type) where
  value : α
  range : Range
  deriving DecidableEq, Repr

end LootFilter
