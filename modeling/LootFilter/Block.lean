import LootFilter.Source
import LootFilter.Table

/-! The block that a line stands in: its head, the classes it has asked for, and the count of each rule so far. -/

set_option autoImplicit false

namespace LootFilter

structure Block where
  root : Option Range := none
  classes : List String := []
  counts : Table Int := .empty
  deriving DecidableEq, Repr

namespace Block

def start (root : Option Range) : Block := { root }

def occurrences (block : Block) (keyword : String) : Int := block.counts.getD keyword 0

def record (block : Block) (keyword : String) : Block :=
  { block with counts := block.counts.put keyword (block.occurrences keyword + 1) }

def addClasses (block : Block) (classes : List String) : Block :=
  { block with classes := block.classes ++ classes }

end Block

end LootFilter
