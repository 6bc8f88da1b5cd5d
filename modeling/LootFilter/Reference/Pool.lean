import LootFilter.Finding
import LootFilter.Reference

/-! The bases that a `BaseType` rule may name: all of them, or those of the classes that its block asks for. -/

set_option autoImplicit false

namespace LootFilter

inductive Pool where
  | all (index : LengthIndex)
  | ofClasses (classes : List String) (bases : List String)

namespace Pool

/-- The classes whose name holds one of the parts, in the order in which the parts find them. -/
def expand (classes parts : List String) : List String :=
  (parts.flatMap fun part => classes.filter (Text.occursIn part)).eraseDups

def choose (reference : Reference) (parts : List String) : Pool :=
  if parts.isEmpty then .all reference.lengthIndex
  else
    let classes := expand reference.classes parts
    .ofClasses classes (classes.flatMap reference.basesOf)

/-- Looks for a base of the pool that holds the value. Only a length index can fail to answer. -/
def finds? (pool : Pool) (value : String) : Option Bool :=
  match pool with
  | .all index => index.finds? value
  | .ofClasses _ bases => some (bases.any (Text.occursIn value))

def finds (pool : Pool) (value : String) : Bool := (pool.finds? value).getD false

def answers (pool : Pool) (value : String) : Bool := (pool.finds? value).isSome

@[simp] theorem finds_ofClasses (classes bases : List String) (value : String) :
    (ofClasses classes bases).finds value = bases.any (Text.occursIn value) := rfl

/-- With a length index that is searchable, every look-up in the pool of a block answers. -/
theorem answers_choose {reference : Reference} (searchable : reference.lengthIndex.Searchable) (parts : List String)
    (value : String) : (choose reference parts).answers value = true := by
  unfold choose
  split
  · rw [answers, finds?, searchable.finds?_eq_some, Option.isSome_some]
  · rfl

def accepts (pool : Pool) (whitelist : List String) (value : String) : Bool :=
  pool.finds value || whitelist.any (Text.occursIn value)

/-- The classes that were searched; none when every base was. -/
def searched : Pool → List String
  | .all _ => []
  | .ofClasses classes _ => classes

def expectation (pool : Pool) : Expectation :=
  if pool.searched.isEmpty then .itemBase else .baseOf pool.searched

end Pool

end LootFilter
