import LootFilter.Value.Order

/-! Labels for names, in the order in which the names first came. Documents may use any value as a name that is neither
a list nor a table. -/

set_option autoImplicit false

namespace LootFilter

structure Labels where
  entries : List (Value × Value)

namespace Labels

def empty : Labels := ⟨[]⟩

def isName : Value → Bool
  | .list _ => false
  | .table _ => false
  | _ => true

def putEntry (name label : Value) : List (Value × Value) → List (Value × Value)
  | [] => [(name, label)]
  | entry :: rest =>
    if entry.1.equal name then (entry.1, label) :: rest else entry :: putEntry name label rest

/-- A name that is already there keeps its place and its form; a new one goes to the end. -/
def put (labels : Labels) (name label : Value) : Labels := ⟨putEntry name label labels.entries⟩

def ofTable (fields : Table Value) : Labels := ⟨fields.entries.map fun (name, label) => (.text name, label)⟩

def ofPairs? (pairs : List (Value × Value)) : Option Labels :=
  if pairs.all (isName ·.1) then some (pairs.foldl (fun labels pair => labels.put pair.1 pair.2) empty) else none

def get? (labels : Labels) (name : String) : Option Value :=
  (labels.entries.find? (·.1.isText name)).map Prod.snd

def contains (labels : Labels) (name : String) : Bool := (labels.get? name).isSome

end Labels

end LootFilter
