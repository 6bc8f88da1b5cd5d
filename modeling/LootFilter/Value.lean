import LootFilter.Binary64.Decimal
import LootFilter.Table
import LootFilter.Text.Occurs
import LootFilter.Text.Quoted

/-! Untyped values, as settings files and reference documents hold them. -/

set_option autoImplicit false

namespace LootFilter

inductive Value where
  | null
  | boolean (value : Bool)
  | integer (value : Int)
  | real (value : Binary64)
  | text (value : String)
  | moment (spelling : String)
  | list (items : List Value)
  | table (fields : Table Value)

namespace Value

instance : Inhabited Value := ⟨.null⟩

mutual

def written : Value → String
  | .null => "None"
  | .boolean true => "True"
  | .boolean false => "False"
  | .integer value => toString value
  | .real value => value.toShortest
  | .text value => Text.quoted value
  | .moment spelling => spelling
  | .list items => "[" ++ ", ".intercalate (writtenItems items) ++ "]"
  | .table ⟨fields⟩ => "\x7b" ++ ", ".intercalate (writtenFields fields) ++ "\x7d"

def writtenItems : List Value → List String
  | [] => []
  | item :: rest => item.written :: writtenItems rest

def writtenFields : List (String × Value) → List String
  | [] => []
  | (name, value) :: rest => (Text.quoted name ++ ": " ++ value.written) :: writtenFields rest

end

/-- The text of a value: a text is its own, any other value is spelled out. -/
def spelled : Value → String
  | .text value => value
  | value => value.written

/-- Values that count as absent where a document may be left out. -/
def isVoid : Value → Bool
  | .null => true
  | .boolean value => !value
  | .integer value => value == 0
  | .real (.finite _ mantissa _) => mantissa == 0
  | .text value => value.isEmpty
  | .list items => items.isEmpty
  | .table fields => fields.entries.isEmpty
  | _ => false

/-- What a value runs through: the items of a list, the characters of a text, the names of a table. -/
def elements? : Value → Option (List Value)
  | .list items => some items
  | .text value => some (value.toList.map fun c => .text (String.singleton c))
  | .table fields => some (fields.names.map .text)
  | _ => none

def length? : Value → Option Nat
  | .text value => some value.length
  | .list items => some items.length
  | .table fields => some fields.entries.length
  | _ => none

def isText (text : String) : Value → Bool
  | .text value => value == text
  | _ => false

/-- Whether a value holds a text: a text as a part, a list as an item, and a table as the name of a field. -/
def holds? (part : String) : Value → Option Bool
  | .text value => some (Text.occursIn part value)
  | .list items => some (items.any (·.isText part))
  | .table fields => some (fields.contains part)
  | _ => none

def texts? : List Value → Option (List String)
  | [] => some []
  | .text value :: rest => (texts? rest).map (value :: ·)
  | _ :: _ => none

/-- The words for values that a sentence enumerates. The last one is spelled out; those before it have to be texts. -/
def wordsOf? : List Value → Option (List String)
  | [] => some []
  | [last] => some [last.spelled]
  | .text value :: rest => (wordsOf? rest).map (value :: ·)
  | _ :: _ => none

end Value

end LootFilter
