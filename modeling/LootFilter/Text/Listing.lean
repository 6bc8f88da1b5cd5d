/-! English enumerations and ordinals. -/

set_option autoImplicit false

namespace LootFilter.Text

/-- Joins items by commas and puts `conjunction` before the last one: `a`, `a, and b`, `a, b, and c`. -/
def enumerate (items : List String) (conjunction : String) : String :=
  match items.getLast? with
  | none => ""
  | some last =>
    match items.dropLast with
    | [] => last
    | others => ", ".intercalate others ++ conjunction ++ " " ++ last

def enumerateAnd (items : List String) : String := enumerate items ", and"

/-- A number with its ordinal ending: 1st, 2nd, 3rd, 4th, 11th, 21st. -/
def ordinal (n : Int) : String :=
  let ending :=
    if 10 ≤ n.emod 100 ∧ n.emod 100 ≤ 20 then "th"
    else if n.emod 10 = 1 then "st"
    else if n.emod 10 = 2 then "nd"
    else if n.emod 10 = 3 then "rd"
    else "th"
  toString n ++ ending

end LootFilter.Text
