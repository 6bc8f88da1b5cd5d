/-! Whether one text occurs inside another. -/

set_option autoImplicit false

namespace LootFilter.Text

def occurs (part : List Char) : List Char → Bool
  | [] => part.isEmpty
  | c :: rest => part.isPrefixOf (c :: rest) || occurs part rest

theorem occurs_iff {part text : List Char} : occurs part text = true ↔ part <:+: text := by
  induction text with
  | nil => simp [occurs]
  | cons c rest ih => simp [occurs, ih, List.infix_cons_iff]

def occursIn (part whole : String) : Bool := occurs part.toList whole.toList

end LootFilter.Text
