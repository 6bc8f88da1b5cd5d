/-! The kinds of rules, and the keyword of each. -/

set_option autoImplicit false

namespace LootFilter

inductive Kind where
  | block
  | number
  | fontSize
  | rarity
  | socketGroup
  | boolean
  | color
  | itemClass
  | baseType
  | sound
  deriving DecidableEq, Repr

def Kind.keywords : List (String × Kind) :=
  [("Show", .block), ("Hide", .block),
   ("ItemLevel", .number), ("DropLevel", .number), ("Quality", .number), ("Sockets", .number),
   ("LinkedSockets", .number), ("Height", .number), ("Width", .number), ("StackSize", .number),
   ("GemLevel", .number), ("MapTier", .number),
   ("SetFontSize", .fontSize),
   ("Rarity", .rarity),
   ("SocketGroup", .socketGroup),
   ("Identified", .boolean), ("Corrupted", .boolean), ("ElderItem", .boolean), ("ShaperItem", .boolean),
   ("ShapedMap", .boolean), ("ElderMap", .boolean), ("DisableDropSound", .boolean),
   ("SetBorderColor", .color), ("SetTextColor", .color), ("SetBackgroundColor", .color),
   ("Class", .itemClass),
   ("BaseType", .baseType),
   ("PlayAlertSound", .sound), ("PlayAlertSoundPositional", .sound)]

def Kind.ofKeyword? (keyword : String) : Option Kind := Kind.keywords.lookup keyword

end LootFilter
