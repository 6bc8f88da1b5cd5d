import LootFilter.Reference.Assembly

/-! The reference data that come with the library, and the two documents they can be assembled from. -/

set_option autoImplicit false

namespace LootFilter.Bundled

def classes : List (String × List String) :=
  [("Currency",
    ["Scroll of Wisdom", "Portal Scroll", "Orb of Transmutation", "Orb of Augmentation", "Orb of Alteration",
     "Orb of Alchemy", "Orb of Chance", "Orb of Scouring", "Orb of Regret", "Orb of Fusing", "Chromatic Orb",
     "Jeweller's Orb", "Chaos Orb", "Regal Orb", "Blessed Orb", "Divine Orb", "Exalted Orb", "Vaal Orb",
     "Mirror of Kalandra", "Armourer's Scrap", "Blacksmith's Whetstone", "Glassblower's Bauble",
     "Gemcutter's Prism", "Cartographer's Chisel"]),
   ("Stackable Currency",
    ["Perandus Coin", "Silver Coin", "Splinter of Xoph", "Splinter of Tul", "Splinter of Esh",
     "Splinter of Uul-Netol", "Splinter of Chayula"]),
   ("Divination Card", ["The Doctor", "The Fiend", "House of Mirrors", "The Wolf", "Rain of Chaos", "Humility"]),
   ("Belts",
    ["Chain Belt", "Rustic Sash", "Heavy Belt", "Leather Belt", "Cloth Belt", "Studded Belt", "Vanguard Belt",
     "Crystal Belt", "Stygian Vise"]),
   ("Rings",
    ["Iron Ring", "Coral Ring", "Paua Ring", "Gold Ring", "Ruby Ring", "Sapphire Ring", "Topaz Ring",
     "Diamond Ring", "Moonstone Ring", "Prismatic Ring", "Amethyst Ring", "Two-Stone Ring", "Unset Ring",
     "Opal Ring", "Steel Ring", "Vermillion Ring", "Cerulean Ring"]),
   ("Amulets",
    ["Coral Amulet", "Paua Amulet", "Amber Amulet", "Jade Amulet", "Lapis Amulet", "Gold Amulet", "Onyx Amulet",
     "Turquoise Amulet", "Agate Amulet", "Citrine Amulet", "Marble Amulet", "Blue Pearl Amulet"]),
   ("Body Armours",
    ["Plate Vest", "Shabby Jerkin", "Simple Robe", "Chainmail Vest", "Astral Plate", "Glorious Plate",
     "Vaal Regalia", "Assassin's Garb", "Sadist Garb", "Carnal Armour"]),
   ("Boots",
    ["Iron Greaves", "Leatherscale Boots", "Wool Shoes", "Sorcerer Boots", "Two-Toned Boots", "Slink Boots"]),
   ("Gloves",
    ["Iron Gauntlets", "Rawhide Gloves", "Wool Gloves", "Sorcerer Gloves", "Gripped Gloves", "Spiked Gloves"]),
   ("Helmets", ["Iron Hat", "Leather Cap", "Vine Circlet", "Hubris Circlet", "Royal Burgonet", "Bone Helmet"]),
   ("Quivers",
    ["Two-Point Arrow Quiver", "Serrated Arrow Quiver", "Sharktooth Arrow Quiver", "Spike-Point Arrow Quiver"]),
   ("Life Flasks", ["Small Life Flask", "Medium Life Flask", "Divine Life Flask", "Eternal Life Flask"]),
   ("Mana Flasks", ["Small Mana Flask", "Divine Mana Flask", "Eternal Mana Flask"]),
   ("Hybrid Flasks", ["Small Hybrid Flask", "Sacred Hybrid Flask"]),
   ("Utility Flasks", ["Quicksilver Flask", "Granite Flask", "Diamond Flask", "Silver Flask", "Basalt Flask"]),
   ("Staves", ["Long Staff", "Gnarled Branch", "Quarterstaff", "Maelström Staff", "Eclipse Staff"]),
   ("Wands", ["Driftwood Wand", "Goat's Horn", "Imbued Wand", "Profane Wand"]),
   ("Jewel", ["Crimson Jewel", "Viridian Jewel", "Cobalt Jewel", "Prismatic Jewel"]),
   ("Active Skill Gems", ["Fireball", "Arc", "Cleave", "Vaal Arc", "Vaal Fireball", "Raise Zombie"]),
   ("Support Skill Gems",
    ["Empower Support", "Enlighten Support", "Enhance Support", "Added Fire Damage Support", "Multistrike Support"]),
   ("Maps", ["Beach Map", "Dungeon Map", "Strand Map", "Tower Map", "Shaped Strand Map"]),
   ("Map Fragments",
    ["Sacrifice at Dusk", "Sacrifice at Dawn", "Sacrifice at Noon", "Sacrifice at Midnight", "Mortal Grief",
     "Mortal Hope", "Fragment of the Hydra"])]

def keywords : List String :=
  ["Show", "Hide", "ItemLevel", "DropLevel", "Quality", "Rarity", "Class", "BaseType", "Sockets", "LinkedSockets",
   "SocketGroup", "Height", "Width", "StackSize", "GemLevel", "MapTier", "Identified", "Corrupted", "ElderItem",
   "ShaperItem", "ShapedMap", "ElderMap", "SetBorderColor", "SetTextColor", "SetBackgroundColor", "SetFontSize",
   "PlayAlertSound", "PlayAlertSoundPositional", "DisableDropSound"]

def occurrences : List (String × Int) :=
  [("ItemLevel", 2), ("DropLevel", 2), ("Quality", 2), ("Rarity", 2), ("Class", 1), ("BaseType", 1), ("Sockets", 2),
   ("LinkedSockets", 2), ("SocketGroup", 1), ("Height", 2), ("Width", 2), ("StackSize", 2), ("GemLevel", 2),
   ("MapTier", 2), ("Identified", 1), ("Corrupted", 1), ("ElderItem", 1), ("ShaperItem", 1), ("ShapedMap", 1),
   ("ElderMap", 1), ("SetBorderColor", 1), ("SetTextColor", 1), ("SetBackgroundColor", 1), ("SetFontSize", 1),
   ("PlayAlertSound", 1), ("PlayAlertSoundPositional", 1), ("DisableDropSound", 1)]

def limits : List (String × Limits) :=
  [("ItemLevel", ⟨0, 100, []⟩), ("DropLevel", ⟨0, 100, []⟩), ("Quality", ⟨0, 20, []⟩), ("Sockets", ⟨0, 6, []⟩),
   ("LinkedSockets", ⟨2, 6, [0]⟩), ("Height", ⟨1, 4, []⟩), ("Width", ⟨1, 2, []⟩), ("StackSize", ⟨1, 1000, []⟩),
   ("GemLevel", ⟨1, 21, []⟩), ("MapTier", ⟨1, 16, []⟩), ("SetFontSize", ⟨18, 45, []⟩),
   ("SetBorderColor", ⟨0, 255, []⟩), ("SetTextColor", ⟨0, 255, []⟩), ("SetBackgroundColor", ⟨0, 255, []⟩)]

def soundLabels : List (String × String) :=
  [("ShAlchemy", "Alchemy"), ("ShBlessed", "Blessed"), ("ShChaos", "Chaos"), ("ShDivine", "Divine"),
   ("ShExalted", "Exalted"), ("ShFusing", "Fusing"), ("ShGeneral", "General"), ("ShMirror", "Mirror"),
   ("ShRegal", "Regal"), ("ShVaal", "Vaal")]

def descriptions : List (String × String) :=
  [("Show", "Begins a block that shows every item matching its conditions."),
   ("Hide", "Begins a block that hides every item matching its conditions."),
   ("ItemLevel", "Filters by the level at which the item was generated."),
   ("DropLevel", "Filters by the level at which the item starts dropping."),
   ("Quality", "Filters by the quality of the item."),
   ("Rarity", "Filters by the rarity of the item."),
   ("Class", "Filters by item class. Partial class names match every class containing them."),
   ("BaseType", "Filters by item base type. Partial names match every base type containing them."),
   ("Sockets", "Filters by the number of sockets on the item."),
   ("LinkedSockets", "Filters by the size of the largest group of linked sockets."),
   ("SocketGroup", "Filters by the colors of a linked socket group."),
   ("Height", "Filters by the height of the item within the inventory."),
   ("Width", "Filters by the width of the item within the inventory."),
   ("StackSize", "Filters by the stack size of a currency item."),
   ("GemLevel", "Filters by the level of a skill gem."),
   ("MapTier", "Filters by the tier of a map."),
   ("Identified", "Filters by whether the item is identified."),
   ("Corrupted", "Filters by whether the item is corrupted."),
   ("ElderItem", "Filters by whether the item is an Elder item."),
   ("ShaperItem", "Filters by whether the item is a Shaper item."),
   ("ShapedMap", "Filters by whether the map is shaped."),
   ("ElderMap", "Filters by whether the map is an Elder map."),
   ("SetBorderColor", "Sets the border color of the item label."),
   ("SetTextColor", "Sets the text color of the item label."),
   ("SetBackgroundColor", "Sets the background color of the item label."),
   ("SetFontSize", "Sets the font size of the item label."),
   ("PlayAlertSound", "Plays a sound when the item drops."),
   ("PlayAlertSoundPositional", "Plays a positional sound when the item drops."),
   ("DisableDropSound", "Disables the default drop sound of the item.")]

def extraBases : List ExtraBase :=
  [.name "Sacrifice at", .name "Splinter of",
   .snippet (.text "Mortal Fragments") (.text "\"Mortal Grief\" \"Mortal Hope\"")]

def fromLeagues (name : String) (leagues : List String) : Unique :=
  .item (.text name) { leagues := leagues.map .text }

def uniques : List (String × List Unique) :=
  [("Leather Belt",
    [.item (.text "Headhunter") { league := .text "Nemesis" }, .name "Wurm's Molt", .name "Ryslatha's Coil"]),
   ("Heavy Belt", [.name "Dyadian Dawn", .name "Immortal Flesh"]),
   ("Chain Belt", [.name "Bated Breath"]),
   ("Rustic Sash",
    [.name "Meginord's Girdle", .name "Soulthirst", .name "Prismweave", .name "The Magnate",
     .name "Darkness Enthroned", .item (.text "The Retch") { location := .text "Act 4" }]),
   ("Gold Ring", [.name "Andvarius"]),
   ("Iron Ring", [.name "Blackheart"]),
   ("Coral Ring", [.name "Ming's Heart", fromLeagues "Kikazaru" ["Bestiary", "Standard"]]),
   ("Sorcerer Boots", [.item (.text "Skyforth") { boss := .text "Atziri" }]),
   ("Vaal Regalia", [.name "Shavronne's Wrappings"])]

def rarities : List String := ["Normal", "Magic", "Rare", "Unique"]

def booleans : List String := ["True", "False"]

def labels (entries : List (String × String)) : Labels :=
  .ofTable ⟨entries.map fun (name, label) => (name, .text label)⟩

def sounds : Sounds := ⟨1, 16, labels soundLabels⟩

def reference : Reference where
  basesByClass := ⟨classes⟩
  classByBase := Reference.classByBaseOf ⟨classes⟩
  lengthIndex := .ofNames (Reference.classByBaseOf ⟨classes⟩).names
  rules := keywords.map .text
  occurrences := ⟨occurrences⟩
  limits := ⟨limits⟩
  rarities := rarities.map .text
  booleans := booleans.map .text
  sounds := sounds
  descriptions := labels descriptions
  extraClasses := ["Flasks", "Gems", "Currency"].map .text
  extraBases := extraBases
  uniques := ⟨uniques⟩

/-! ## Documents -/

def texts (names : List String) : Value := .list (names.map .text)

def fields {α : Type} (value : α → Value) (entries : List (String × α)) : Value :=
  .table ⟨entries.map fun (name, entry) => (name, value entry)⟩

def bounds (least greatest : Int) : List (String × Value) := [("min", .integer least), ("max", .integer greatest)]

def limitsValue (limits : Limits) : Value :=
  let extras :=
    if limits.extras.isEmpty then [] else [("additionals", Value.list (limits.extras.map .integer))]
  .table ⟨bounds limits.least limits.greatest ++ extras⟩

def soundsValue : Value :=
  .table
    ⟨[("numberIdentifier", .table ⟨bounds sounds.least sounds.greatest⟩),
      ("stringIdentifiers", fields .text soundLabels)]⟩

def items : Value := fields texts classes

def rules : Value :=
  .table
    ⟨[("rules", texts keywords), ("ruleLimits", fields .integer occurrences),
      ("ruleRanges", fields limitsValue limits), ("rarities", texts rarities), ("booleans", texts booleans),
      ("sounds", soundsValue), ("keywordDescriptions", fields .text descriptions)]⟩

end LootFilter.Bundled
