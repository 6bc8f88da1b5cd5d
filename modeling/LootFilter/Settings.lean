import LootFilter.Value

/-! The user's settings: four whitelists and five flags, overlaid from untyped fields.

A field has one name with words joined by underscores and one with inner capitals; both set it, and the last one
counts. -/

set_option autoImplicit false

namespace LootFilter

structure Settings where
  classWhitelist : List String := []
  baseWhitelist : List String := []
  ruleWhitelist : List String := []
  soundWhitelist : List String := []
  alwaysShowAlpha : Bool := false
  performanceHints : Bool := true
  itemValueQuotes : Bool := false
  booleanQuotes : Bool := false
  rarityQuotes : Bool := false
  deriving DecidableEq, Repr

namespace Settings

inductive Whitelist where
  | classes
  | bases
  | rules
  | sounds
  deriving DecidableEq, Repr

inductive Flag where
  | alwaysShowAlpha
  | performanceHints
  | itemValueQuotes
  | booleanQuotes
  | rarityQuotes
  deriving DecidableEq, Repr

inductive Field where
  | whitelist (list : Whitelist)
  | flag (flag : Flag)
  deriving DecidableEq, Repr

def Field.name : Field → String
  | .whitelist .classes => "class_whitelist"
  | .whitelist .bases => "base_whitelist"
  | .whitelist .rules => "rule_whitelist"
  | .whitelist .sounds => "sound_whitelist"
  | .flag .alwaysShowAlpha => "always_show_alpha"
  | .flag .performanceHints => "performance_hints"
  | .flag .itemValueQuotes => "item_value_quotes"
  | .flag .booleanQuotes => "boolean_quotes"
  | .flag .rarityQuotes => "rarity_quotes"

def Field.capitalName : Field → String
  | .whitelist .classes => "classWhitelist"
  | .whitelist .bases => "baseWhitelist"
  | .whitelist .rules => "ruleWhitelist"
  | .whitelist .sounds => "soundWhitelist"
  | .flag .alwaysShowAlpha => "alwaysShowAlpha"
  | .flag .performanceHints => "performanceHints"
  | .flag .itemValueQuotes => "itemValueQuotes"
  | .flag .booleanQuotes => "booleanQuotes"
  | .flag .rarityQuotes => "rarityQuotes"

def Field.all : List Field :=
  [.whitelist .classes, .whitelist .bases, .whitelist .rules, .whitelist .sounds, .flag .alwaysShowAlpha,
   .flag .performanceHints, .flag .itemValueQuotes, .flag .booleanQuotes, .flag .rarityQuotes]

def Field.ofKey? (key : String) : Option Field :=
  Field.all.find? fun field => key == field.name || key == field.capitalName

def whitelist (settings : Settings) : Whitelist → List String
  | .classes => settings.classWhitelist
  | .bases => settings.baseWhitelist
  | .rules => settings.ruleWhitelist
  | .sounds => settings.soundWhitelist

def setWhitelist (settings : Settings) (entries : List String) : Whitelist → Settings
  | .classes => { settings with classWhitelist := entries }
  | .bases => { settings with baseWhitelist := entries }
  | .rules => { settings with ruleWhitelist := entries }
  | .sounds => { settings with soundWhitelist := entries }

def flag (settings : Settings) : Flag → Bool
  | .alwaysShowAlpha => settings.alwaysShowAlpha
  | .performanceHints => settings.performanceHints
  | .itemValueQuotes => settings.itemValueQuotes
  | .booleanQuotes => settings.booleanQuotes
  | .rarityQuotes => settings.rarityQuotes

def setFlag (settings : Settings) (value : Bool) : Flag → Settings
  | .alwaysShowAlpha => { settings with alwaysShowAlpha := value }
  | .performanceHints => { settings with performanceHints := value }
  | .itemValueQuotes => { settings with itemValueQuotes := value }
  | .booleanQuotes => { settings with booleanQuotes := value }
  | .rarityQuotes => { settings with rarityQuotes := value }

structure Mistake where
  source : String
  field : Field
  deriving DecidableEq, Repr

def Mistake.message (mistake : Mistake) : String :=
  let wanted :=
    match mistake.field with
    | .whitelist _ => "a list of strings"
    | .flag _ => "a boolean"
  s!"{mistake.source}: '{mistake.field.name}' must be {wanted}"

def set? (settings : Settings) (field : Field) (value : Value) : Option Settings :=
  match field, value with
  | .whitelist list, .list items => (Value.texts? items).map fun entries => settings.setWhitelist entries list
  | .flag flag, .boolean value => some (settings.setFlag value flag)
  | _, _ => none

def overlayEntry (source : String) (settings : Settings) (entry : String × Value) : Except Mistake Settings :=
  match Field.ofKey? entry.1 with
  | none => .ok settings
  | some field =>
    match settings.set? field entry.2 with
    | some changed => .ok changed
    | none => .error ⟨source, field⟩

/-- Sets the fields of a table in order. One wrong value refuses the whole table. -/
def overlay (source : String) (settings : Settings) (fields : Table Value) : Except Mistake Settings :=
  fields.entries.foldlM (overlayEntry source) settings

def sectionName : String := "item-filter"

/-- Reads an editor's settings; without a table of ours they change nothing. -/
def overlayEditor (settings : Settings) (value : Value) : Except Mistake (Option Settings) :=
  match value with
  | .table fields =>
    match fields.get? sectionName with
    | some (.table inner) => (settings.overlay sectionName inner).map some
    | _ => .ok none
  | _ => .ok none

/-- Whether documents read under `before` have to be read again. -/
def whitelistsDiffer (settings before : Settings) : Bool :=
  settings.classWhitelist != before.classWhitelist || settings.baseWhitelist != before.baseWhitelist ||
    settings.ruleWhitelist != before.ruleWhitelist || settings.soundWhitelist != before.soundWhitelist

end Settings

end LootFilter
