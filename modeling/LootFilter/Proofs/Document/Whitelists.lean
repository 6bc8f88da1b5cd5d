import LootFilter.Document

/-! Reading looks at no settings but the whitelists. A document that was read under other flags is still current. -/

set_option autoImplicit false

namespace LootFilter

namespace Settings

def whitelistsOnly (settings : Settings) : Settings where
  classWhitelist := settings.classWhitelist
  baseWhitelist := settings.baseWhitelist
  ruleWhitelist := settings.ruleWhitelist
  soundWhitelist := settings.soundWhitelist

theorem whitelistsOnly_eq_iff {settings before : Settings} :
    settings.whitelistsOnly = before.whitelistsOnly ↔ settings.whitelistsDiffer before = false := by
  simp only [whitelistsOnly, whitelistsDiffer, mk.injEq, and_true, Bool.or_eq_false_iff, bne_eq_false_iff_eq, and_assoc]

@[simp] theorem whitelistsDiffer_self (settings : Settings) : settings.whitelistsDiffer settings = false :=
  whitelistsOnly_eq_iff.mp rfl

end Settings

section
variable (settings : Settings) (reference : Reference)

theorem Rule.read_whitelistsOnly (kind : Kind) (keyword : String) (head : Range) (cursor : Cursor) (block : Block) :
    read settings.whitelistsOnly reference kind keyword head cursor block =
      read settings reference kind keyword head cursor block := by
  cases kind <;> rfl

theorem Line.read_whitelistsOnly (row : Int) (text : List Char) (block : Block) :
    read settings.whitelistsOnly reference row text block = read settings reference row text block := by
  simp only [read, readFrom, Rule.read_whitelistsOnly]
  rfl

theorem Progress.step_whitelistsOnly (row : Int) (text : List Char) (progress : Progress) :
    progress.step settings.whitelistsOnly reference row text = progress.step settings reference row text := by
  simp only [step, Line.read_whitelistsOnly]

namespace Document

theorem readLines_whitelistsOnly (row : Int) (progress : Progress) (texts : List (List Char)) :
    readLines settings.whitelistsOnly reference row progress texts =
      readLines settings reference row progress texts := by
  induction texts generalizing row progress with
  | nil => rfl
  | cons text rest ih => simp only [readLines, Progress.step_whitelistsOnly, ih]

theorem read_whitelistsOnly (text : List Char) :
    read settings.whitelistsOnly reference text = read settings reference text := by
  rw [read, readLines_whitelistsOnly, read]

end Document

end

theorem Document.read_of_same_whitelists {settings before : Settings}
    (same : settings.whitelistsDiffer before = false) (reference : Reference) (text : List Char) :
    read settings reference text = read before reference text := by
  rw [← read_whitelistsOnly settings, Settings.whitelistsOnly_eq_iff.mpr same, read_whitelistsOnly]

end LootFilter
