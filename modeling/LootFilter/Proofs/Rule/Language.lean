import LootFilter.Proofs.Scanner.Reading
import LootFilter.Rule

/-! The language of the rules, as a grammar on texts: which lines have nothing wrong with them.

`Body` relates the text after a keyword to the text that the values of the rule leave over. -/

set_option autoImplicit false

namespace LootFilter

namespace Grammar

def AnyOperator (text rest : List Char) : Prop :=
  text = rest ∨ ∃ operator, Follows Shape.operator text operator rest

def Equality (text rest : List Char) : Prop := text = rest ∨ Follows Shape.operator text .equal rest

def Number (test : Int → Prop) (text rest : List Char) : Prop :=
  ∃ value, Follows Shape.number text value rest ∧ test value

def PerhapsNumber (test : Int → Prop) (text rest : List Char) : Prop := text = rest ∨ Number test text rest

def Choice (test : String → Prop) (text rest : List Char) : Prop :=
  ∃ value, Follows Shape.string text value rest ∧ test value

def Then (first second : List Char → List Char → Prop) (text rest : List Char) : Prop :=
  ∃ middle, first text middle ∧ second middle rest

/-- A part, and only ignored text after it. -/
def Whole (part : List Char → List Char → Prop) (text : List Char) : Prop := ∃ rest, part text rest ∧ Ignorable rest

def Repeat (part : List Char → List Char → Prop) : Nat → List Char → List Char → Prop
  | 0 => fun text rest => text = rest
  | count + 1 => Then part (Repeat part count)

/-- Different strings that all pass a test, and no string after them. -/
def Values (test : String → Prop) (text rest : List Char) : Prop :=
  ∃ values, Strings text values rest ∧ values ≠ [] ∧ values.Nodup ∧ ∀ value ∈ values, test value

def InLimits (limits : Limits) (number : Int) : Prop :=
  (limits.least ≤ number ∧ number ≤ limits.greatest) ∨ number ∈ limits.extras

def InSpan (limits : Limits) (number : Int) : Prop := limits.least ≤ number ∧ number ≤ limits.greatest

def SocketGroup (value : String) : Prop :=
  1 ≤ value.length ∧ value.length ≤ 6 ∧ ∀ c ∈ value.toList, c ∈ ['r', 'g', 'b', 'w', 'R', 'G', 'B', 'W']

def SoundIdentifier (settings : Settings) (sounds : Sounds) (text rest : List Char) : Prop :=
  (∃ name, Follows Shape.word text name rest ∧
    ((∃ label, (.text name, label) ∈ sounds.labels.entries) ∨ name ∈ settings.soundWhitelist)) ∨
  Number (fun number => sounds.least ≤ number ∧ number ≤ sounds.greatest) text rest

def ClassName (settings : Settings) (reference : Reference) (value : String) : Prop :=
  (∃ name ∈ reference.classes, value.toList <:+: name.toList) ∨
    ∃ name ∈ settings.classWhitelist, value.toList <:+: name.toList

/-- A part of the name of a base. A block that asks for classes narrows the bases down to those of the classes whose
name holds one of the parts it asks for; any other block searches the length index, and that search has to answer. -/
def BaseName (settings : Settings) (reference : Reference) (asked : List String) (value : String) : Prop :=
  (asked = [] → (reference.lengthIndex.finds? value).isSome = true) ∧
    ((if asked = [] then reference.lengthIndex.finds value = true
      else ∃ name ∈ reference.classes, (∃ part ∈ asked, part.toList <:+: name.toList) ∧
        ∃ base ∈ reference.basesOf name, value.toList <:+: base.toList) ∨
      ∃ name ∈ settings.baseWhitelist, value.toList <:+: name.toList)

def Body (settings : Settings) (reference : Reference) (block : Block) (keyword : String) :
    Kind → List Char → List Char → Prop
  | .block => fun text rest => text = rest
  | .number => fun text rest =>
    ∃ limits, reference.limits.get? keyword = some limits ∧ Then AnyOperator (Number (InLimits limits)) text rest
  | .fontSize => fun text rest =>
    ∃ limits, reference.limits.get? keyword = some limits ∧ Then Equality (Number (InLimits limits)) text rest
  | .rarity => Then AnyOperator (Choice fun name => .text name ∈ reference.rarities)
  | .socketGroup => Then Equality (Choice SocketGroup)
  | .boolean => Then Equality fun text rest => ∃ value, Follows Shape.boolean text value rest
  | .color => fun text rest =>
    ∃ limits, reference.limits.get? keyword = some limits ∧
      Then Equality (Then (Repeat (Number (InSpan limits)) 3) (PerhapsNumber (InSpan limits))) text rest
  | .itemClass => Then Equality (Values (ClassName settings reference))
  | .baseType => Then Equality (Values (BaseName settings reference block.classes))
  | .sound =>
    Then Equality (Then (SoundIdentifier settings reference.sounds)
      (PerhapsNumber fun volume => 0 ≤ volume ∧ volume ≤ greatestVolume))

/-- The lines with nothing wrong: those that are ignored, words that the user allows, and rules with their values. -/
def Line (settings : Settings) (reference : Reference) (block : Block) (text : List Char) : Prop :=
  Ignorable text ∨
  (∃ word rest, Follows Shape.word text word rest ∧ Kind.ofKeyword? word = none ∧ word ∈ settings.ruleWhitelist) ∨
  ∃ keyword kind rest, Follows Shape.word text keyword rest ∧ Kind.ofKeyword? keyword = some kind ∧
    Whole (Body settings reference block keyword kind) rest

end Grammar

end LootFilter
