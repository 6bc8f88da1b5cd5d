import LootFilter.Editor.Stretch
import LootFilter.Kind
import LootFilter.Reference
import LootFilter.Text.Occurs

/-! What an editor shows about the word under the pointer: the meaning of a keyword, and what a class or base value
matches. -/

set_option autoImplicit false

namespace LootFilter

/-- A note in Markdown about a range. The description of a keyword is a note as the reference data have it. -/
structure Hover where
  contents : Value
  range : Range

namespace Hover

def separator : String := "\n\n---\n\n"

def listed : Nat := 5

def baseSummary : String :=
  "A base type to be captured by the closing block. As a string value, if the base type consists of a multi-word " ++
  "value, then it must be encapsulated in quotation marks. This value can be partial, with all item bases " ++
  "containing that partial string then being matched."

def classSummary : String :=
  "An item class to be captured by the closing block. As a string value, if the item class consists of a " ++
  "multi-word value, then it must be encapsulated in quotation marks. This value can be partial, with all item " ++
  "classes containing that partial string then being matched."

def code (text : String) : String := "`" ++ text ++ "`"

def bullets (items : List String) : String := String.join (items.map fun item => "- " ++ item ++ "\n")

def originParts (origin : Origin) : List Value :=
  ([origin.boss, origin.location, origin.league] ++ origin.leagues).filter (!·.isVoid)

def uniqueText : Unique → String
  | .name value => value
  | .item name origin => " ".intercalate (name.spelled :: (originParts origin).map fun part => code part.spelled)

/-- The bases that hold a value, class by class, without the classes that have none. -/
def matchingBases (reference : Reference) (value : String) : List (String × List String) :=
  (reference.classes.map fun itemClass =>
    (itemClass, (reference.basesOf itemClass).filter (Text.occursIn value))).filter (!·.2.isEmpty)

def classesText (classes bases : List String) : String :=
  match classes with
  | [] => ""
  | [single] => separator ++ "Class: " ++ code single ++ "\n\n"
  | _ =>
    let count :=
      if listed < bases.length then "\n\nMatched Items: " ++ code (toString bases.length) ++ "\n\n"
      else if 1 < bases.length then "\n\nMatched Items:\n" ++ bullets bases ++ "\n\n"
      else ""
    separator ++ "Classes:" ++ String.join (classes.map fun itemClass => " " ++ code itemClass) ++ count

def uniquesText (uniques : List Unique) : String :=
  let more :=
    if listed < uniques.length then s!"- ... and {uniques.length - listed} more." else ""
  "Uniques:\n" ++ bullets ((uniques.take listed).map uniqueText) ++ more

def baseText (reference : Reference) (value : String) : String :=
  let found := matchingBases reference value
  let classes := found.map Prod.fst
  let bases := found.flatMap Prod.snd
  let uniques := bases.flatMap fun base => reference.uniques.getD base []
  let about :=
    if uniques.isEmpty then ""
    else (if classes.isEmpty then separator else "") ++ uniquesText uniques
  baseSummary ++ classesText classes bases ++ about

def classText (reference : Reference) (value : String) : String :=
  let found := reference.classes.filter (Text.occursIn value)
  let count := (found.flatMap reference.basesOf).length
  let names :=
    match found with
    | [] => ""
    | [single] => separator ++ "Class " ++ code single ++ "\n\n"
    | _ => separator ++ "Matched Classes:\n" ++ bullets found ++ "\n"
  let items :=
    if count = 0 then ""
    else (if found.isEmpty then separator else "") ++ "Items: " ++ code (toString count)
  classSummary ++ names ++ items

def ofValue? (note : String → String) (line : List Char) (head : Head) (position : Position) : Option Hover := do
  let values ← head.rest.skipEquality
  if position.character < values.column then none
  else
    let range ← values.valueAt? position
    let start := range.start.character.toNat
    let stop := range.stop.character.toNat
    let value := Stretch.unquote ((line.drop start).take (stop - start))
    if value.isEmpty then none else some ⟨.text (note (String.ofList value)), range⟩

def at? (reference : Reference) (line : List Char) (position : Position) : Option Hover := do
  let head ← Head.ofLine? position.line line
  if position.character < head.range.start.character then none
  else if position.character < head.range.stop.character then
    let description ← reference.descriptions.get? head.word
    if description.isVoid then none else some ⟨description, head.range⟩
  else
    match Kind.ofKeyword? head.word with
    | some .baseType => ofValue? (baseText reference) line head position
    | some .itemClass => ofValue? (classText reference) line head position
    | _ => none

end Hover

end LootFilter
