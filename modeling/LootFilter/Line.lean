import LootFilter.Rule

/-! Reading one line of a filter. -/

set_option autoImplicit false

namespace LootFilter

/-- The first word of a line, and the kind of rule it names if the language has it. -/
structure KeywordMark where
  name : String
  range : Range
  kind : Option Kind
  deriving DecidableEq, Repr

structure Line where
  row : Int
  range : Range
  findings : List Finding := []
  color : Option ColorMark := none
  sound : Option SoundMark := none
  keyword : Option KeywordMark := none
  deriving DecidableEq, Repr

inductive LineFault where
  | multiline (text : String)
  | gap (cause : Reference.Gap)
  deriving DecidableEq, Repr

def LineFault.message : LineFault → String
  | .multiline text => "text spans multiple lines: " ++ Text.quoted text
  | .gap cause => cause.message

namespace Line

def kind? (line : Line) : Option Kind := line.keyword.bind KeywordMark.kind

def isKnown (line : Line) : Bool := line.kind?.isSome

def addFinding (line : Line) (finding : Finding) : Line := { line with findings := line.findings ++ [finding] }

def readFrom (settings : Settings) (reference : Reference) (cursor : Cursor) (block : Block)
    (numbers : Cursor.NumberReader := Cursor.readNumber) : Except Reference.Gap (Line × Block) :=
  let line : Line := { row := cursor.row, range := cursor.lineRange }
  if cursor.isIgnorable then .ok (line, block)
  else
    match cursor.readWord with
    | (none, _) => .ok ({ line with findings := [⟨.unreadableKeyword, cursor.lineRange⟩] }, block)
    | (some word, cursor) =>
      let kind? := Kind.ofKeyword? word.value
      let line := { line with keyword := some ⟨word.value, word.range, kind?⟩ }
      match kind? with
      | none =>
        if settings.ruleWhitelist.contains word.value then .ok (line, block)
        else .ok ({ line with findings := [⟨.unknownKeyword, word.range⟩] }, block)
      | some kind => do
        let (outcome, block) ← Rule.read settings reference kind word.value word.range cursor block numbers
        return ({ line with findings := outcome.findings, color := outcome.color, sound := outcome.sound }, block)

/-- Reads a line in the block that the lines before it have left, and answers the block for the next one. -/
def read (settings : Settings) (reference : Reference) (row : Int) (text : List Char) (block : Block)
    (numbers : Cursor.NumberReader := Cursor.readNumber) : Except LineFault (Line × Block) :=
  match Cursor.ofLine? row text with
  | none => .error (.multiline (String.ofList text))
  | some cursor => (readFrom settings reference cursor block numbers).mapError .gap

end Line

end LootFilter
