import LootFilter.Line

/-! Reading a whole filter, line by line: a rule has to stand in a block, and a block takes each rule only so often. -/

set_option autoImplicit false

namespace LootFilter

structure Progress where
  block : Block := {}
  blockFound : Bool := false
  deriving DecidableEq, Repr

namespace Progress

def place (reference : Reference) (progress : Progress) (line : Line) : Except Reference.Gap (Line × Progress) :=
  match line.keyword with
  | some ⟨name, range, some kind⟩ =>
    if kind = .block then .ok (line, { progress with blockFound := true })
    else if !progress.blockFound then .ok (line.addFinding ⟨.outsideBlock name, line.range⟩, progress)
    else do
      let limit ← reference.occurrencesOf name
      let previous := progress.block.occurrences name
      let next := { progress with block := progress.block.record name }
      if previous < limit then return (line, next)
      else return (line.addFinding ⟨.tooMany name (previous + 1) limit, range⟩, next)
  | _ => .ok (line, progress)

/-- Reads and places one line. A line that was read changes the block even if it cannot be placed. -/
def step (settings : Settings) (reference : Reference) (row : Int) (text : List Char) (progress : Progress) :
    Except LineFault Line × Progress :=
  match Line.read settings reference row text progress.block with
  | .error fault => (.error fault, progress)
  | .ok (line, block) =>
    let progress := { progress with block }
    match progress.place reference line with
    | .error gap => (.error (.gap gap), progress)
    | .ok (line, progress) => (.ok line, progress)

end Progress

structure Document where
  lines : List Line
  deriving DecidableEq, Repr

namespace Document

def findings (document : Document) : List Finding := document.lines.flatMap Line.findings

def colors (document : Document) : List ColorMark := document.lines.filterMap Line.color

def sounds (document : Document) : List SoundMark := document.lines.filterMap Line.sound

def hasErrors (document : Document) : Bool := document.findings.any Finding.isError

def readLines (settings : Settings) (reference : Reference) :
    Int → Progress → List (List Char) → Except LineFault (List Line)
  | _, _, [] => .ok []
  | row, progress, text :: rest =>
    match progress.step settings reference row text with
    | (.error fault, _) => .error fault
    | (.ok line, progress) => do
      let lines ← readLines settings reference (row + 1) progress rest
      return line :: lines

def read (settings : Settings) (reference : Reference) (text : List Char) : Except LineFault Document := do
  let lines ← readLines settings reference 0 {} (Text.splitLines text)
  return ⟨lines⟩

end Document

end LootFilter
