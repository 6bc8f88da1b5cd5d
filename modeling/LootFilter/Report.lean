import LootFilter.Binary64.Decimal
import LootFilter.Document

/-! Reports for a terminal: a diagnostic with the line it is about, and a trace of what each line was read as. -/

set_option autoImplicit false

namespace LootFilter

structure Diagnostic where
  message : String
  range : Range
  severity : Severity
  source : String := "item-filter"
  deriving DecidableEq, Repr

namespace Diagnostic

def ofFinding (finding : Finding) : Diagnostic :=
  { message := finding.message, range := finding.range, severity := finding.severity }

def spaces (count : Int) : String := String.ofList (List.replicate count.toNat ' ')

/-- Without the line feeds at the end, and then without the carriage returns before them. -/
def withoutBreak (line : List Char) : List Char :=
  ((line.reverse.dropWhile (· == '\n')).dropWhile (· == '\r')).reverse

/-- How many characters are underlined. A range over several lines is underlined to the end of its first line. -/
def underlineLength (range : Range) (line : List Char) : Int :=
  if range.stop.line = range.start.line then max 1 (range.stop.character - range.start.character)
  else max 1 ((line.length : Int) - range.start.character)

def excerptLines (diagnostic : Diagnostic) (line : List Char) (file : String) : List String :=
  let start := diagnostic.range.start
  let line := withoutBreak line
  let number := toString (start.line + 1)
  let gutter := spaces (number.length + 1)
  let carets := String.ofList (List.replicate (underlineLength diagnostic.range line).toNat '^')
  [diagnostic.severity.label ++ ": " ++ diagnostic.message,
   gutter ++ s!"--> {file}:{start.line + 1}:{start.character + 1}",
   gutter ++ "|",
   number ++ " | " ++ String.ofList line,
   gutter ++ "| " ++ spaces start.character ++ carets]

def excerpt (diagnostic : Diagnostic) (line : List Char) (file : String) : String :=
  "\n".intercalate (diagnostic.excerptLines line file)

end Diagnostic

namespace Trace

def span (range : Range) : String :=
  s!"{range.start.line + 1}:{range.start.character + 1}-{range.stop.character + 1}"

def channel (value : Binary64) : String := value.toFixed 3

def colorText (mark : ColorMark) : String :=
  let channels := [mark.color.red, mark.color.green, mark.color.blue, mark.color.alpha].map channel
  "  Color(" ++ ", ".intercalate channels ++ ") @ " ++ span mark.range ++ "\n"

def soundText (mark : SoundMark) : String :=
  let known := if mark.known then "known" else "unknown"
  "  Sound(" ++ Text.quoted mark.identifier ++ s!", volume={mark.volume}, {known}) @ " ++ span mark.range ++ "\n"

def findingText (finding : Finding) : String :=
  "  " ++ finding.severity.label ++ ": " ++ finding.message ++ " @ " ++ span finding.range ++ "\n"

def lineText (line : Line) : String :=
  let keyword := (line.keyword.map KeywordMark.name).getD "?"
  let unknown := if line.isKnown then "" else " (unknown)"
  s!"Line {line.row + 1} {keyword}{unknown} @ " ++ span line.range ++ "\n" ++
    ((line.color.map colorText).getD "") ++ ((line.sound.map soundText).getD "") ++
    String.join (line.findings.map findingText)

def isTraced (line : Line) : Bool := line.keyword.isSome || !line.findings.isEmpty

def documentText (document : Document) : String := String.join ((document.lines.filter isTraced).map lineText)

end Trace

end LootFilter
