import LootFilter.CommandLine.Options
import LootFilter.Editor.Session
import LootFilter.Reference.Loading

/-! A run of the command line tool: what it prints, its exit code, and the session it starts for an editor.

Files are looked at through a function, so that a run is the same over files in memory and on a disk. -/

set_option autoImplicit false

namespace LootFilter.CommandLine

def block (lines : List String) : String := String.join (lines.map (· ++ "\n"))

def usage : List String :=
  ["usage: itemfilter [-h] [--config FILE] [--data-dir DIR]",
   "                  [--rule-whitelist NAME] [--class-whitelist NAME]",
   "                  [--base-whitelist NAME] [--sound-whitelist NAME] [--debug]",
   "                  [--verbose] [--lsp]",
   "                  [input]"]

def help : List String :=
  ["",
   "Validate Path of Exile item filters",
   "",
   "positional arguments:",
   "  input                 Input .filter file",
   "",
   "options:",
   "  -h, --help            show this help message and exit",
   "  --config FILE         Config file (default: auto-discover itemfilter.toml)",
   "  --data-dir DIR        Directory holding the reference data JSON files",
   "  --rule-whitelist NAME",
   "                        Extra keyword to accept (repeatable)",
   "  --class-whitelist NAME",
   "                        Extra item class to accept (repeatable)",
   "  --base-whitelist NAME",
   "                        Extra base type to accept (repeatable)",
   "  --sound-whitelist NAME",
   "                        Extra sound identifier to accept (repeatable)",
   "  --debug               Dump per-line results to stderr",
   "  --verbose             Enable debug logging",
   "  --lsp                 Run the language server over stdio"]

structure Response where
  exit : Nat
  output : String := ""
  errors : String := ""
  session : Option Session := none

inductive Crash where
  | options (fault : Options.Fault)
  | load (fault : Reference.LoadFault)
  | gap (gap : Reference.Gap)
  | unnameable (path : Path)
  deriving DecidableEq, Repr

def Crash.message : Crash → String
  | .options cause => cause.message
  | .load cause => cause.message
  | .gap cause => cause.message
  | .unnameable path => s!"{Text.quoted path.toString} cannot be the path of a file"

def stopped (stop : Arguments.Stop) : Response :=
  match stop with
  | .help => { exit := 0, output := block (usage ++ help) }
  | _ => { exit := 2, errors := block usage ++ "itemfilter: error: " ++ stop.message ++ "\n" }

def failed (log message : String) : Response := { exit := 2, errors := log ++ "error: " ++ message ++ "\n" }

def logLine (verbose : Bool) (text : String) : String := if verbose then text ++ "\n" else ""

def loadedLog (verbose : Bool) (reference : Reference) : String :=
  logLine verbose
    (s!"INFO itemfilter.data: Loaded reference data: {reference.classes.length} classes, " ++
      s!"{reference.lengthIndex.bases.length} bases, {reference.rules.length} rules")

def checkingLog (verbose : Bool) (input : Path) : String :=
  logLine verbose s!"DEBUG itemfilter.cli: Checking {input.toString}"

def parsedLog (verbose : Bool) (document : Document) : String :=
  logLine verbose
    (s!"DEBUG itemfilter.document: Parsed {document.lines.length} lines in <time> ms " ++
      s!"({document.findings.length} diagnostics)")

/-- A mapping that is no table, a number that is not finite and an index out of bounds are not expected in a file. -/
def isExpectedDefect : Reference.Defect → Bool
  | .notTable => false
  | .unbounded => false
  | .index (.outside _) => false
  | _ => true

/-- What is wrong with reference data ends a run with a message, but for numbers and values past every measure. -/
def isExpected : Reference.LoadFault → Bool
  | .defect defect => isExpectedDefect defect
  | .notFound _ => true
  | .invalidJson _ => true
  | _ => false

/-- Before the input is checked, a file that cannot be read is one more thing to tell. -/
def isReported : Reference.LoadFault → Bool
  | .pathTooLong _ => true
  | .undecodable _ => true
  | fault => isExpected fault

def unreadable? (path : Path) : Entry → Option String
  | .file _ => none
  | .directory => some s!"[Errno 21] Is a directory: {Text.quoted path.toString}"
  | .missing => some s!"[Errno 2] No such file or directory: {Text.quoted path.toString}"
  | .belowFile => some s!"[Errno 20] Not a directory: {Text.quoted path.toString}"
  | .tooLong => some path.tooLongMessage
  | .unnameable => none

/-- All excerpts of a document. Rows outside of the text show an empty line. -/
def excerpts (document : Document) (text : List Char) (input : Path) : String :=
  let lines := Text.splitLines text
  String.join (document.findings.map fun finding =>
    let line := lines.getD finding.range.start.line.toNat []
    (Diagnostic.ofFinding finding).excerpt line input.toString ++ "\n")

def checkText (options : Options) (reference : Reference) (input : Path) (text : List Char) (log : String) :
    Except Crash Response :=
  match Document.read options.settings reference text with
  | .error (.gap gap) => if gap.isExpected then .ok (failed log gap.message) else .error (.gap gap)
  | .error fault => .ok (failed log fault.message)
  | .ok document =>
    let trace := if options.debug then Trace.documentText document else ""
    .ok {
      exit := if document.hasErrors then 1 else 0
      errors := log ++ parsedLog options.verbose document ++ trace ++ excerpts document text input }

def check (options : Options) (loaded : Except Reference.LoadFault Reference) (input : Path) (entry : Entry) :
    Except Crash Response :=
  match loaded with
  | .error fault => if isReported fault then .ok (failed "" fault.message) else .error (.load fault)
  | .ok reference =>
    let log := loadedLog options.verbose reference
    match entry with
    | .file bytes =>
      match Reference.decodeText bytes with
      | .error fault => .ok (failed log fault.message)
      | .ok text => checkText options reference input text (log ++ checkingLog options.verbose input)
    | _ =>
      match unreadable? input entry with
      | some reason => .ok (failed log reason)
      | none => .error (.unnameable input)

def serve (options : Options) (loaded : Except Reference.LoadFault Reference) : Except Crash Response :=
  match loaded with
  | .error fault => if isExpected fault then .ok (failed "" fault.message) else .error (.load fault)
  | .ok reference =>
    let log := if options.dataDirectory.isSome then loadedLog options.verbose reference else ""
    .ok {
      exit := 0
      errors := log ++ logLine options.verbose "INFO itemfilter.lsp: Starting item filter language server"
      session := some { settings := options.settings, reference } }

variable {m : Type → Type} [Monad m]

def resolve (look : Path → m Entry) (arguments : Arguments) : m (Except Options.Fault Options) := do
  let entry ← look (Options.settingsPath arguments)
  return Options.resolve arguments entry

def runWith (look : Path → m Entry) (options : Options) : m (Except Crash Response) := do
  let loaded ← Reference.loadOrBundled look options.dataDirectory
  match options.input with
  | none => return serve options loaded
  | some input =>
    if options.server then return serve options loaded
    else return check options loaded input (← look input)

def runArguments (look : Path → m Entry) (arguments : Arguments) : m (Except Crash Response) := do
  if !arguments.server && (arguments.input.getD "").isEmpty then
    return .ok (failed "" "an input file is required unless --lsp is given")
  match ← resolve look arguments with
  | .error fault => return if fault.isReported then .ok (failed "" fault.message) else .error (.options fault)
  | .ok options => runWith look options

def run (look : Path → m Entry) (arguments : List String) : m (Except Crash Response) :=
  match Arguments.parse arguments with
  | .error stop => pure (.ok (stopped stop))
  | .ok arguments => runArguments look arguments

end LootFilter.CommandLine
