import LootFilter.CommandLine.Arguments
import LootFilter.CommandLine.Path
import LootFilter.Settings
import LootFilter.Text.Utf8
import LootFilter.Value.Toml

/-! The options of a run: defaults, then the settings file, then the command line. Whitelists of both add up. -/

set_option autoImplicit false

namespace LootFilter

structure Options where
  input : Option Path
  settings : Settings
  dataDirectory : Option Path
  debug : Bool
  verbose : Bool
  server : Bool
  deriving DecidableEq, Repr

namespace Options

inductive Fault where
  | mistake (mistake : Settings.Mistake)
  | pathTooLong (path : Path)
  | undecodable (fault : Text.Utf8Fault)
  | invalidToml (path : Path)
  | excessive (path : Path) (fault : ReadFault)
  deriving DecidableEq, Repr

def Fault.message : Fault → String
  | .mistake cause => cause.message
  | .pathTooLong path => path.tooLongMessage
  | .undecodable cause => cause.message
  | .invalidToml path => s!"{path.toString}: <toml syntax error>"
  | .excessive path fault => s!"{path.toString}: {fault.message}"

/-- Mistakes in settings end a run with a message; a file that cannot be read is not expected. -/
def Fault.isReported : Fault → Bool
  | .mistake _ => true
  | .invalidToml _ => true
  | _ => false

def settingsFile : String := "itemfilter.toml"

/-- An empty text counts as none. -/
def givenPath (text? : Option String) : Option Path :=
  (text?.filter fun text => !text.isEmpty).map Path.ofString

def inputDirectory (input? : Option Path) : Path := (input?.map Path.parent).getD .here

/-- The settings file of a command line: the one it names, or the one beside the input. -/
def settingsPath (arguments : Arguments) : Path :=
  (givenPath arguments.config).getD ((inputDirectory (givenPath arguments.input)).child settingsFile)

def fileFields (path : Path) (entry : Entry) : Except Fault (Table Value) :=
  match entry with
  | .file bytes => do
    let text ← (Text.decodeUtf8 bytes).mapError .undecodable
    match Toml.parse text with
    | .ok fields => return fields
    | .error .malformed => .error (.invalidToml path)
    | .error fault => .error (.excessive path fault)
  | .tooLong => .error (.pathTooLong path)
  | _ => .ok .empty

/-- Settings stand in a table of their own or at the top level. -/
def settingsFields (fields : Table Value) : Table Value :=
  match fields.get? Settings.sectionName with
  | some (.table inner) => inner
  | _ => fields

/-- Adds the entries of the command line to a whitelist. An entry without a value is a mistake. -/
def extend (settings : Settings) (list : Settings.Whitelist) (entries : List (Option String)) :
    Except Settings.Mistake Settings :=
  if entries.all Option.isSome then
    .ok (settings.setWhitelist (settings.whitelist list ++ entries.filterMap id) list)
  else .error ⟨"<command line>", .whitelist list⟩

def addWhitelists (settings : Settings) (arguments : Arguments) : Except Settings.Mistake Settings := do
  let settings ← extend settings .classes arguments.classWhitelist
  let settings ← extend settings .bases arguments.baseWhitelist
  let settings ← extend settings .rules arguments.ruleWhitelist
  extend settings .sounds arguments.soundWhitelist

/-- The data directory that settings name, relative to the directory of the input. -/
def dataDirectoryIn (directory : Path) (fields : Table Value) : Option Path :=
  match (fields.get? "data_dir").or (fields.get? "dataDir") with
  | some (.text text) => some (directory.join (.ofString text))
  | _ => none

def resolve (arguments : Arguments) (entry : Entry) : Except Fault Options := do
  let input := givenPath arguments.input
  let path := settingsPath arguments
  let fields := settingsFields (← fileFields path entry)
  let settings ← (Settings.overlay path.toString {} fields).mapError .mistake
  let settings ← (addWhitelists settings arguments).mapError .mistake
  return {
    input
    settings
    dataDirectory := (givenPath arguments.dataDirectory).or (dataDirectoryIn (inputDirectory input) fields)
    debug := arguments.debug
    verbose := arguments.verbose
    server := arguments.server }

end Options

end LootFilter
