import LootFilter.Text.Integer
import LootFilter.Text.Quoted

/-! Reading the arguments of the command line.

Options may stand anywhere, have their value after an equality sign or in the next argument, and be shortened as long
as only one option fits. Two dashes end the options; after an equality sign they stand for no value at all. -/

set_option autoImplicit false

namespace LootFilter

inductive Switch where
  | help
  | config
  | dataDirectory
  | ruleWhitelist
  | classWhitelist
  | baseWhitelist
  | soundWhitelist
  | debug
  | verbose
  | server
  deriving DecidableEq, Repr

namespace Switch

def all : List Switch :=
  [.help, .config, .dataDirectory, .ruleWhitelist, .classWhitelist, .baseWhitelist, .soundWhitelist, .debug, .verbose,
   .server]

def longName : Switch → String
  | .help => "--help"
  | .config => "--config"
  | .dataDirectory => "--data-dir"
  | .ruleWhitelist => "--rule-whitelist"
  | .classWhitelist => "--class-whitelist"
  | .baseWhitelist => "--base-whitelist"
  | .soundWhitelist => "--sound-whitelist"
  | .debug => "--debug"
  | .verbose => "--verbose"
  | .server => "--lsp"

def names : Switch → List String
  | .help => ["-h", "--help"]
  | switch => [switch.longName]

def title (switch : Switch) : String := "/".intercalate switch.names

def takesValue : Switch → Bool
  | .help => false
  | .debug => false
  | .verbose => false
  | .server => false
  | _ => true

def ofName? (name : String) : Option Switch := all.find? fun switch => switch.names.contains name

def startingWith (start : String) : List Switch :=
  all.filter fun switch => start.toList.isPrefixOf switch.longName.toList

end Switch

structure Arguments where
  input : Option String := none
  config : Option String := none
  dataDirectory : Option String := none
  ruleWhitelist : List (Option String) := []
  classWhitelist : List (Option String) := []
  baseWhitelist : List (Option String) := []
  soundWhitelist : List (Option String) := []
  debug : Bool := false
  verbose : Bool := false
  server : Bool := false
  deriving DecidableEq, Repr

namespace Arguments

inductive Stop where
  | help
  | ambiguous (argument : String) (candidates : List Switch)
  | valueMissing (switch : Switch)
  | valueIgnored (switch : Switch) (value : String)
  | unrecognized (arguments : List String)
  deriving DecidableEq, Repr

def Stop.message : Stop → String
  | .help => ""
  | .ambiguous argument candidates =>
    s!"ambiguous option: {argument} could match " ++ ", ".intercalate (candidates.map Switch.longName)
  | .valueMissing switch => s!"argument {switch.title}: expected one argument"
  | .valueIgnored switch value => s!"argument {switch.title}: ignored explicit argument {Text.quoted value}"
  | .unrecognized arguments => "unrecognized arguments: " ++ " ".intercalate arguments

inductive Word where
  | plain (text : String)
  | dashes
  | option (switch : Switch) (value : Option String)
  | helpWith (letters : List Char)
  | unknown (text : String)
  deriving DecidableEq, Repr

def isDigit (c : Char) : Bool := (Text.digit? c).isSome

/-- A line feed at the end of a number does not count. -/
def withoutLineFeed (text : List Char) : List Char := if text.getLast? = some '\n' then text.dropLast else text

def isNegativeNumber (argument : List Char) : Bool :=
  match argument with
  | '-' :: rest =>
    let (whole, after) := (withoutLineFeed rest).span isDigit
    match after with
    | [] => !whole.isEmpty
    | '.' :: fraction => !fraction.isEmpty && fraction.all isDigit
    | _ => false
  | _ => false

def splitAtEquality (argument : List Char) : String × Option String :=
  let (name, rest) := argument.span (· != '=')
  match rest with
  | [] => (String.ofList name, none)
  | _ :: value => (String.ofList name, some (String.ofList value))

def unmatched (argument : String) : Word :=
  if isNegativeNumber argument.toList || argument.toList.contains ' ' then .plain argument else .unknown argument

def classifyDashed (argument : String) : Except Stop Word :=
  let (name, value?) := splitAtEquality argument.toList
  match Switch.ofName? argument, Switch.ofName? name with
  | some switch, _ => .ok (.option switch none)
  | none, some switch =>
    if name = "-h" then .ok (.helpWith (value?.getD "").toList) else .ok (.option switch value?)
  | none, none =>
    match argument.toList with
    | '-' :: '-' :: _ =>
      match Switch.startingWith name with
      | [] => .ok (unmatched argument)
      | [switch] => .ok (.option switch value?)
      | candidates => .error (.ambiguous argument candidates)
    | '-' :: 'h' :: letters => .ok (.helpWith letters)
    | _ => .ok (unmatched argument)

def classify (argument : String) : Except Stop Word :=
  match argument.toList with
  | '-' :: _ :: _ => classifyDashed argument
  | _ => .ok (.plain argument)

def classifyAll : List String → Except Stop (List Word)
  | [] => .ok []
  | argument :: rest =>
    if argument = "--" then .ok (.dashes :: rest.map .plain)
    else do
      let word ← classify argument
      let words ← classifyAll rest
      return word :: words

/-- Sets an option. A single one is as if it were not given when it has no value. -/
def set (arguments : Arguments) (value : Option String) : Switch → Arguments
  | .config => { arguments with config := value }
  | .dataDirectory => { arguments with dataDirectory := value }
  | .ruleWhitelist => { arguments with ruleWhitelist := arguments.ruleWhitelist ++ [value] }
  | .classWhitelist => { arguments with classWhitelist := arguments.classWhitelist ++ [value] }
  | .baseWhitelist => { arguments with baseWhitelist := arguments.baseWhitelist ++ [value] }
  | .soundWhitelist => { arguments with soundWhitelist := arguments.soundWhitelist ++ [value] }
  | .debug => { arguments with debug := true }
  | .verbose => { arguments with verbose := true }
  | .server => { arguments with server := true }
  | .help => arguments

/-- What the letters after the short help option come to: more of it, or a value that it does not take. -/
def helpStop : List Char → Stop
  | ['h'] => .help
  | 'h' :: rest => helpStop rest
  | letters => .valueIgnored .help (String.ofList letters)

/-- The arguments so far, whether the last word was the input, and the words that have no place. -/
structure Draft where
  arguments : Arguments := {}
  atInput : Bool := false
  extras : List String := []

def Draft.addPlain (draft : Draft) (text : String) : Draft :=
  match draft.arguments.input with
  | none => { draft with arguments := { draft.arguments with input := some text }, atInput := true }
  | some _ => { draft with atInput := false, extras := draft.extras ++ [text] }

/-- Two dashes vanish before the input or right after it. -/
def Draft.addDashes (draft : Draft) : Draft :=
  if draft.arguments.input.isNone || draft.atInput then { draft with atInput := false }
  else { draft with extras := draft.extras ++ ["--"] }

def Draft.set (draft : Draft) (switch : Switch) (value : Option String) : Draft :=
  { draft with arguments := draft.arguments.set value switch, atInput := false }

def collect : Draft → List Word → Except Stop Draft
  | draft, [] => .ok draft
  | draft, .plain text :: rest => collect (draft.addPlain text) rest
  | draft, .dashes :: rest => collect draft.addDashes rest
  | draft, .unknown text :: rest =>
    collect { draft with atInput := false, extras := draft.extras ++ [text] } rest
  | _, .helpWith letters :: _ => .error (helpStop letters)
  | draft, .option switch (some value) :: rest =>
    if switch.takesValue then collect (draft.set switch (if value = "--" then none else some value)) rest
    else .error (.valueIgnored switch value)
  | draft, .option switch none :: rest =>
    if switch.takesValue then
      match rest with
      | .plain value :: rest => collect (draft.set switch (some value)) rest
      | _ => .error (.valueMissing switch)
    else if switch = .help then .error .help
    else collect (draft.set switch none) rest

def parse (arguments : List String) : Except Stop Arguments := do
  let draft ← collect {} (← classifyAll arguments)
  if draft.extras.isEmpty then return draft.arguments else .error (.unrecognized draft.extras)

end Arguments

end LootFilter
