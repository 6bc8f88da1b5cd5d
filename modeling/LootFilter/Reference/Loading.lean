import LootFilter.Bundled
import LootFilter.CommandLine.Path
import LootFilter.Text.Lines
import LootFilter.Text.Utf8
import LootFilter.Value.Json

/-! Loading reference data from the files of a directory. -/

set_option autoImplicit false

namespace LootFilter.Reference

inductive LoadFault where
  | notFound (path : Path)
  | pathTooLong (path : Path)
  | undecodable (fault : Text.Utf8Fault)
  | invalidJson (path : Path)
  | excessive (path : Path) (fault : ReadFault)
  | defect (defect : Defect)
  deriving DecidableEq, Repr

def LoadFault.message : LoadFault → String
  | .notFound path => s!"data file '{path.toString}' not found"
  | .pathTooLong path => path.tooLongMessage
  | .undecodable fault => fault.message
  | .invalidJson path => s!"{path.toString}: invalid JSON (<json syntax error>)"
  | .excessive path fault => s!"{path.toString}: {fault.message}"
  | .defect cause => cause.message

def decodeText (bytes : List UInt8) : Except Text.Utf8Fault (List Char) :=
  (Text.decodeUtf8 bytes).map Text.unifyLineEnds

def documentOf (path : Path) (bytes : List UInt8) : Except LoadFault Value := do
  let text ← (decodeText bytes).mapError .undecodable
  match Json.parse text with
  | .ok value => return value
  | .error .malformed => .error (.invalidJson path)
  | .error fault => .error (.excessive path fault)

def documentAt (required : Bool) (path : Path) (entry : Entry) : Except LoadFault Value :=
  match entry with
  | .file bytes => documentOf path bytes
  | .tooLong => .error (.pathTooLong path)
  | _ => if required then .error (.notFound path) else .ok .null

def load {m : Type → Type} [Monad m] (look : Path → m Entry) (directory : Path) : m (Except LoadFault Reference) := do
  let itemsPath := directory.child "items.json"
  let rulesPath := directory.child "filter.json"
  let suggestionsPath := directory.child "suggestions.json"
  let uniquesPath := directory.child "uniques.json"
  let itemsEntry ← look itemsPath
  let rulesEntry ← look rulesPath
  let suggestionsEntry ← look suggestionsPath
  let uniquesEntry ← look uniquesPath
  return do
    let items ← documentAt true itemsPath itemsEntry
    let rules ← documentAt true rulesPath rulesEntry
    let suggestions ← documentAt false suggestionsPath suggestionsEntry
    let uniques ← documentAt false uniquesPath uniquesEntry
    (assemble items rules suggestions uniques).mapError .defect

def loadOrBundled {m : Type → Type} [Monad m] (look : Path → m Entry) (directory? : Option Path) :
    m (Except LoadFault Reference) :=
  match directory? with
  | some directory => load look directory
  | none => pure (.ok Bundled.reference)

end LootFilter.Reference
