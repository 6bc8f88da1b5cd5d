import LootFilter.Editor.Hover
import LootFilter.Editor.Suggestion
import LootFilter.Report

/-! An editor session: the texts of the open documents, the latest reading of each, and what the editor is told.

A document that cannot be read with the given reference data keeps its earlier reading, and the editor hears nothing. -/

set_option autoImplicit false

namespace LootFilter

structure Session where
  settings : Settings
  reference : Reference
  texts : Table (List Char) := .empty
  documents : Table Document := .empty

namespace Session

inductive Notice where
  | diagnostics (uri : String) (items : List Diagnostic)
  | sounds (uri : String) (items : List SoundMark)
  deriving DecidableEq, Repr

inductive Event where
  | opened (uri : String) (text : List Char)
  | changed (uri : String) (text : List Char)
  | closed (uri : String)
  | configured (value : Value)

def notices (uri : String) (document : Option Document) : List Notice :=
  let findings := (document.map Document.findings).getD []
  let sounds := (document.map Document.sounds).getD []
  [.diagnostics uri (findings.map Diagnostic.ofFinding), .sounds uri sounds]

def validate? (session : Session) (uri : String) : Option (Session × List Notice) :=
  match session.texts.get? uri with
  | none => none
  | some text =>
    match Document.read session.settings session.reference text with
    | .error _ => none
    | .ok document =>
      some ({ session with documents := session.documents.put uri document }, notices uri (some document))

def validateAll (session : Session) : List String → Session × List Notice
  | [] => (session, [])
  | uri :: rest =>
    match session.validate? uri with
    | none => (session, [])
    | some (session, told) =>
      let (session, later) := session.validateAll rest
      (session, told ++ later)

/-- Takes over new settings. Documents are read again only if a whitelist has changed. -/
def configure (session : Session) (settings : Settings) : Session × List Notice :=
  let next := { session with settings }
  if settings.whitelistsDiffer session.settings then next.validateAll next.documents.names else (next, [])

def receive (session : Session) (uri : String) (text : List Char) : Session × List Notice :=
  let next := { session with texts := session.texts.put uri text }
  (next.validate? uri).getD (next, [])

def handle (session : Session) : Event → Session × List Notice
  | .opened uri text => session.receive uri text
  | .changed uri text => session.receive uri text
  | .closed uri =>
    ({ session with texts := session.texts.erase uri, documents := session.documents.erase uri },
     notices uri none)
  | .configured value =>
    match session.settings.overlayEditor value with
    | .ok (some settings) => session.configure settings
    | _ => (session, [])

/-- A line of a document; rows outside of it are empty. -/
def lineAt? (session : Session) (uri : String) (row : Int) : Option (List Char) :=
  (session.texts.get? uri).map fun text =>
    if row < 0 then [] else (Text.splitLines text).getD row.toNat []

/-- The suggestions at a position. An editor gets all of them or, if it cannot take one, none. -/
def suggestions (session : Session) (uri : String) (position : Position) : List Suggestion :=
  match session.lineAt? uri position.line with
  | none => []
  | some line =>
    match Suggestion.suggest session.settings session.reference line position with
    | .error _ => []
    | .ok found => if found.all Suggestion.isPlain then found else []

def hover? (session : Session) (uri : String) (position : Position) : Option Hover := do
  let line ← session.lineAt? uri position.line
  let note ← Hover.at? session.reference line position
  match note.contents with
  | .text _ => some note
  | _ => none

def colors (session : Session) (uri : String) : List ColorMark :=
  ((session.documents.get? uri).map Document.colors).getD []

def presentations (session : Session) (color : Color) : List String :=
  (color.presentation session.settings.alwaysShowAlpha).toOption.toList

end Session

end LootFilter
