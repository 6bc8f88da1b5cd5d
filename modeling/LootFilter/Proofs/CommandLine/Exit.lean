import LootFilter.Proofs.CommandLine.Options
import LootFilter.Proofs.Document.Failure

/-! The exit codes of a run that checks an input file.

A document that can be read has the exit code of its errors, zero or one. Where none can be read, for want of settings,
of reference data, or of the input, the exit code is two, unless the run ends in a way it is not ready for. The ways
are listed one by one; documents of the right shape keep a run from all of them. -/

set_option autoImplicit false

namespace LootFilter

namespace Document

theorem read_ne_noWords {reference : Reference} (words : reference.HasWords)
    (searchable : reference.lengthIndex.Searchable) (settings : Settings) (text : List Char) (keyword : String) :
    read settings reference text ≠ .error (.gap (.noWords keyword)) := by
  intro failed
  obtain ⟨gap, ⟨before, row, after, -, -, lacking⟩, same⟩ :=
    (read_error_iff settings words searchable text _).mp failed
  cases same
  cases lacking

end Document

namespace CommandLine

section
variable (look : Path → Entry) (arguments : Arguments) (input : Path)

def optionsAmong : Except Options.Fault Options := Options.resolve arguments (look (Options.settingsPath arguments))

def referenceAmong (options : Options) : Except Reference.LoadFault Reference :=
  Id.run (Reference.loadOrBundled (m := Id) look options.dataDirectory)

def textAt? (path : Path) : Option (List Char) :=
  match look path with
  | .file bytes => (Reference.decodeText bytes).toOption
  | _ => none

def Reads (document : Document) : Prop :=
  ∃ options reference text, optionsAmong look arguments = .ok options ∧ referenceAmong look options = .ok reference ∧
    textAt? look input = some text ∧ Document.read options.settings reference text = .ok document

inductive Refused : Prop where
  | settings (malformed : ¬Options.WellFormed arguments (look (Options.settingsPath arguments)))
  | data {options : Options} {fault : Reference.LoadFault} (resolved : optionsAmong look arguments = .ok options)
    (failed : referenceAmong look options = .error fault)
  | input (unreadable : textAt? look input = none)
  | gap {options : Options} {reference : Reference} {text : List Char} {gap : Reference.Gap}
    (resolved : optionsAmong look arguments = .ok options) (loaded : referenceAmong look options = .ok reference)
    (readable : textAt? look input = some text)
    (failed : Document.read options.settings reference text = .error (.gap gap))

/-- The faults of reference data that no message is made of: a value that is too much for its format, a value that is
no table but is gone through, an infinite number, and a start outside of the bases. -/
inductive IsSilent : Reference.LoadFault → Prop where
  | excessive (path : Path) (fault : ReadFault) : IsSilent (.excessive path fault)
  | notTable : IsSilent (.defect .notTable)
  | unbounded : IsSilent (.defect .unbounded)
  | outside (position : Int) : IsSilent (.defect (.index (.outside position)))

/-- The ways to end that a run is not ready for. Rarities and booleans that are no texts only count when a row wants
to enumerate them. -/
inductive Unforeseen : Crash → Prop where
  | settings {fault : Options.Fault}
    (unread : Options.FileFault (Options.settingsPath arguments) (look (Options.settingsPath arguments)) fault)
    (other : ∀ path, fault ≠ .invalidToml path) : Unforeseen (.options fault)
  | data {options : Options} {fault : Reference.LoadFault} (resolved : optionsAmong look arguments = .ok options)
    (failed : referenceAmong look options = .error fault) (silent : IsSilent fault) : Unforeseen (.load fault)
  | input {options : Options} {reference : Reference} (resolved : optionsAmong look arguments = .ok options)
    (loaded : referenceAmong look options = .ok reference) (unnameable : look input = .unnameable) :
    Unforeseen (.unnameable input)
  | words {options : Options} {reference : Reference} {text : List Char} {keyword : String}
    (resolved : optionsAmong look arguments = .ok options) (loaded : referenceAmong look options = .ok reference)
    (readable : textAt? look input = some text)
    (failed : Document.read options.settings reference text = .error (.gap (.noWords keyword))) :
    Unforeseen (.gap (.noWords keyword))

end

theorem isSilent_of_not_isReported {fault : Reference.LoadFault} (silent : isReported fault = false) :
    IsSilent fault := by
  cases fault with
  | excessive path cause => exact .excessive path cause
  | defect defect =>
    cases defect with
    | notTable => exact .notTable
    | unbounded => exact .unbounded
    | index flaw =>
      cases flaw with
      | outside position => exact .outside position
      | _ => cases silent
    | _ => cases silent
  | _ => cases silent

theorem IsSilent.not_isReported {fault : Reference.LoadFault} (silent : IsSilent fault) : isReported fault = false := by
  cases silent with
  | _ => rfl

/-! ## Stages of a run -/

/-- How far a run comes: to the first of options, data, text and document that it cannot have. -/
inductive Reached (look : Path → Entry) (arguments : Arguments) (input : Path) : Prop where
  | nothing {fault : Options.Fault} (refused : optionsAmong look arguments = .error fault)
  | options {options : Options} {fault : Reference.LoadFault} (resolved : optionsAmong look arguments = .ok options)
    (failed : referenceAmong look options = .error fault)
  | data {options : Options} {reference : Reference} (resolved : optionsAmong look arguments = .ok options)
    (loaded : referenceAmong look options = .ok reference) (unreadable : textAt? look input = none)
  | text {options : Options} {reference : Reference} {text : List Char} {gap : Reference.Gap}
    (resolved : optionsAmong look arguments = .ok options) (loaded : referenceAmong look options = .ok reference)
    (readable : textAt? look input = some text)
    (failed : Document.read options.settings reference text = .error (.gap gap))
  | document {document : Document} (read : Reads look arguments input document)

theorem reached (look : Path → Entry) (arguments : Arguments) (input : Path) : Reached look arguments input := by
  cases resolved : optionsAmong look arguments with
  | error fault => exact .nothing resolved
  | ok options =>
    cases loaded : referenceAmong look options with
    | error fault => exact .options resolved loaded
    | ok reference =>
      cases readable : textAt? look input with
      | none => exact .data resolved loaded readable
      | some text =>
        cases done : Document.read options.settings reference text with
        | ok document => exact .document ⟨options, reference, text, resolved, loaded, readable, done⟩
        | error fault =>
          obtain ⟨gap, rfl, -⟩ := Document.failsOnly_read options.settings reference text fault done
          exact .text resolved loaded readable done

theorem not_wellFormed_iff {look : Path → Entry} {arguments : Arguments} :
    ¬Options.WellFormed arguments (look (Options.settingsPath arguments)) ↔
      ∃ fault, optionsAmong look arguments = .error fault := by
  rw [← Options.resolve_ok_iff]
  unfold optionsAmong
  cases Options.resolve arguments (look (Options.settingsPath arguments)) with
  | error fault => simp
  | ok options => simp

/-- Data that are loaded were checked, and the bundled data have an index built from their names. -/
theorem searchable_of_loaded {look : Path → Entry} {options : Options} {reference : Reference}
    (loaded : referenceAmong look options = .ok reference) : reference.lengthIndex.Searchable := by
  unfold referenceAmong at loaded
  cases directory : options.dataDirectory with
  | none =>
    rw [directory] at loaded
    cases loaded
    exact Bundled.searchable
  | some path =>
    rw [directory] at loaded
    obtain ⟨items, -, loaded⟩ := ok_of_bind loaded
    obtain ⟨rules, -, loaded⟩ := ok_of_bind loaded
    obtain ⟨suggestions, -, loaded⟩ := ok_of_bind loaded
    obtain ⟨uniques, -, loaded⟩ := ok_of_bind loaded
    exact (Reference.sound_of_assemble (mapError_eq_ok_iff.mp loaded)).searchable

/-- A document is read unless something refuses it. -/
theorem refused_iff {look : Path → Entry} {arguments : Arguments} {input : Path} :
    Refused look arguments input ↔ ¬∃ document, Reads look arguments input document := by
  constructor
  · rintro refused ⟨document, options, reference, text, resolved, loaded, readable, done⟩
    cases refused with
    | settings malformed =>
      obtain ⟨fault, failed⟩ := not_wellFormed_iff.mp malformed
      cases failed.symm.trans resolved
    | data resolved' failed =>
      cases resolved'.symm.trans resolved
      cases failed.symm.trans loaded
    | input unreadable => cases unreadable.symm.trans readable
    | gap resolved' loaded' readable' failed =>
      cases resolved'.symm.trans resolved
      cases loaded'.symm.trans loaded
      cases readable'.symm.trans readable
      cases failed.symm.trans done
  · intro unread
    cases reached look arguments input with
    | nothing failed => exact .settings (not_wellFormed_iff.mpr ⟨_, failed⟩)
    | options resolved failed => exact .data resolved failed
    | data _ _ unreadable => exact .input unreadable
    | text resolved loaded readable failed => exact .gap resolved loaded readable failed
    | document read => exact absurd ⟨_, read⟩ unread

section
variable {look : Path → Entry} {options : Options} {reference : Reference} {input : Path} {text : List Char}

theorem checkText_document {document : Document} (log : String)
    (done : Document.read options.settings reference text = .ok document) :
    ∃ response, checkText options reference input text log = .ok response ∧
      response.exit = if document.hasErrors then 1 else 0 := by
  rw [checkText, done]
  exact ⟨_, rfl, rfl⟩

theorem checkText_gap (searchable : reference.lengthIndex.Searchable) {gap : Reference.Gap} (log : String)
    (failed : Document.read options.settings reference text = .error (.gap gap)) :
    (∃ keyword, gap = .noWords keyword ∧ checkText options reference input text log = .error (.gap gap)) ∨
      ∃ response, checkText options reference input text log = .ok response ∧ response.exit = 2 := by
  obtain ⟨_, same, tabular⟩ := Document.failsOnly_read _ _ _ _ failed
  cases same
  rw [checkText, failed]
  cases gap with
  | noWords keyword => exact .inl ⟨keyword, rfl, rfl⟩
  | noBase keyword => exact absurd rfl (tabular searchable keyword)
  | _ => exact .inr ⟨_, rfl, rfl⟩

theorem check_unreadable (unreadable : textAt? look input = none) :
    (look input = .unnameable ∧ check options (.ok reference) input (look input) = .error (.unnameable input)) ∨
      ∃ response, check options (.ok reference) input (look input) = .ok response ∧ response.exit = 2 := by
  unfold textAt? at unreadable
  cases entry : look input with
  | file bytes =>
    rw [entry] at unreadable
    cases decoded : Reference.decodeText bytes with
    | error fault =>
      refine .inr ⟨failed (loadedLog options.verbose reference) fault.message, ?_, rfl⟩
      simp only [check, decoded]
    | ok text =>
      simp only [decoded] at unreadable
      cases unreadable
  | unnameable => exact .inl ⟨rfl, rfl⟩
  | _ => exact .inr ⟨_, rfl, rfl⟩

theorem check_readable (readable : textAt? look input = some text) :
    ∃ log, check options (.ok reference) input (look input) = checkText options reference input text log := by
  unfold textAt? at readable
  cases entry : look input with
  | file bytes =>
    rw [entry] at readable
    cases decoded : Reference.decodeText bytes with
    | error fault =>
      simp only [decoded] at readable
      cases readable
    | ok found =>
      simp only [decoded] at readable
      cases readable
      refine ⟨loadedLog options.verbose reference ++ checkingLog options.verbose input, ?_⟩
      simp only [check, decoded]
  | _ =>
    rw [entry] at readable
    cases readable

end

section
variable {look : Path → Entry} {argv : List String} {arguments : Arguments} {input : String}
  (accepted : Arguments.parse argv = .ok arguments) (named : arguments.input = some input) (visible : input ≠ "")
  (noServer : arguments.server = false)
include accepted named visible noServer

theorem run_eq :
    Id.run (run (m := Id) look argv) =
      match optionsAmong look arguments with
      | .error fault => if fault.isReported then .ok (failed "" fault.message) else .error (.options fault)
      | .ok options => Id.run (runWith (m := Id) look options) := by
  have given : (!arguments.server && (arguments.input.getD "").isEmpty) = false := by simp [noServer, named, visible]
  have resolved : resolve (m := Id) look arguments = pure (optionsAmong look arguments) := rfl
  simp only [run, accepted, runArguments, given, resolved, pure_bind, Bool.false_eq_true, if_false]
  cases optionsAmong look arguments with
  | error fault => rfl
  | ok options => rfl

theorem run_resolved {options : Options} (resolved : optionsAmong look arguments = .ok options) :
    Id.run (run (m := Id) look argv) =
      check options (referenceAmong look options) (.ofString input) (look (.ofString input)) := by
  obtain ⟨path, server⟩ := Options.kept_of_resolve resolved
  have whole : options.input = some (.ofString input) := by
    simp [path, Options.givenPath, named, visible, Option.filter]
  have loaded : Reference.loadOrBundled (m := Id) look options.dataDirectory = pure (referenceAmong look options) := rfl
  simp only [run_eq accepted named visible noServer, resolved, runWith, loaded, whole, server, noServer, pure_bind,
    Bool.false_eq_true, if_false]
  rfl

theorem run_document {document : Document} (read : Reads look arguments (.ofString input) document) :
    ∃ response, Id.run (run (m := Id) look argv) = .ok response ∧
      response.exit = if document.hasErrors then 1 else 0 := by
  obtain ⟨options, reference, text, resolved, loaded, readable, done⟩ := read
  obtain ⟨log, checked⟩ := check_readable readable
  rw [run_resolved accepted named visible noServer resolved, loaded, checked]
  exact checkText_document log done

/-- A run without a document ends with the exit code two, or in a way that it is not ready for. -/
theorem run_refused (refused : Refused look arguments (.ofString input)) :
    (∃ crash, Id.run (run (m := Id) look argv) = .error crash ∧ Unforeseen look arguments (.ofString input) crash) ∨
      ∃ response, Id.run (run (m := Id) look argv) = .ok response ∧ response.exit = 2 := by
  have settled {options : Options} (resolved : optionsAmong look arguments = .ok options) :=
    run_resolved accepted named visible noServer resolved
  cases reached look arguments (.ofString input) with
  | @nothing fault refused =>
    rw [run_eq accepted named visible noServer, refused]
    cases reported : fault.isReported with
    | true => exact .inr ⟨failed "" fault.message, by simp only [reported, if_true], rfl⟩
    | false =>
      obtain unread | ⟨mistake, rfl⟩ := Options.failsOnly_resolve _ _ fault refused
      · refine .inl ⟨.options fault, by simp [reported], .settings unread fun path same => ?_⟩
        rw [unread.isReported_iff.mpr ⟨path, same⟩] at reported
        cases reported
      · cases reported
  | @options options fault resolved unloaded =>
    rw [settled resolved, unloaded]
    cases reported : isReported fault with
    | true => exact .inr ⟨failed "" fault.message, by simp only [check, reported, if_true], rfl⟩
    | false =>
      refine .inl ⟨.load fault, by simp [check, reported], .data resolved unloaded ?_⟩
      exact isSilent_of_not_isReported reported
  | data resolved loaded unreadable =>
    rw [settled resolved, loaded]
    obtain ⟨unnameable, crashed⟩ | ended := check_unreadable unreadable
    · exact .inl ⟨_, crashed, .input resolved loaded unnameable⟩
    · exact .inr ended
  | text resolved loaded readable failed =>
    obtain ⟨log, checked⟩ := check_readable readable
    rw [settled resolved, loaded, checked]
    obtain ⟨keyword, rfl, crashed⟩ | ended := checkText_gap (searchable_of_loaded loaded) log failed
    · exact .inl ⟨_, crashed, .words resolved loaded readable failed⟩
    · exact .inr ended
  | document read => exact absurd ⟨_, read⟩ (refused_iff.mp refused)

theorem run_unforeseen {crash : Crash} (unforeseen : Unforeseen look arguments (.ofString input) crash) :
    Id.run (run (m := Id) look argv) = .error crash := by
  have settled {options : Options} (resolved : optionsAmong look arguments = .ok options) :=
    run_resolved accepted named visible noServer resolved
  cases unforeseen with
  | settings unread other =>
    have failed : optionsAmong look arguments = _ := Options.resolve_error_of_fileFault unread
    have silent := mt unread.isReported_iff.mp (not_exists.mpr other)
    simp only [run_eq accepted named visible noServer, failed, silent, Bool.false_eq_true, if_false]
  | data resolved failed silent =>
    rw [settled resolved, failed, check, if_neg (by simp [silent.not_isReported])]
  | input resolved loaded unnameable =>
    rw [settled resolved, loaded, unnameable]
    rfl
  | words resolved loaded readable failed =>
    obtain ⟨log, checked⟩ := check_readable readable
    rw [settled resolved, loaded, checked, checkText, failed]
    rfl

theorem run_error_iff {crash : Crash} :
    Id.run (run (m := Id) look argv) = .error crash ↔ Unforeseen look arguments (.ofString input) crash := by
  refine ⟨fun crashed => ?_, run_unforeseen accepted named visible noServer⟩
  by_cases read : ∃ document, Reads look arguments (.ofString input) document
  · obtain ⟨document, read⟩ := read
    obtain ⟨response, ended, -⟩ := run_document accepted named visible noServer read
    cases ended.symm.trans crashed
  · obtain ⟨other, same, unforeseen⟩ | ⟨response, ended, -⟩ :=
      run_refused accepted named visible noServer (refused_iff.mpr read)
    · cases same.symm.trans crashed
      exact unforeseen
    · cases ended.symm.trans crashed

end

/-! ## Files in order -/

def documentAmong (look : Path → Entry) (required : Bool) (path : Path) : Except Reference.LoadFault Value :=
  Reference.documentAt required path (look path)

structure OrderlyData (look : Path → Entry) (directory : Path) : Prop where
  measured : ∀ name ∈ ["items.json", "filter.json", "suggestions.json", "uniques.json"], ∀ bytes text,
    look (directory.child name) = .file bytes → Reference.decodeText bytes = .ok text →
      FailsOnly (· = .malformed) (Json.parse text)
  shaped : ∀ items rules suggestions uniques,
    documentAmong look true (directory.child "items.json") = .ok items →
    documentAmong look true (directory.child "filter.json") = .ok rules →
    documentAmong look false (directory.child "suggestions.json") = .ok suggestions →
    documentAmong look false (directory.child "uniques.json") = .ok uniques →
    Reference.Shaped items rules suggestions uniques

/-- The settings file decodes and is not too much for its format, the data are in order, and a file can have the name
of the input. -/
structure Orderly (look : Path → Entry) (arguments : Arguments) (input : Path) : Prop where
  settingsPath : look (Options.settingsPath arguments) ≠ .tooLong
  settings : ∀ bytes, look (Options.settingsPath arguments) = .file bytes →
    ∃ text, Text.decodeUtf8 bytes = .ok text ∧ FailsOnly (· = .malformed) (Toml.parse text)
  data : ∀ options directory, optionsAmong look arguments = .ok options → options.dataDirectory = some directory →
    OrderlyData look directory
  input : look input ≠ .unnameable

section
variable {look : Path → Entry} {directory : Path}

theorem failsOnly_documentAmong {required : Bool} {path : Path}
    (measured : ∀ bytes text, look path = .file bytes → Reference.decodeText bytes = .ok text →
      FailsOnly (· = .malformed) (Json.parse text)) :
    FailsOnly (fun fault => ¬IsSilent fault) (documentAmong look required path) := by
  unfold documentAmong Reference.documentAt
  split
  · next bytes file =>
    unfold Reference.documentOf
    cases decoded : Reference.decodeText bytes with
    | error fault => exact .error nofun
    | ok text =>
      have within := measured bytes text file decoded
      simp only [Except.mapError]
      refine .bind (.ok text) fun _ same => ?_
      cases same
      split
      · exact .ok _
      · exact .error nofun
      · next fault other failed => exact absurd (within fault failed) other
  · exact .error nofun
  · split
    · exact .error nofun
    · exact .ok _

theorem failsOnly_load (orderly : OrderlyData look directory) :
    FailsOnly (fun fault => ¬IsSilent fault) (Id.run (Reference.load (m := Id) look directory)) := by
  refine .bind (failsOnly_documentAmong (orderly.measured "items.json" (by simp))) fun items itemsRead => ?_
  refine .bind (failsOnly_documentAmong (orderly.measured "filter.json" (by simp))) fun rules rulesRead => ?_
  refine .bind (failsOnly_documentAmong (orderly.measured "suggestions.json" (by simp)))
    fun suggestions suggestionsRead => ?_
  refine .bind (failsOnly_documentAmong (orderly.measured "uniques.json" (by simp))) fun uniques uniquesRead => ?_
  have shaped := orderly.shaped _ _ _ _ itemsRead rulesRead suggestionsRead uniquesRead
  refine .mapError (Reference.failsOnly_assemble shaped) fun defect foreseen silent => ?_
  cases silent with
  | _ => cases foreseen

theorem hasWords_of_load (orderly : OrderlyData look directory) {reference : Reference}
    (loaded : Id.run (Reference.load (m := Id) look directory) = .ok reference) : reference.HasWords := by
  obtain ⟨items, itemsRead, loaded⟩ := ok_of_bind loaded
  obtain ⟨rules, rulesRead, loaded⟩ := ok_of_bind loaded
  obtain ⟨suggestions, suggestionsRead, loaded⟩ := ok_of_bind loaded
  obtain ⟨uniques, uniquesRead, loaded⟩ := ok_of_bind loaded
  have shaped := orderly.shaped _ _ _ _ itemsRead rulesRead suggestionsRead uniquesRead
  exact Reference.hasWords_of_assemble shaped.rules (mapError_eq_ok_iff.mp loaded)

end

theorem Orderly.not_unforeseen {look : Path → Entry} {arguments : Arguments} {input : Path}
    (orderly : Orderly look arguments input) (crash : Crash) : ¬Unforeseen look arguments input crash := by
  intro unforeseen
  cases unforeseen with
  | @settings fault unread other =>
    generalize entry : look (Options.settingsPath arguments) = found at unread
    cases unread with
    | tooLong => exact orderly.settingsPath entry
    | undecodable failed =>
      obtain ⟨text, decoded, -⟩ := orderly.settings _ entry
      cases failed.symm.trans decoded
    | malformed => exact other _ rfl
    | excessive decoded failed unlike =>
      obtain ⟨text, same, within⟩ := orderly.settings _ entry
      cases decoded.symm.trans same
      exact unlike (within _ failed)
  | @data options fault resolved failed silent =>
    unfold referenceAmong at failed
    cases directory : options.dataDirectory with
    | none =>
      rw [directory] at failed
      cases failed
    | some path =>
      rw [directory] at failed
      exact failsOnly_load (orderly.data options path resolved directory) fault failed silent
  | input resolved loaded unnameable => exact orderly.input unnameable
  | @words options reference text keyword resolved loaded readable failed =>
    have words : reference.HasWords := by
      unfold referenceAmong at loaded
      cases directory : options.dataDirectory with
      | none =>
        rw [directory] at loaded
        cases loaded
        exact Bundled.hasWords
      | some path =>
        rw [directory] at loaded
        exact hasWords_of_load (orderly.data options path resolved directory) loaded
    exact Document.read_ne_noWords words (searchable_of_loaded loaded) options.settings text keyword failed

/-- A run on an input file ends with the exit code one or zero if the input reads as a document, as the document has
errors or not, and with two if none can be read, because of malformed settings, of reference data that cannot be built
or have a gap, or of an input that cannot be read. The exceptions are exactly the unforeseen ways to end a run without
a document; files in order keep it from them. -/
theorem exit_code_of_document_unless_unforeseen (look : Path → Entry) {argv : List String} {arguments : Arguments}
    {input : String} (accepted : Arguments.parse argv = .ok arguments) (named : arguments.input = some input)
    (visible : input ≠ "") (noServer : arguments.server = false) :
    (∀ document, Reads look arguments (.ofString input) document →
      ∃ response, Id.run (run (m := Id) look argv) = .ok response ∧
        response.exit = if document.hasErrors then 1 else 0) ∧
    (Refused look arguments (.ofString input) ↔ ¬∃ document, Reads look arguments (.ofString input) document) ∧
    (Refused look arguments (.ofString input) → (∀ crash, ¬Unforeseen look arguments (.ofString input) crash) →
      ∃ response, Id.run (run (m := Id) look argv) = .ok response ∧ response.exit = 2) ∧
    (∀ crash, Id.run (run (m := Id) look argv) = .error crash ↔ Unforeseen look arguments (.ofString input) crash) ∧
    (Orderly look arguments (.ofString input) → ∀ crash, ¬Unforeseen look arguments (.ofString input) crash) := by
  refine ⟨fun document read => run_document accepted named visible noServer read, refused_iff, ?_,
    fun crash => run_error_iff accepted named visible noServer, fun orderly => orderly.not_unforeseen⟩
  intro refused foreseen
  obtain ⟨crash, -, unforeseen⟩ | ended := run_refused accepted named visible noServer refused
  · exact absurd unforeseen (foreseen crash)
  · exact ended

def sampleFiles : FileTree :=
  ⟨[(["a.filter"], .file "Quality 5".toUTF8.toList),
    (["itemfilter.toml"], .file "rule_whitelist = ['Foo']".toUTF8.toList),
    (["data", "items.json"], .file "\x7b\x7d".toUTF8.toList),
    (["data", "filter.json"], .file "\x7b\x7d".toUTF8.toList)]⟩

def sampleArguments (dataDirectory : Option String) : Arguments := { input := some "a.filter", dataDirectory }

def sampleOptions (dataDirectory : Option Path) : Options where
  input := some (.ofString "a.filter")
  settings := { ruleWhitelist := ["Foo"] }
  dataDirectory
  debug := false
  verbose := false
  server := false

theorem shaped_empty : Reference.Shaped (.table .empty) (.table .empty) .null .null where
  items := ⟨nofun, fun _ => ⟨.empty, rfl⟩, nofun⟩
  rules := ⟨nofun, nofun, nofun, by simp [Value.field?, Table.get?, Table.empty]⟩
  suggestions := .inl rfl
  uniques := .inl rfl

theorem orderlyData_sampleFiles : OrderlyData sampleFiles.find (.ofString "data") := by
  have items : sampleFiles.find ((Path.ofString "data").child "items.json") = .file [0x7b, 0x7d] := by decide +kernel
  have rules : sampleFiles.find ((Path.ofString "data").child "filter.json") = .file [0x7b, 0x7d] := by decide +kernel
  have suggestions : sampleFiles.find ((Path.ofString "data").child "suggestions.json") = .missing := by decide +kernel
  have uniques : sampleFiles.find ((Path.ofString "data").child "uniques.json") = .missing := by decide +kernel
  have decoded : Reference.decodeText [0x7b, 0x7d] = .ok ['\x7b', '\x7d'] := by decide +kernel
  have parsed : Json.parse ['\x7b', '\x7d'] = .ok (.table .empty) := by rfl
  constructor
  · intro name member bytes text file read
    have braces : bytes = [0x7b, 0x7d] := by
      simp only [List.mem_cons, List.not_mem_nil, or_false] at member
      rcases member with rfl | rfl | rfl | rfl
      · exact Entry.file.inj (file.symm.trans items)
      · exact Entry.file.inj (file.symm.trans rules)
      · cases suggestions.symm.trans file
      · cases uniques.symm.trans file
    rw [braces, decoded] at read
    cases read
    rw [parsed]
    exact .ok _
  · intro _ _ _ _ itemsRead rulesRead suggestionsRead uniquesRead
    rw [documentAmong, items, Reference.documentAt, Reference.documentOf, decoded] at itemsRead
    rw [documentAmong, rules, Reference.documentAt, Reference.documentOf, decoded] at rulesRead
    rw [documentAmong, suggestions] at suggestionsRead
    rw [documentAmong, uniques] at uniquesRead
    cases itemsRead
    cases rulesRead
    cases suggestionsRead
    cases uniquesRead
    exact shaped_empty

theorem resolved_sampleFiles :
    optionsAmong sampleFiles.find (sampleArguments (some "data")) = .ok (sampleOptions (some (.ofString "data"))) := by
  decide +kernel

theorem orderly_sampleFiles : Orderly sampleFiles.find (sampleArguments (some "data")) (.ofString "a.filter") where
  settingsPath := by decide +kernel
  settings := by
    intro bytes file
    have found : sampleFiles.find (Options.settingsPath (sampleArguments (some "data"))) =
        .file "rule_whitelist = ['Foo']".toUTF8.toList := by decide +kernel
    cases found.symm.trans file
    refine ⟨"rule_whitelist = ['Foo']".toList, by decide +kernel, ?_⟩
    have parsed : (Toml.parse "rule_whitelist = ['Foo']".toList).map (fun _ => ()) = .ok () := by decide +kernel
    obtain ⟨fields, same, -⟩ := map_eq_ok_iff.mp parsed
    rw [same]
    exact .ok _
  data := by
    intro options directory resolved given
    cases resolved_sampleFiles.symm.trans resolved
    cases given
    exact orderlyData_sampleFiles
  input := by decide +kernel

theorem sampleFiles_exit_one_and_two :
    Arguments.parse ["a.filter"] = .ok (sampleArguments none) ∧
    (∃ response, Id.run (run (m := Id) sampleFiles.find ["a.filter"]) = .ok response ∧ response.exit = 1) ∧
    Arguments.parse ["a.filter", "--data-dir", "data"] = .ok (sampleArguments (some "data")) ∧
    Orderly sampleFiles.find (sampleArguments (some "data")) (.ofString "a.filter") ∧
    ∃ response, Id.run (run (m := Id) sampleFiles.find ["a.filter", "--data-dir", "data"]) = .ok response ∧
      response.exit = 2 := by
  have bundled : Arguments.parse ["a.filter"] = .ok (sampleArguments none) := by decide +kernel
  have directed : Arguments.parse ["a.filter", "--data-dir", "data"] = .ok (sampleArguments (some "data")) := by
    decide +kernel
  refine ⟨bundled, ?_, directed, orderly_sampleFiles, ?_⟩
  · have checked := exit_code_of_document_unless_unforeseen sampleFiles.find bundled rfl (by decide) rfl
    have settled : optionsAmong sampleFiles.find (sampleArguments none) = .ok (sampleOptions none) := by
      decide +kernel
    have text : textAt? sampleFiles.find (.ofString "a.filter") = some "Quality 5".toList := by decide +kernel
    have misplaced : (Document.read (sampleOptions none).settings Bundled.reference "Quality 5".toList).map
        Document.hasErrors = .ok true := by decide +kernel
    obtain ⟨document, read, errors⟩ := map_eq_ok_iff.mp misplaced
    simpa only [errors, if_true] using checked.1 document ⟨_, _, _, settled, rfl, text, read⟩
  · have checked := exit_code_of_document_unless_unforeseen sampleFiles.find directed rfl (by decide) rfl
    have failed : (referenceAmong sampleFiles.find (sampleOptions (some (.ofString "data")))).map (fun _ => ()) =
        .error (.defect (.missingField "ruleRanges")) := by decide +kernel
    have refused : Refused sampleFiles.find (sampleArguments (some "data")) (.ofString "a.filter") :=
      .data resolved_sampleFiles (map_eq_error_iff.mp failed)
    exact checked.2.2.1 refused (checked.2.2.2.2 orderly_sampleFiles)

def listedItems : FileTree :=
  ⟨[(["a.filter"], .file "Show".toUTF8.toList),
    (["data", "items.json"], .file "[]".toUTF8.toList),
    (["data", "filter.json"], .file "\x7b\x7d".toUTF8.toList)]⟩

theorem listedItems_without_exit_code :
    Arguments.parse ["a.filter", "--data-dir", "data"] = .ok (sampleArguments (some "data")) ∧
    Refused listedItems.find (sampleArguments (some "data")) (.ofString "a.filter") ∧
    ¬∃ response, Id.run (run (m := Id) listedItems.find ["a.filter", "--data-dir", "data"]) = .ok response := by
  have resolved : optionsAmong listedItems.find (sampleArguments (some "data")) =
      .ok { sampleOptions (some (.ofString "data")) with settings := {} } := by decide +kernel
  have failed : (referenceAmong listedItems.find
      { sampleOptions (some (.ofString "data")) with settings := {} }).map (fun _ => ()) =
      .error (.defect .notTable) := by decide +kernel
  have crashed : (Id.run (run (m := Id) listedItems.find ["a.filter", "--data-dir", "data"])).map Response.exit =
      .error (.load (.defect .notTable)) := by decide +kernel
  refine ⟨by decide +kernel, .data resolved (map_eq_error_iff.mp failed), ?_⟩
  rintro ⟨response, ended⟩
  rw [ended] at crashed
  cases crashed

end CommandLine

end LootFilter
