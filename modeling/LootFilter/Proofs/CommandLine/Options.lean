import LootFilter.CommandLine.Options
import LootFilter.Proofs.CommandLine.Shape
import LootFilter.Proofs.Settings.Overlay

/-! When a command line has options: the settings file reads as a table, each field that is known has a value of its
type, and every whitelist option has a value. -/

set_option autoImplicit false

namespace LootFilter

namespace Options

inductive FileFault (path : Path) : Entry → Fault → Prop where
  | tooLong : FileFault path .tooLong (.pathTooLong path)
  | undecodable {bytes : List UInt8} {cause : Text.Utf8Fault} (failed : Text.decodeUtf8 bytes = .error cause) :
    FileFault path (.file bytes) (.undecodable cause)
  | malformed {bytes : List UInt8} {text : List Char} (decoded : Text.decodeUtf8 bytes = .ok text)
    (failed : Toml.parse text = .error .malformed) : FileFault path (.file bytes) (.invalidToml path)
  | excessive {bytes : List UInt8} {text : List Char} {cause : ReadFault} (decoded : Text.decodeUtf8 bytes = .ok text)
    (failed : Toml.parse text = .error cause) (other : cause ≠ .malformed) :
    FileFault path (.file bytes) (.excessive path cause)

theorem FileFault.isReported_iff {path : Path} {entry : Entry} {fault : Fault} (unread : FileFault path entry fault) :
    fault.isReported = true ↔ ∃ path, fault = .invalidToml path := by
  cases unread with
  | _ => simp [Fault.isReported]

theorem fileFields_error_iff {path : Path} {entry : Entry} {fault : Fault} :
    fileFields path entry = .error fault ↔ FileFault path entry fault := by
  constructor
  · intro failed
    cases entry with
    | file bytes =>
      cases decoded : Text.decodeUtf8 bytes with
      | error cause =>
        simp only [fileFields, decoded] at failed
        cases failed
        exact .undecodable decoded
      | ok text =>
        cases parsed : Toml.parse text with
        | ok fields =>
          simp only [fileFields, decoded, Except.mapError, bind, Except.bind, parsed] at failed
          cases failed
        | error cause =>
          simp only [fileFields, decoded, Except.mapError, bind, Except.bind, parsed] at failed
          cases cause with
          | malformed =>
            cases failed
            exact .malformed decoded parsed
          | _ =>
            cases failed
            exact .excessive decoded parsed nofun
    | tooLong =>
      cases failed
      exact .tooLong
    | _ => cases failed
  · rintro (_ | failed | ⟨decoded, failed⟩ | ⟨decoded, failed, other⟩)
    · rfl
    · simp [fileFields, failed, Except.mapError, bind, Except.bind]
    · simp [fileFields, decoded, failed, Except.mapError, bind, Except.bind]
    · simp [fileFields, decoded, failed, Except.mapError, bind, Except.bind]

theorem extend_ok_iff (settings : Settings) (list : Settings.Whitelist) (entries : List (Option String)) :
    (∃ changed, extend settings list entries = .ok changed) ↔ none ∉ entries := by
  have valued : entries.all Option.isSome = true ↔ none ∉ entries := by
    rw [List.all_eq_true]
    constructor
    · intro all member
      cases all none member
    · intro absent entry member
      cases entry with
      | none => exact absurd member absent
      | some text => rfl
  rw [← valued]
  unfold extend
  split
  · next all => simp [all]
  · next missing => simp [missing]

def whitelistEntries (arguments : Arguments) : List (Option String) :=
  arguments.classWhitelist ++ arguments.baseWhitelist ++ arguments.ruleWhitelist ++ arguments.soundWhitelist

theorem addWhitelists_ok_iff (settings : Settings) (arguments : Arguments) :
    (∃ changed, addWhitelists settings arguments = .ok changed) ↔ none ∉ whitelistEntries arguments := by
  simp only [addWhitelists, exists_ok_bind_iff, extend_ok_iff, exists_and_right, whitelistEntries, List.mem_append,
    not_or, and_assoc]

/-- The settings file can be read, its known fields have values of their types, and no whitelist option lacks its
value. -/
@[mk_iff] structure WellFormed (arguments : Arguments) (entry : Entry) : Prop where
  file : ∃ fields, fileFields (settingsPath arguments) entry = .ok fields ∧
    ∀ entry ∈ (settingsFields fields).entries, ∀ field, Settings.Field.ofKey? entry.1 = some field →
      field.Takes entry.2
  valued : none ∉ whitelistEntries arguments

theorem resolve_ok_iff {arguments : Arguments} {entry : Entry} :
    (∃ options, resolve arguments entry = .ok options) ↔ WellFormed arguments entry := by
  simp only [resolve, exists_ok_bind_iff, mapError_eq_ok_iff, pure, Except.pure, Except.ok.injEq, exists_eq', and_true,
    addWhitelists_ok_iff, exists_and_right, Settings.overlay_ok_iff, ← and_assoc, wellFormed_iff]

/-- Options are refused for the file, or for a mistake in what it says. -/
theorem failsOnly_resolve (arguments : Arguments) (entry : Entry) :
    FailsOnly (fun fault => FileFault (settingsPath arguments) entry fault ∨ ∃ mistake, fault = .mistake mistake)
      (resolve arguments entry) := by
  have mistaken (result : Except Settings.Mistake Settings) :
      FailsOnly (fun fault => FileFault (settingsPath arguments) entry fault ∨ ∃ mistake, fault = .mistake mistake)
        (result.mapError .mistake) := by
    cases result with
    | error mistake => exact .error (.inr ⟨mistake, rfl⟩)
    | ok settings => exact .ok settings
  refine .bind (fun fault failed => .inl (fileFields_error_iff.mp failed)) fun fields _ => ?_
  refine .bind (mistaken _) fun settings _ => ?_
  exact .bind (mistaken _) fun merged _ => .ok _

theorem resolve_error_of_fileFault {arguments : Arguments} {entry : Entry} {fault : Fault}
    (failed : FileFault (settingsPath arguments) entry fault) : resolve arguments entry = .error fault := by
  rw [resolve, fileFields_error_iff.mpr failed]
  rfl

theorem kept_of_resolve {arguments : Arguments} {entry : Entry} {options : Options}
    (resolved : resolve arguments entry = .ok options) :
    options.input = givenPath arguments.input ∧ options.server = arguments.server := by
  obtain ⟨fields, -, resolved⟩ := ok_of_bind resolved
  obtain ⟨settings, -, resolved⟩ := ok_of_bind resolved
  obtain ⟨merged, -, resolved⟩ := ok_of_bind resolved
  cases resolved
  exact ⟨rfl, rfl⟩

end Options

end LootFilter
