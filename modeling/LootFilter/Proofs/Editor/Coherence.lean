import LootFilter.Editor.Session
import LootFilter.Proofs.Document.History
import LootFilter.Proofs.Document.Whitelists

/-! A session stays current. Whatever events come, it holds one reading for each open document, of the latest text under
the latest settings, and the editor was last told what this reading says. -/

set_option autoImplicit false

namespace LootFilter.Session

/-! ## Histories -/

/-- The text of a document after an event; a document that is not open has none. -/
def Event.textAfter (uri : String) (before : Option (List Char)) : Event → Option (List Char)
  | .opened other text => if other = uri then some text else before
  | .changed other text => if other = uri then some text else before
  | .closed other => if other = uri then none else before
  | .configured _ => before

def Event.settingsAfter (before : Settings) : Event → Settings
  | .configured value =>
    match before.overlayEditor value with
    | .ok (some settings) => settings
    | _ => before
  | _ => before

def latestText (uri : String) (events : List Event) : Option (List Char) := events.foldl (Event.textAfter uri) none

def latestSettings (settings : Settings) (events : List Event) : Settings :=
  events.foldl Event.settingsAfter settings

def advance (state : Session × List Notice) (event : Event) : Session × List Notice :=
  ((state.1.handle event).1, state.2 ++ (state.1.handle event).2)

def run (session : Session) (events : List Event) : Session × List Notice := events.foldl advance (session, [])

theorem latestText_concat (uri : String) (events : List Event) (event : Event) :
    latestText uri (events ++ [event]) = event.textAfter uri (latestText uri events) := by
  rw [latestText, List.foldl_append]
  rfl

theorem latestSettings_concat (settings : Settings) (events : List Event) (event : Event) :
    latestSettings settings (events ++ [event]) = event.settingsAfter (latestSettings settings events) := by
  rw [latestSettings, List.foldl_append]
  rfl

theorem Event.textAfter_eq_none {event : Event} {uri : String} {before : Option (List Char)}
    (stays : ∀ other, event ≠ .closed other) (none_after : event.textAfter uri before = none) : before = none := by
  cases event with
  | opened other text =>
    by_cases same : other = uri
    · simp [textAfter, same] at none_after
    · simpa [textAfter, same] using none_after
  | changed other text =>
    by_cases same : other = uri
    · simp [textAfter, same] at none_after
    · simpa [textAfter, same] using none_after
  | closed other => exact absurd rfl (stays other)
  | configured value => exact none_after

/-! ## What the editor was told -/

def Notice.uri : Notice → String
  | .diagnostics uri _ => uri
  | .sounds uri _ => uri

def Notice.diagnostics? (uri : String) : Notice → Option (List Diagnostic)
  | .diagnostics other items => if other = uri then some items else none
  | .sounds _ _ => none

def Notice.sounds? (uri : String) : Notice → Option (List SoundMark)
  | .diagnostics _ _ => none
  | .sounds other items => if other = uri then some items else none

def latest? {α : Type} (view : Notice → Option α) (log : List Notice) : Option α := (log.filterMap view).getLast?

/-- What the editor was last told about a document are these findings and sounds. -/
structure Shows (log : List Notice) (uri : String) (findings : List Finding) (sounds : List SoundMark) : Prop where
  diagnostics : latest? (Notice.diagnostics? uri) log = some (findings.map Diagnostic.ofFinding)
  sounds : latest? (Notice.sounds? uri) log = some sounds

theorem latest?_append {α : Type} (view : Notice → Option α) (log told : List Notice) :
    latest? view (log ++ told) = (latest? view told).or (latest? view log) := by
  rw [latest?, List.filterMap_append, List.getLast?_append]
  rfl

theorem latest?_eq_none {α : Type} {view : Notice → Option α} {told : List Notice}
    (silent : ∀ notice ∈ told, view notice = none) : latest? view told = none := by
  rw [latest?, List.filterMap_eq_nil_iff.mpr silent]
  rfl

section
variable {log told : List Notice} {uri : String} {findings : List Finding} {sounds : List SoundMark}

theorem Shows.later (shown : Shows told uri findings sounds) (log : List Notice) :
    Shows (log ++ told) uri findings sounds where
  diagnostics := by rw [latest?_append, shown.diagnostics]; rfl
  sounds := by rw [latest?_append, shown.sounds]; rfl

theorem Shows.keep (shown : Shows log uri findings sounds) (silent : ∀ notice ∈ told, notice.uri ≠ uri) :
    Shows (log ++ told) uri findings sounds where
  diagnostics := by
    rw [latest?_append, latest?_eq_none, shown.diagnostics]
    · rfl
    · intro notice member
      cases notice with
      | diagnostics other items => exact if_neg (silent _ member)
      | sounds other items => rfl
  sounds := by
    rw [latest?_append, latest?_eq_none, shown.sounds]
    · rfl
    · intro notice member
      cases notice with
      | diagnostics other items => rfl
      | sounds other items => exact if_neg (silent _ member)

end

theorem shows_notices (uri : String) (document : Option Document) :
    Shows (notices uri document) uri ((document.map Document.findings).getD [])
      ((document.map Document.sounds).getD []) where
  diagnostics := by simp [notices, latest?, List.filterMap_cons, Notice.diagnostics?]
  sounds := by simp [notices, latest?, List.filterMap_cons, Notice.sounds?]

theorem uri_of_mem_notices {uri : String} {document : Option Document} {notice : Notice}
    (member : notice ∈ notices uri document) : notice.uri = uri := by
  simp only [notices, List.mem_cons, List.not_mem_nil, or_false] at member
  obtain rfl | rfl := member
  · rfl
  · rfl

/-! ## Reading again -/

/-- The session holds the reading of a text, and the editor was last told what it says. -/
def Current (session : Session) (log : List Notice) (uri : String) (text : List Char) : Prop :=
  ∃ document, Document.read session.settings session.reference text = .ok document ∧
    session.documents.get? uri = some document ∧ Shows log uri document.findings document.sounds

section
variable {session next : Session} {log told : List Notice} {uri : String} {text : List Char}

theorem Current.later (current : Current session told uri text) (log : List Notice) :
    Current session (log ++ told) uri text := by
  obtain ⟨document, read, held, shown⟩ := current
  exact ⟨document, read, held, shown.later log⟩

/-- A reading stays current under other settings with the same whitelists, as long as nothing happens to it. -/
theorem Current.keep (current : Current session log uri text)
    (settings : next.settings.whitelistsDiffer session.settings = false)
    (reference : next.reference = session.reference)
    (documents : next.documents.get? uri = session.documents.get? uri)
    (silent : ∀ notice ∈ told, notice.uri ≠ uri) : Current next (log ++ told) uri text := by
  obtain ⟨document, read, held, shown⟩ := current
  refine ⟨document, ?_, documents.trans held, shown.keep silent⟩
  rw [reference, Document.read_of_same_whitelists settings, read]

theorem validate?_eq (complete : session.reference.Complete) (found : session.texts.get? uri = some text) :
    ∃ document, Document.read session.settings session.reference text = .ok document ∧
      session.validate? uri =
        some ({ session with documents := session.documents.put uri document }, notices uri (some document)) := by
  obtain ⟨document, read, -⟩ := Document.read_ok session.settings complete text
  refine ⟨document, read, ?_⟩
  simp only [validate?, found, read]

/-- Some documents were read again: their readings are current, and nothing else has changed. -/
structure Refreshed (session : Session) (uris : List String) (result : Session × List Notice) : Prop where
  settings : result.1.settings = session.settings
  reference : result.1.reference = session.reference
  texts : result.1.texts = session.texts
  distinct : session.documents.names.Nodup → result.1.documents.names.Nodup
  current : ∀ uri ∈ uris, ∀ text, session.texts.get? uri = some text → Current result.1 result.2 uri text
  kept : ∀ uri, uri ∉ uris →
    result.1.documents.get? uri = session.documents.get? uri ∧ ∀ notice ∈ result.2, notice.uri ≠ uri

theorem validateAll_refreshes (complete : session.reference.Complete) {uris : List String}
    (known : ∀ uri ∈ uris, (session.texts.get? uri).isSome = true) :
    Refreshed session uris (session.validateAll uris) := by
  induction uris generalizing session with
  | nil => exact ⟨rfl, rfl, rfl, id, nofun, fun _ _ => ⟨rfl, nofun⟩⟩
  | cons uri rest ih =>
    obtain ⟨text, found⟩ := Option.isSome_iff_exists.mp (known uri List.mem_cons_self)
    obtain ⟨document, read, answer⟩ := validate?_eq complete found
    have later : Refreshed { session with documents := session.documents.put uri document } rest _ :=
      ih complete fun other member => known other (List.mem_cons_of_mem uri member)
    simp only [validateAll, answer]
    refine ⟨later.settings, later.reference, later.texts, ?_, ?_, ?_⟩
    · exact fun distinct => later.distinct (Table.nodup_names_put distinct uri document)
    · -- A document that comes again later counts there; otherwise the later ones leave it as it is.
      intro other member text' found'
      by_cases again : other ∈ rest
      · exact (later.current other again text' found').later _
      · obtain rfl : other = uri := (List.mem_cons.mp member).resolve_right again
        obtain rfl : text = text' := Option.some.inj (found.symm.trans found')
        obtain ⟨held, silent⟩ := later.kept other again
        refine ⟨document, ?_, held.trans (Table.get?_put_self _ _ _), (shows_notices other (some document)).keep silent⟩
        rw [later.settings, later.reference, read]
    · intro other outside
      obtain ⟨apart, outside⟩ := not_or.mp (mt List.mem_cons.mpr outside)
      obtain ⟨held, silent⟩ := later.kept other outside
      refine ⟨held.trans (Table.get?_put_of_ne apart _ _), ?_⟩
      intro notice member
      obtain first | other_notice := List.mem_append.mp member
      · rw [uri_of_mem_notices first]
        exact Ne.symm apart
      · exact silent notice other_notice

end

/-! ## Events -/

/-- What an event replaces before documents are read again, and which documents this concerns. -/
structure Prepared (session : Session) (event : Event) (next : Session) (uris : List String) : Prop where
  documents : next.documents = session.documents
  reference : next.reference = session.reference
  settings : next.settings = event.settingsAfter session.settings
  texts : ∀ uri, next.texts.get? uri = event.textAfter uri (session.texts.get? uri)
  known : ∀ uri ∈ uris, (next.texts.get? uri).isSome = true ∨ uri ∈ session.documents.names
  unconcerned : ∀ uri, uri ∉ uris → next.texts.get? uri = session.texts.get? uri ∧
    (uri ∈ session.documents.names → next.settings.whitelistsDiffer session.settings = false)

theorem receive_eq (session : Session) (uri : String) (text : List Char) :
    session.receive uri text = validateAll { session with texts := session.texts.put uri text } [uri] := by
  simp only [receive, validateAll]
  split
  · next nothing => rw [nothing]; rfl
  · next after told answer => rw [answer]; simp

theorem prepared_receive (session : Session) {event : Event} {uri : String} {text : List Char}
    (arrives : event = .opened uri text ∨ event = .changed uri text) :
    Prepared session event { session with texts := session.texts.put uri text } [uri] := by
  have settings : event.settingsAfter session.settings = session.settings := by
    obtain rfl | rfl := arrives
    · rfl
    · rfl
  have after : ∀ other before, event.textAfter other before = if uri = other then some text else before := by
    obtain rfl | rfl := arrives
    · exact fun _ _ => rfl
    · exact fun _ _ => rfl
  refine ⟨rfl, rfl, settings.symm, ?_, ?_, ?_⟩
  · intro other
    rw [after]
    by_cases same : uri = other
    · rw [if_pos same, ← same, Table.get?_put_self]
    · rw [if_neg same, Table.get?_put_of_ne (Ne.symm same)]
  · intro other member
    rw [List.mem_singleton.mp member, Table.get?_put_self]
    exact .inl rfl
  · intro other outside
    have apart : other ≠ uri := mt List.mem_singleton.mpr outside
    exact ⟨Table.get?_put_of_ne apart _ _, fun _ => Settings.whitelistsDiffer_self _⟩

/-- An event that closes no document reads again what it concerns. -/
theorem handle_eq_validateAll (session : Session) {event : Event} (stays : ∀ other, event ≠ .closed other) :
    ∃ next uris, session.handle event = next.validateAll uris ∧ Prepared session event next uris := by
  cases event with
  | opened uri text => exact ⟨_, _, session.receive_eq uri text, session.prepared_receive (.inl rfl)⟩
  | changed uri text => exact ⟨_, _, session.receive_eq uri text, session.prepared_receive (.inr rfl)⟩
  | closed uri => exact absurd rfl (stays uri)
  | configured value =>
    simp only [handle]
    split
    · next settings read =>
      have after : settings = Event.settingsAfter session.settings (.configured value) := by
        simp only [Event.settingsAfter, read]
      rw [configure]
      split
      · exact ⟨_, _, rfl, rfl, rfl, after, fun _ => rfl, fun uri member => .inr member,
          fun uri outside => ⟨rfl, fun member => absurd member outside⟩⟩
      · next same =>
        exact ⟨{ session with settings }, [], rfl, rfl, rfl, after, fun _ => rfl, nofun,
          fun uri _ => ⟨rfl, fun _ => Bool.eq_false_iff.mpr same⟩⟩
    · next refused =>
      have after : session.settings = Event.settingsAfter session.settings (.configured value) := by
        simp only [Event.settingsAfter]
      exact ⟨session, [], rfl, rfl, rfl, after, fun _ => rfl, nofun,
        fun uri _ => ⟨rfl, fun _ => Settings.whitelistsDiffer_self _⟩⟩

def HasSection (value : Value) : Prop :=
  ∃ fields inner, value = .table fields ∧ fields.get? Settings.sectionName = some (.table inner)

theorem overlayEditor_without_section {value : Value} (missing : ¬HasSection value) (settings : Settings) :
    settings.overlayEditor value = .ok none := by
  unfold Settings.overlayEditor
  split
  · next fields =>
    split
    · next inner found => exact absurd ⟨fields, inner, rfl, found⟩ missing
    · rfl
  · rfl

/-- Settings without a table for this program, or with a mistake in it, are as if they had never come. -/
theorem handle_refused {session : Session} {value : Value}
    (refused : ¬HasSection value ∨ ∃ mistake, session.settings.overlayEditor value = .error mistake) :
    session.handle (.configured value) = (session, []) := by
  obtain missing | ⟨mistake, wrong⟩ := refused
  · simp only [handle, overlayEditor_without_section missing]
  · simp only [handle, wrong]

/-! ## Coherence -/

/-- A session and the log of what the editor was told agree with a history. -/
structure Coherent (settings : Settings) (reference : Reference) (events : List Event)
    (state : Session × List Notice) : Prop where
  reference : state.1.reference = reference
  settings : state.1.settings = latestSettings settings events
  texts : ∀ uri, state.1.texts.get? uri = latestText uri events
  distinct : state.1.documents.names.Nodup
  current : ∀ uri text, latestText uri events = some text → Current state.1 state.2 uri text
  absent : ∀ uri, latestText uri events = none → state.1.documents.get? uri = none
  cleared : ∀ uri, .closed uri ∈ events → latestText uri events = none → Shows state.2 uri [] []

section
variable {settings : Settings} {reference : Reference} {events : List Event} {state : Session × List Notice}

theorem initial_coherent (settings : Settings) (reference : Reference) :
    Coherent settings reference [] ({ settings, reference }, []) where
  reference := rfl
  settings := rfl
  texts _ := rfl
  distinct := List.nodup_nil
  current _ _ := nofun
  absent _ _ := rfl
  cleared _ := nofun

theorem Coherent.mem_names_iff (coherent : Coherent settings reference events state) {uri : String} :
    uri ∈ state.1.documents.names ↔ (latestText uri events).isSome = true := by
  rw [Table.mem_names_iff]
  cases found : latestText uri events with
  | none => simp [coherent.absent uri found]
  | some text =>
    obtain ⟨document, -, held, -⟩ := coherent.current uri text found
    simp [held]

theorem latestText_eq_none {event : Event} (stays : ∀ other, event ≠ .closed other) {uri : String}
    (closed : latestText uri (events ++ [event]) = none) : latestText uri events = none := by
  rw [latestText_concat] at closed
  exact Event.textAfter_eq_none stays closed

theorem Coherent.refreshed (complete : reference.Complete) (coherent : Coherent settings reference events state)
    {event : Event} (stays : ∀ other, event ≠ .closed other) :
    ∃ next uris, Prepared state.1 event next uris ∧ Refreshed next uris (state.1.handle event) ∧
      (∀ uri, next.texts.get? uri = latestText uri (events ++ [event])) ∧
      ∀ uri ∈ uris, (latestText uri (events ++ [event])).isSome = true := by
  obtain ⟨next, uris, answer, prepared⟩ := handle_eq_validateAll state.1 stays
  have texts : ∀ uri, next.texts.get? uri = latestText uri (events ++ [event]) := by
    intro uri
    rw [prepared.texts, coherent.texts, latestText_concat]
  have known : ∀ uri ∈ uris, (latestText uri (events ++ [event])).isSome = true := by
    intro uri member
    obtain opened | held := prepared.known uri member
    · rwa [texts] at opened
    · have opened := coherent.mem_names_iff.mp held
      cases found : latestText uri (events ++ [event]) with
      | none => simp [latestText_eq_none stays found] at opened
      | some text => rfl
  have covered : next.reference.Complete := by
    rw [prepared.reference, coherent.reference]
    exact complete
  refine ⟨next, uris, prepared, ?_, texts, known⟩
  rw [answer]
  apply validateAll_refreshes covered
  intro uri member
  rw [texts]
  exact known uri member

theorem Coherent.stay (complete : reference.Complete) (coherent : Coherent settings reference events state)
    {event : Event} (stays : ∀ other, event ≠ .closed other) :
    Coherent settings reference (events ++ [event]) (advance state event) := by
  obtain ⟨next, uris, prepared, refreshed, texts, known⟩ := coherent.refreshed complete stays
  have outside : ∀ uri, latestText uri (events ++ [event]) = none → uri ∉ uris := by
    intro uri closed member
    have opened := known uri member
    simp [closed] at opened
  constructor
  case reference =>
    exact refreshed.reference.trans (prepared.reference.trans coherent.reference)
  case settings =>
    rw [latestSettings_concat, ← coherent.settings, ← prepared.settings]
    exact refreshed.settings
  case texts =>
    intro uri
    rw [← texts, ← refreshed.texts]
    rfl
  case distinct =>
    apply refreshed.distinct
    rw [prepared.documents]
    exact coherent.distinct
  case current =>
    -- What the event concerns was just read; the rest was current and is read alike under the new settings.
    intro uri text found
    by_cases member : uri ∈ uris
    · exact (refreshed.current uri member text ((texts uri).trans found)).later _
    · obtain ⟨same, whitelists⟩ := prepared.unconcerned uri member
      obtain ⟨held, silent⟩ := refreshed.kept uri member
      rw [← texts, same, coherent.texts] at found
      apply (coherent.current uri text found).keep
      · rw [advance, refreshed.settings]
        exact whitelists (coherent.mem_names_iff.mpr (by rw [found]; rfl))
      · exact refreshed.reference.trans prepared.reference
      · rw [prepared.documents] at held
        exact held
      · exact silent
  case absent =>
    intro uri closed
    have held := (refreshed.kept uri (outside uri closed)).1
    rw [prepared.documents, coherent.absent uri (latestText_eq_none stays closed)] at held
    exact held
  case cleared =>
    intro uri member closed
    have earlier : .closed uri ∈ events := by
      obtain earlier | last := List.mem_append.mp member
      · exact earlier
      · exact absurd (List.mem_singleton.mp last).symm (stays uri)
    exact (coherent.cleared uri earlier (latestText_eq_none stays closed)).keep
      (refreshed.kept uri (outside uri closed)).2

theorem Coherent.close (coherent : Coherent settings reference events state) (uri : String) :
    Coherent settings reference (events ++ [.closed uri]) (advance state (.closed uri)) := by
  have text_self : latestText uri (events ++ [.closed uri]) = none := by
    rw [latestText_concat]
    exact if_pos rfl
  have text_other : ∀ other, other ≠ uri → latestText other (events ++ [.closed uri]) = latestText other events := by
    intro other apart
    rw [latestText_concat]
    exact if_neg (Ne.symm apart)
  have silent : ∀ other, other ≠ uri → ∀ notice ∈ notices uri none, notice.uri ≠ other := by
    intro other apart notice member
    rw [uri_of_mem_notices member]
    exact Ne.symm apart
  constructor
  case reference =>
    exact coherent.reference
  case settings =>
    rw [latestSettings_concat]
    exact coherent.settings
  case texts =>
    intro other
    by_cases same : other = uri
    · rw [same, text_self]
      exact Table.get?_erase_self _ _
    · rw [text_other other same, ← coherent.texts]
      exact Table.get?_erase_of_ne same _
  case distinct =>
    exact Table.nodup_names_erase coherent.distinct uri
  case current =>
    intro other text found
    by_cases same : other = uri
    · rw [same, text_self] at found
      cases found
    · rw [text_other other same] at found
      exact (coherent.current other text found).keep (Settings.whitelistsDiffer_self _) rfl
        (Table.get?_erase_of_ne same _) (silent other same)
  case absent =>
    intro other closed
    by_cases same : other = uri
    · rw [same]
      exact Table.get?_erase_self _ _
    · rw [text_other other same] at closed
      exact (Table.get?_erase_of_ne same _).trans (coherent.absent other closed)
  case cleared =>
    intro other member closed
    by_cases same : other = uri
    · rw [same]
      exact (shows_notices uri none).later _
    · rw [text_other other same] at closed
      have earlier : .closed other ∈ events := by
        obtain earlier | last := List.mem_append.mp member
        · exact earlier
        · cases List.mem_singleton.mp last
          exact absurd rfl same
      exact (coherent.cleared other earlier closed).keep (silent other same)

theorem Coherent.step (complete : reference.Complete) (coherent : Coherent settings reference events state)
    (event : Event) : Coherent settings reference (events ++ [event]) (advance state event) := by
  cases event with
  | opened uri text => exact coherent.stay complete (by simp)
  | changed uri text => exact coherent.stay complete (by simp)
  | closed uri => exact coherent.close uri
  | configured value => exact coherent.stay complete (by simp)

theorem Coherent.run (complete : reference.Complete) (coherent : Coherent settings reference events state)
    (later : List Event) : Coherent settings reference (events ++ later) (later.foldl advance state) := by
  induction later generalizing events state with
  | nil => simpa using coherent
  | cons event rest ih =>
    have rest_run := ih (coherent.step complete event)
    rwa [List.append_assoc] at rest_run

end

/-- With reference data that describe every rule, a session is current after any events. It holds one reading for each
open document and for no other, namely of the latest text under the latest settings. The editor was last told the
findings and sounds of this reading, and of none for a document closed since. Settings without a table for this program,
or with a mistake in it, change nothing, and the editor is told nothing. -/
theorem run_keeps_readings_current (settings : Settings) (reference : Reference) (complete : reference.Complete)
    (events : List Event) :
    ∃ session log, run { settings, reference } events = (session, log) ∧
      session.reference = reference ∧ session.settings = latestSettings settings events ∧
      session.documents.names.Nodup ∧
      (∀ uri, uri ∈ session.documents.names ↔ (latestText uri events).isSome = true) ∧
      (∀ uri text, latestText uri events = some text →
        ∃ document, Document.read session.settings session.reference text = .ok document ∧
          session.documents.get? uri = some document ∧ Shows log uri document.findings document.sounds) ∧
      (∀ uri, .closed uri ∈ events → latestText uri events = none → Shows log uri [] []) ∧
      ∀ value, (¬HasSection value ∨ ∃ mistake, session.settings.overlayEditor value = .error mistake) →
        session.handle (.configured value) = (session, []) := by
  have coherent := (initial_coherent settings reference).run complete events
  exact ⟨_, _, rfl, coherent.reference, coherent.settings, coherent.distinct, fun _ => coherent.mem_names_iff,
    coherent.current, coherent.cleared, fun _ => handle_refused⟩

theorem whitelisted_class_shown_clean :
    ∃ session log,
      run { settings := {}, reference := Bundled.reference }
        [.opened "a" "Show\nClass \"Foo\"".toList, .opened "b" "Hide".toList,
          .configured (.table ⟨[("item-filter", .table ⟨[("classWhitelist", .list [.text "Foo"])]⟩)]⟩),
          .closed "b"] = (session, log) ∧
      session.settings = { classWhitelist := ["Foo"] } ∧ "a" ∈ session.documents.names ∧
      "b" ∉ session.documents.names ∧ Shows log "a" [] [] ∧ Shows log "b" [] [] ∧
      session.handle (.configured .null) = (session, []) := by
  obtain ⟨session, log, final, reference, settings, -, names, current, cleared, refused⟩ :=
    run_keeps_readings_current {} Bundled.reference Bundled.complete
      [.opened "a" "Show\nClass \"Foo\"".toList, .opened "b" "Hide".toList,
        .configured (.table ⟨[("item-filter", .table ⟨[("classWhitelist", .list [.text "Foo"])]⟩)]⟩), .closed "b"]
  have whitelist : session.settings = { classWhitelist := ["Foo"] } := settings.trans (by decide +kernel)
  obtain ⟨document, read, -, shown⟩ := current "a" "Show\nClass \"Foo\"".toList (by rfl)
  have clean : (Document.read { classWhitelist := ["Foo"] } Bundled.reference
      "Show\nClass \"Foo\"".toList).toOption.map (fun document => (document.findings, document.sounds)) =
      some ([], []) := by decide +kernel
  rw [← whitelist, ← reference, read] at clean
  obtain ⟨findings, sounds⟩ := Prod.mk.inj (Option.some.inj clean)
  rw [findings, sounds] at shown
  refine ⟨session, log, final, whitelist, (names "a").mpr rfl, ?_, shown, cleared "b" (by simp) rfl, ?_⟩
  · exact fun held => Bool.false_ne_true ((names "b").mp held)
  · exact refused .null (.inl nofun)

end LootFilter.Session
