import LootFilter.Proofs.Answers
import LootFilter.Proofs.Reference.Coverage
import LootFilter.Settings
import Mathlib.Logic.Function.Basic

/-! Settings overlaid from one table after another.

A table is taken exactly if the known fields have values of their types, overridden ones included. Of the values that
are given to a field, in either spelling, the last one counts. -/

set_option autoImplicit false

namespace LootFilter

theorem Value.texts?_isSome_iff {values : List Value} :
    (texts? values).isSome = true ↔ ∀ value ∈ values, ∃ text, value = .text text := by
  refine ⟨fun found => ?_, fun named => Option.isSome_iff_exists.mpr (texts?_ok named)⟩
  fun_induction texts? values with
  | case1 => nofun
  | case2 text rest ih =>
    intro value member
    obtain rfl | later := List.mem_cons.mp member
    · exact ⟨text, rfl⟩
    · exact ih (by simpa using found) value later
  | case3 => cases found

theorem Value.eq_of_texts? {values : List Value} {entries : List String} (found : texts? values = some entries) :
    values = entries.map .text := by
  induction values generalizing entries with
  | nil =>
    cases found
    rfl
  | cons value rest ih =>
    cases value with
    | text name =>
      simp only [texts?, Option.map_eq_some_iff] at found
      obtain ⟨others, later, rfl⟩ := found
      rw [List.map_cons, ← ih later]
    | _ => cases found

namespace Settings

/-! ## Fields -/

/-- A value of the type of a field: a list of texts for a whitelist, a boolean for a flag. -/
def Field.Takes : Field → Value → Prop
  | .whitelist _, value => ∃ items, value = .list items ∧ ∀ item ∈ items, ∃ text, item = .text text
  | .flag _, value => ∃ flag, value = .boolean flag

theorem set?_isSome_iff (settings : Settings) (field : Field) (value : Value) :
    (settings.set? field value).isSome = true ↔ field.Takes value := by
  unfold set?
  split
  · next items => simp [Field.Takes, Value.texts?_isSome_iff]
  · simp [Field.Takes]
  · next noList noBoolean =>
    refine ⟨nofun, fun taken => ?_⟩
    cases field with
    | whitelist list =>
      obtain ⟨items, rfl, -⟩ := taken
      exact absurd rfl (noList list items rfl)
    | flag flag =>
      obtain ⟨choice, rfl⟩ := taken
      exact absurd rfl (noBoolean flag choice rfl)

/-- A key that spells the name of a field, with underscores or with inner capitals. -/
def Field.Names (field : Field) (key : String) : Prop := key = field.name ∨ key = field.capitalName

instance (field : Field) (key : String) : Decidable (field.Names key) := inferInstanceAs (Decidable (_ ∨ _))

theorem Field.ofKey?_name (field : Field) : ofKey? field.name = some field := by
  cases field with
  | whitelist list => cases list <;> rfl
  | flag flag => cases flag <;> rfl

theorem Field.ofKey?_capitalName (field : Field) : ofKey? field.capitalName = some field := by
  cases field with
  | whitelist list => cases list <;> rfl
  | flag flag => cases flag <;> rfl

/-- No two fields share a spelling, so the search for the first field finds the one that is named. -/
theorem Field.ofKey?_eq_some_iff {key : String} {field : Field} : ofKey? key = some field ↔ field.Names key := by
  constructor
  · intro found
    simpa [Names] using List.find?_some found
  · intro named
    cases named with
    | inl same => exact same ▸ field.ofKey?_name
    | inr same => exact same ▸ field.ofKey?_capitalName

def value (settings : Settings) : Field → Value
  | .whitelist list => .list ((settings.whitelist list).map .text)
  | .flag flag => .boolean (settings.flag flag)

theorem value_setWhitelist (settings : Settings) (entries : List String) (list : Whitelist) :
    (settings.setWhitelist entries list).value =
      Function.update settings.value (.whitelist list) (.list (entries.map .text)) := by
  funext field
  cases field with
  | whitelist other => cases list <;> cases other <;> rfl
  | flag flag => cases list <;> rfl

theorem value_setFlag (settings : Settings) (choice : Bool) (flag : Flag) :
    (settings.setFlag choice flag).value = Function.update settings.value (.flag flag) (.boolean choice) := by
  funext field
  cases field with
  | whitelist list => cases flag <;> rfl
  | flag other => cases flag <;> cases other <;> rfl

theorem value_set? {settings changed : Settings} {field : Field} {given : Value}
    (done : settings.set? field given = some changed) :
    changed.value = Function.update settings.value field given := by
  cases field with
  | whitelist list =>
    cases given with
    | list items =>
      simp only [set?, Option.map_eq_some_iff] at done
      obtain ⟨entries, found, rfl⟩ := done
      rw [value_setWhitelist, Value.eq_of_texts? found]
    | _ => cases done
  | flag flag =>
    cases given with
    | boolean choice =>
      cases done
      exact value_setFlag settings choice flag
    | _ => cases done

/-! ## Assignments -/

structure Assignment where
  source : String
  key : String
  value : Value

/-- The value is of the type of the field that the key names, if it names one. -/
def Assignment.Fits (assignment : Assignment) : Prop :=
  ∀ field : Field, field.Names assignment.key → field.Takes assignment.value

def assign (settings : Settings) (assignment : Assignment) : Except Mistake Settings :=
  overlayEntry assignment.source settings (assignment.key, assignment.value)

theorem assign_cases (settings : Settings) (assignment : Assignment) :
    (assignment.Fits ∧ ∃ changed, settings.assign assignment = .ok changed ∧
      ∀ field : Field, changed.value field =
        if field.Names assignment.key then assignment.value else settings.value field) ∨
    ∃ field : Field, field.Names assignment.key ∧ ¬field.Takes assignment.value ∧
      settings.assign assignment = .error ⟨assignment.source, field⟩ := by
  cases found : Field.ofKey? assignment.key with
  | none =>
    have unnamed (field : Field) : ¬field.Names assignment.key := by
      rw [← Field.ofKey?_eq_some_iff, found]
      nofun
    have kept : settings.assign assignment = .ok settings := by simp only [assign, overlayEntry, found]
    exact .inl ⟨fun field named => absurd named (unnamed field), settings, kept, fun field => by simp [unnamed field]⟩
  | some field =>
    have named (other : Field) : other.Names assignment.key ↔ other = field := by
      rw [← Field.ofKey?_eq_some_iff, found, Option.some.injEq, eq_comm]
    cases done : settings.set? field assignment.value with
    | none =>
      have refused : ¬field.Takes assignment.value := by
        rw [← set?_isSome_iff settings, done]
        nofun
      have failed : settings.assign assignment = .error ⟨assignment.source, field⟩ := by
        simp only [assign, overlayEntry, found, done]
      exact .inr ⟨field, (named field).mpr rfl, refused, failed⟩
    | some changed =>
      have taken : field.Takes assignment.value := by
        rw [← set?_isSome_iff settings, done]
        rfl
      have fits : assignment.Fits := by
        intro other same
        rw [(named other).mp same]
        exact taken
      have set : settings.assign assignment = .ok changed := by simp only [assign, overlayEntry, found, done]
      refine .inl ⟨fits, changed, set, fun other => ?_⟩
      simp only [value_set? done, Function.update_apply, named]

def assignAll (settings : Settings) (assignments : List Assignment) : Except Mistake Settings :=
  assignments.foldlM assign settings

/-- The value of the last assignment to a field, and what is held without one. -/
def Field.lastOf (field : Field) (assignments : List Assignment) (held : Value) : Value :=
  (assignments.filter fun assignment => field.Names assignment.key).getLast?.elim held Assignment.value

theorem Field.lastOf_cons (field : Field) (assignment : Assignment) (rest : List Assignment) (held : Value) :
    field.lastOf (assignment :: rest) held =
      field.lastOf rest (if field.Names assignment.key then assignment.value else held) := by
  unfold lastOf
  by_cases named : field.Names assignment.key
  · simp only [named, decide_true, List.filter_cons_of_pos, List.getLast?_cons, if_true]
    cases (rest.filter fun later => field.Names later.key).getLast? with
    | none => rfl
    | some last => rfl
  · simp [named]

theorem assignAll_ok {assignments : List Assignment} {base final : Settings}
    (done : base.assignAll assignments = .ok final) :
    (∀ assignment ∈ assignments, assignment.Fits) ∧
      ∀ field : Field, final.value field = field.lastOf assignments (base.value field) := by
  -- What the first assignment leaves is what the others find, so the induction is over all settings to start from.
  induction assignments generalizing base with
  | nil =>
    cases done
    exact ⟨nofun, fun field => rfl⟩
  | cons assignment rest ih =>
    obtain ⟨changed, one, others⟩ := ok_of_bind done
    cases base.assign_cases assignment with
    | inl taken =>
      obtain ⟨fits, next, same, values⟩ := taken
      cases same.symm.trans one
      obtain ⟨fit, last⟩ := ih others
      refine ⟨List.forall_mem_cons.mpr ⟨fits, fit⟩, fun field => ?_⟩
      rw [last field, values field, field.lastOf_cons]
    | inr refused =>
      obtain ⟨field, -, -, failed⟩ := refused
      cases failed.symm.trans one

theorem assignAll_error {assignments : List Assignment} {base : Settings} {mistake : Mistake}
    (failed : base.assignAll assignments = .error mistake) :
    ∃ before assignment after, assignments = before ++ assignment :: after ∧ (∀ earlier ∈ before, earlier.Fits) ∧
      mistake.field.Names assignment.key ∧ ¬mistake.field.Takes assignment.value ∧
      mistake.source = assignment.source := by
  induction assignments generalizing base with
  | nil => cases failed
  | cons assignment rest ih =>
    cases base.assign_cases assignment with
    | inl taken =>
      obtain ⟨fits, changed, one, -⟩ := taken
      have later : changed.assignAll rest = .error mistake := by
        rw [← failed, assignAll, assignAll, List.foldlM_cons, one]
        rfl
      obtain ⟨before, wrong, after, same, fit, found⟩ := ih later
      exact ⟨assignment :: before, wrong, after, by rw [same]; rfl, List.forall_mem_cons.mpr ⟨fits, fit⟩, found⟩
    | inr refused =>
      obtain ⟨field, named, wrong, one⟩ := refused
      have same : mistake = ⟨assignment.source, field⟩ := by
        rw [assignAll, List.foldlM_cons, one] at failed
        cases failed
        rfl
      subst same
      exact ⟨[], assignment, rest, rfl, nofun, named, wrong, rfl⟩

theorem exists_assignAll_ok_iff {assignments : List Assignment} {base : Settings} :
    (∃ final, base.assignAll assignments = .ok final) ↔ ∀ assignment ∈ assignments, assignment.Fits := by
  constructor
  · intro accepted
    obtain ⟨final, done⟩ := accepted
    exact (assignAll_ok done).1
  · intro fit
    cases run : base.assignAll assignments with
    | ok final => exact ⟨final, rfl⟩
    | error mistake =>
      obtain ⟨before, assignment, after, same, -, named, wrong, -⟩ := assignAll_error run
      have member : assignment ∈ assignments := by simp [same]
      exact absurd (fit assignment member mistake.field named) wrong

/-! ## Tables -/

def tableAssignments (source : String) (fields : Table Value) : List Assignment :=
  fields.entries.map fun entry => ⟨source, entry.1, entry.2⟩

theorem overlay_eq_assignAll (source : String) (settings : Settings) (fields : Table Value) :
    settings.overlay source fields = settings.assignAll (tableAssignments source fields) := by
  rw [assignAll, tableAssignments, List.foldlM_map]
  rfl

theorem overlay_ok_iff (source : String) (settings : Settings) (fields : Table Value) :
    (∃ changed, overlay source settings fields = .ok changed) ↔
      ∀ entry ∈ fields.entries, ∀ field, Field.ofKey? entry.1 = some field → field.Takes entry.2 := by
  rw [overlay_eq_assignAll, exists_assignAll_ok_iff]
  simp only [tableAssignments, List.forall_mem_map, Assignment.Fits, Field.ofKey?_eq_some_iff]

def overlayAll (settings : Settings) (layers : List (String × Table Value)) : Except Mistake Settings :=
  layers.foldlM (fun settings layer => settings.overlay layer.1 layer.2) settings

def assignments (layers : List (String × Table Value)) : List Assignment :=
  layers.flatMap fun layer => tableAssignments layer.1 layer.2

theorem overlayAll_eq_assignAll (base : Settings) (layers : List (String × Table Value)) :
    base.overlayAll layers = base.assignAll (assignments layers) := by
  induction layers generalizing base with
  | nil => rfl
  | cons layer rest ih =>
    calc base.overlayAll (layer :: rest)
      _ = base.overlay layer.1 layer.2 >>= fun settings => settings.overlayAll rest := List.foldlM_cons
      _ = base.assignAll (tableAssignments layer.1 layer.2) >>= fun settings =>
          settings.assignAll (assignments rest) := by
        rw [overlay_eq_assignAll]
        congr 1
        funext settings
        exact ih settings
      _ = base.assignAll (assignments (layer :: rest)) := List.foldlM_append.symm

theorem Mistake.message_names_field (mistake : Mistake) :
    ∃ wanted, mistake.message = mistake.source ++ ": '" ++ mistake.field.name ++ "' must be " ++ wanted := by
  unfold Mistake.message
  cases mistake.field with
  | whitelist list => exact ⟨"a list of strings", rfl⟩
  | flag flag => exact ⟨"a boolean", rfl⟩

/-- Tables are taken exactly if every value for a field is of its type, those that a later one overrides included. Then
each field holds the last value that was given to either spelling of its name. A refusal names the field of the first
value that is of another type, and the place of its table. -/
theorem last_assignment_counts (base : Settings) (layers : List (String × Table Value)) :
    ((∃ final, base.overlayAll layers = .ok final) ↔ ∀ assignment ∈ assignments layers, assignment.Fits) ∧
    (∀ final, base.overlayAll layers = .ok final →
      ∀ field : Field, final.value field = field.lastOf (assignments layers) (base.value field)) ∧
    ∀ mistake, base.overlayAll layers = .error mistake →
      ∃ before assignment after, assignments layers = before ++ assignment :: after ∧
        (∀ earlier ∈ before, earlier.Fits) ∧
        mistake.field.Names assignment.key ∧ ¬mistake.field.Takes assignment.value ∧
        ∃ wanted, mistake.message = assignment.source ++ ": '" ++ mistake.field.name ++ "' must be " ++ wanted := by
  rw [overlayAll_eq_assignAll]
  refine ⟨exists_assignAll_ok_iff, ?_, ?_⟩
  · intro final done
    exact (assignAll_ok done).2
  · intro mistake failed
    obtain ⟨before, assignment, after, same, fit, named, wrong, source⟩ := assignAll_error failed
    refine ⟨before, assignment, after, same, fit, named, wrong, ?_⟩
    rw [← source]
    exact mistake.message_names_field

-- A value of another type refuses its table even if the other spelling overrides it.
example : overlayAll {} [("item-filter", ⟨[("rarityQuotes", .text "no"), ("rarity_quotes", .boolean true)]⟩)] =
    .error ⟨"item-filter", .flag .rarityQuotes⟩ := rfl

theorem rarityQuotes_assigned_thrice :
    ∃ final, overlayAll {} [("itemfilter.toml", ⟨[("rarity_quotes", .boolean true)]⟩),
        ("item-filter", ⟨[("rarityQuotes", .boolean true), ("rarity_quotes", .boolean false)]⟩)] = .ok final ∧
      final.value (.flag .rarityQuotes) = .boolean false :=
  ⟨{}, rfl, (last_assignment_counts {} [("itemfilter.toml", ⟨[("rarity_quotes", .boolean true)]⟩),
      ("item-filter", ⟨[("rarityQuotes", .boolean true), ("rarity_quotes", .boolean false)]⟩)]).2.1 _ rfl _⟩

end Settings

end LootFilter
