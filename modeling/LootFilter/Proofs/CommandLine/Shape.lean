import LootFilter.CommandLine.Run
import LootFilter.Proofs.Answers
import LootFilter.Proofs.Reference.Coverage
import LootFilter.Proofs.Reference.IndexedSearch

/-! Documents of the right shape: tables where entries are gone through, no infinite number where a whole one is
wanted, and starts that lie inside of the bases. Whatever else is wrong with such documents, a run has a message
for it. -/

set_option autoImplicit false

namespace LootFilter

/-! ## Shapes -/

namespace Value

def field? (name : String) : Value → Option Value
  | .table fields => fields.get? name
  | _ => none

def IsTable (value : Value) : Prop := ∃ fields, value = .table fields

def IsBounded (value : Value) : Prop := ∀ negative, value ≠ .real (.infinite negative)

def HasBoundedEnds (value : Value) : Prop :=
  ∀ name ∈ ["min", "max"], ∀ number, value.field? name = some number → number.IsBounded

def HasBoundedExtras (value : Value) : Prop :=
  ∀ extras numbers, value.field? "additionals" = some extras → extras.elements? = some numbers →
    ∀ number ∈ numbers, number.IsBounded

end Value

def LengthIndex.StartsInside (count : Nat) (starts : List Value) : Prop :=
  ∀ value ∈ starts, ∀ start, Start.ofValue? value = some start →
    -(count : Int) ≤ start.position ∧ start.position < count

namespace Reference

/-- The classes are a table, in a field of their own or as the whole document, and the listed starts lie inside of the
listed bases. -/
structure ShapedItems (items : Value) : Prop where
  inField : items.holds? "classesToBases" = some true →
    ∀ classes, items.field? "classesToBases" = some classes → classes.IsTable
  asWhole : items.holds? "classesToBases" = some false → items.IsTable
  starts : ∀ bases baseValues starts startValues,
    items.field? "sortedBases" = some bases → bases.elements? = some baseValues →
    items.field? "sortedBasesIndices" = some starts → starts.elements? = some startValues →
    LengthIndex.StartsInside baseValues.length startValues

/-- Limits and counts stand in tables, their numbers and those of sounds are bounded, and rarities and booleans are
texts. -/
structure ShapedRules (rules : Value) : Prop where
  limits : ∀ ranges, rules.field? "ruleRanges" = some ranges → ∃ fields, ranges = .table fields ∧
    ∀ entry ∈ fields.entries, entry.2.HasBoundedEnds ∧ entry.2.HasBoundedExtras
  sounds : ∀ sounds numbers, rules.field? "sounds" = some sounds →
    sounds.field? "numberIdentifier" = some numbers → numbers.HasBoundedEnds
  occurrences : ∀ counts, rules.field? "ruleLimits" = some counts → ∃ fields, counts = .table fields ∧
    ∀ entry ∈ fields.entries, entry.2.IsBounded
  words : ∀ name ∈ ["rarities", "booleans"], ∀ list values, rules.field? name = some list →
    list.elements? = some values → ∀ value ∈ values, ∃ word, value = .text word

/-- A document that may be left out counts as left out, or is a table. -/
def ShapedOptional (value : Value) : Prop := value.isVoid = true ∨ value.IsTable

structure Shaped (items rules suggestions uniques : Value) : Prop where
  items : ShapedItems items
  rules : ShapedRules rules
  suggestions : ShapedOptional suggestions
  uniques : ShapedOptional uniques

def Defect.IsForeseen (defect : Defect) : Prop := CommandLine.isExpectedDefect defect = true

/-! ## Parts of documents -/

theorem fieldOf_eq_ok_iff {name : String} {value field : Value} :
    fieldOf name value = .ok field ↔ value.field? name = some field := by
  cases value with
  | table fields =>
    simp only [fieldOf, Value.field?]
    cases fields.get? name with
    | none => simp
    | some found => simp
  | _ => simp [fieldOf, Value.field?]

theorem elementsOf_eq_ok_iff {value : Value} {elements : List Value} :
    elementsOf value = .ok elements ↔ value.elements? = some elements := by
  unfold elementsOf
  cases value.elements? with
  | none => simp
  | some found => simp

theorem mentions_eq_ok_iff {name : String} {value : Value} {answer : Bool} :
    mentions name value = .ok answer ↔ value.holds? name = some answer := by
  unfold mentions
  cases value.holds? name with
  | none => simp
  | some found => simp

theorem failsOnly_fieldOf (name : String) (value : Value) : FailsOnly Defect.IsForeseen (fieldOf name value) := by
  unfold fieldOf
  split
  · split
    · exact .ok _
    · exact .error rfl
  · exact .error rfl

theorem failsOnly_elementsOf (value : Value) : FailsOnly Defect.IsForeseen (elementsOf value) := by
  unfold elementsOf
  split
  · exact .ok _
  · exact .error rfl

theorem failsOnly_mentions (name : String) (value : Value) : FailsOnly Defect.IsForeseen (mentions name value) := by
  unfold mentions
  split
  · exact .ok _
  · exact .error rfl

theorem failsOnly_tableOf {value : Value} (table : value.IsTable) : FailsOnly Defect.IsForeseen (tableOf value) := by
  obtain ⟨fields, rfl⟩ := table
  exact .ok fields

theorem failsOnly_integerOf {value : Value} (bounded : value.IsBounded) :
    FailsOnly Defect.IsForeseen (integerOf value) := by
  unfold integerOf
  split
  · exact .ok _
  · exact .ok _
  · next negative => exact absurd rfl (bounded negative)
  · split
    · exact .ok _
    · exact .error rfl
  · split
    · exact .ok _
    · exact .error rfl
  · exact .error rfl

end Reference

/-! ## Length indices -/

namespace LengthIndex

theorem exists_of_mem_leading {α β : Type} {answer? : α → Option β} {items : List α} {answer : β}
    (member : answer ∈ leading answer? items) : ∃ item ∈ items, answer? item = some answer := by
  induction items with
  | nil => cases member
  | cons item rest ih =>
    unfold leading at member
    split at member
    · cases member
    · next found =>
      obtain rfl | later := List.mem_cons.mp member
      · exact ⟨item, List.mem_cons_self, found⟩
      · obtain ⟨other, listed, met⟩ := ih later
        exact ⟨other, List.mem_cons_of_mem _ listed, met⟩

def Flaw.IsInside (flaw : Flaw) : Prop := ∀ position, flaw ≠ .outside position

theorem failsOnly_checkOrder (bases : List Base) : FailsOnly Flaw.IsInside (checkOrder bases) := by
  fun_induction checkOrder bases with
  | case1 => exact .error (by simp [Flaw.IsInside])
  | case2 => exact .error (by simp [Flaw.IsInside])
  | case3 first second rest ordered ih => exact ih
  | case4 => exact .ok _

theorem failsOnly_checkCount (bases : List Base) (count : Nat) : FailsOnly Flaw.IsInside (checkCount bases count) := by
  unfold checkCount
  split
  · exact .ok _
  · exact .error nofun

theorem failsOnly_checkStarts {bases : List Base} {starts : List Start}
    (inside : ∀ start ∈ starts, -(bases.length : Int) ≤ start.position ∧ start.position < bases.length)
    (length : Nat) : FailsOnly Flaw.IsInside (checkStarts bases length starts) := by
  induction starts generalizing length with
  | nil => exact .ok _
  | cons start rest ih =>
    obtain ⟨above, below⟩ := inside start List.mem_cons_self
    obtain ⟨base, found, -⟩ := Indexing.upwardFrom_step above below
    simp only [checkStarts, found]
    split
    · exact .error (by simp [Flaw.IsInside])
    · exact ih (fun other member => inside other (List.mem_cons_of_mem _ member)) (length + 1)

/-- The starts are only looked up when all bases have a length, so that none of the listed ones is left out. -/
theorem failsOnly_ofValues {bases starts : List Value}
    (inside : StartsInside bases.length starts) : FailsOnly Flaw.IsInside (ofValues bases starts) := by
  refine .bind (failsOnly_checkOrder _) fun _ _ => ?_
  by_cases unmeasured : (leading Base.ofValue? bases).length < bases.length
  · simp only [unmeasured, if_true]
    exact .error nofun
  · simp only [unmeasured, if_false]
    have count : (leading Base.ofValue? bases).length = bases.length :=
      Nat.le_antisymm (length_leading_le _ bases) (Nat.le_of_not_lt unmeasured)
    refine .bind (failsOnly_checkCount _ _) fun _ _ => ?_
    refine .bind (failsOnly_checkStarts ?_ 1) fun _ _ => ?_
    · intro start member
      obtain ⟨value, listed, found⟩ := exists_of_mem_leading member
      rw [count]
      exact inside value listed start found
    · split
      · exact .error nofun
      · exact .ok _

end LengthIndex

namespace Reference

/-! ## Items -/

theorem failsOnly_namesOf (value : Value) : FailsOnly Defect.IsForeseen (namesOf value) := by
  unfold namesOf elementsOf
  split
  · exact .ok _
  · exact .error rfl

theorem failsOnly_basesByClassOf {value : Value} (table : value.IsTable) :
    FailsOnly Defect.IsForeseen (basesByClassOf value) := by
  refine .bind (failsOnly_tableOf table) fun fields _ => ?_
  refine .bind (.mapM ?_) fun _ _ => .ok _
  rintro ⟨itemClass, bases⟩ -
  exact .bind (failsOnly_namesOf bases) fun _ _ => .ok _

theorem failsOnly_givenIndex {bases starts : Value}
    (inside : ∀ baseValues startValues, bases.elements? = some baseValues → starts.elements? = some startValues →
      LengthIndex.StartsInside baseValues.length startValues) :
    FailsOnly Defect.IsForeseen (givenIndex bases starts) := by
  refine .bind (failsOnly_elementsOf bases) fun baseValues listed => ?_
  refine .bind (failsOnly_elementsOf starts) fun startValues placed => ?_
  have within := inside _ _ (elementsOf_eq_ok_iff.mp listed) (elementsOf_eq_ok_iff.mp placed)
  refine .mapError (LengthIndex.failsOnly_ofValues within) fun flaw inside => ?_
  cases flaw with
  | outside position => exact absurd rfl (inside position)
  | _ => rfl

theorem failsOnly_lengthIndexOf {items : Value} (shaped : ShapedItems items) (names : List String) :
    FailsOnly Defect.IsForeseen (lengthIndexOf items names) := by
  unfold lengthIndexOf
  refine .bind (failsOnly_mentions _ _) fun hasBases _ => ?_
  refine .bind (failsOnly_mentions _ _) fun hasStarts _ => ?_
  split
  · refine .bind (failsOnly_fieldOf _ _) fun bases listed => ?_
    refine .bind (failsOnly_fieldOf _ _) fun starts placed => ?_
    apply failsOnly_givenIndex
    intro baseValues startValues measured positions
    exact shaped.starts _ _ _ _ (fieldOf_eq_ok_iff.mp listed) measured (fieldOf_eq_ok_iff.mp placed) positions
  · exact .ok _

/-! ## Rules -/

theorem failsOnly_ends {α : Type} {value : Value} (bounded : value.HasBoundedEnds)
    {later : Int → Int → Except Defect α}
    (rest : value.IsTable → ∀ least greatest, FailsOnly Defect.IsForeseen (later least greatest)) :
    FailsOnly Defect.IsForeseen (do
      let least ← integerOf (← fieldOf "min" value)
      let greatest ← integerOf (← fieldOf "max" value)
      later least greatest) := by
  refine .bind (failsOnly_fieldOf _ _) fun lower found => ?_
  refine .bind (failsOnly_integerOf (bounded "min" (by simp) lower (fieldOf_eq_ok_iff.mp found))) fun least _ => ?_
  refine .bind (failsOnly_fieldOf _ _) fun upper met => ?_
  refine .bind (failsOnly_integerOf (bounded "max" (by simp) upper (fieldOf_eq_ok_iff.mp met))) fun greatest _ => ?_
  exact rest (table_of_fieldOf found) least greatest

theorem failsOnly_limitsEntry {entry : String × Value} (bounded : entry.2.HasBoundedEnds)
    (extras : entry.2.HasBoundedExtras) : FailsOnly Defect.IsForeseen (limitsEntry entry) := by
  refine failsOnly_ends bounded fun table least greatest => ?_
  refine .bind (failsOnly_tableOf table) fun fields same => ?_
  split
  · exact .ok _
  · next list found =>
    have held : entry.2.field? "additionals" = some list := by
      obtain ⟨_, whole⟩ := table
      rw [whole] at same ⊢
      cases same
      exact found
    refine .bind (failsOnly_elementsOf list) fun numbers listed => ?_
    have each := extras list numbers held (elementsOf_eq_ok_iff.mp listed)
    exact .bind (.mapM fun number member => failsOnly_integerOf (each number member)) fun _ _ => .ok _

theorem failsOnly_limitsTableOf {rules : Value} (shaped : ShapedRules rules) :
    FailsOnly Defect.IsForeseen (limitsTableOf rules) := by
  refine .bind (failsOnly_fieldOf _ _) fun ranges found => ?_
  obtain ⟨fields, rfl, entries⟩ := shaped.limits ranges (fieldOf_eq_ok_iff.mp found)
  refine .bind (.ok fields) fun _ same => ?_
  cases same
  refine .bind (.mapM fun entry member => ?_) fun _ _ => .ok _
  exact failsOnly_limitsEntry (entries entry member).1 (entries entry member).2

theorem failsOnly_labelsOf (value : Value) : FailsOnly Defect.IsForeseen (labelsOf value) := by
  unfold labelsOf
  split
  · exact .ok _
  · refine .bind (.mapM fun item _ => ?_) fun pairs _ => ?_
    · split
      · exact .ok _
      · exact .error rfl
    · split
      · exact .ok _
      · exact .error rfl
  · split
    · exact .ok _
    · exact .error rfl
  · exact .error rfl

theorem failsOnly_soundsOf {rules : Value} (shaped : ShapedRules rules) :
    FailsOnly Defect.IsForeseen (soundsOf rules) := by
  refine .bind (failsOnly_fieldOf _ _) fun sounds found => ?_
  refine .bind (failsOnly_fieldOf _ _) fun numbers met => ?_
  have bounded := shaped.sounds sounds numbers (fieldOf_eq_ok_iff.mp found) (fieldOf_eq_ok_iff.mp met)
  refine failsOnly_ends bounded fun _ least greatest => ?_
  refine .bind (failsOnly_fieldOf _ _) fun labels _ => ?_
  exact .bind (failsOnly_labelsOf labels) fun _ _ => .ok _

theorem failsOnly_occurrencesTableOf {rules : Value} (shaped : ShapedRules rules) :
    FailsOnly Defect.IsForeseen (occurrencesTableOf rules) := by
  refine .bind (failsOnly_fieldOf _ _) fun counts found => ?_
  obtain ⟨fields, rfl, entries⟩ := shaped.occurrences counts (fieldOf_eq_ok_iff.mp found)
  refine .bind (.ok fields) fun _ same => ?_
  cases same
  refine .bind (.mapM fun entry member => ?_) fun _ _ => .ok _
  exact .bind (failsOnly_integerOf (entries entry member)) fun _ _ => .ok _

theorem failsOnly_descriptionsOf {rules : Value} (table : rules.IsTable) :
    FailsOnly Defect.IsForeseen (descriptionsOf rules) := by
  refine .bind (failsOnly_tableOf table) fun fields _ => ?_
  split
  · exact .ok _
  · exact failsOnly_labelsOf _

/-! ## Suggestions and unique items -/

theorem failsOnly_optionalTable {value : Value} (shaped : ShapedOptional value) :
    FailsOnly Defect.IsForeseen (optionalTable value) := by
  unfold optionalTable
  split
  · exact .ok _
  · next kept => exact failsOnly_tableOf (shaped.resolve_left kept)

theorem failsOnly_optionalElements (fields : Table Value) (name : String) :
    FailsOnly Defect.IsForeseen (optionalElements fields name) := by
  unfold optionalElements
  split
  · exact .ok _
  · exact failsOnly_elementsOf _

theorem failsOnly_extraBaseOf (value : Value) : FailsOnly Defect.IsForeseen (extraBaseOf value) := by
  unfold extraBaseOf
  split
  · exact .ok _
  · refine .bind (failsOnly_fieldOf _ _) fun _ _ => ?_
    exact .bind (failsOnly_fieldOf _ _) fun _ _ => .ok _

theorem failsOnly_extraClassOf (value : Value) : FailsOnly Defect.IsForeseen (extraClassOf value) := by
  unfold extraClassOf
  split
  · exact .ok _
  · exact failsOnly_fieldOf _ _

/-- An entry is only taken for a table after a field of it was found. -/
theorem failsOnly_uniqueOf (value : Value) : FailsOnly Defect.IsForeseen (uniqueOf value) := by
  unfold uniqueOf
  split
  · exact .ok _
  · refine .bind (failsOnly_fieldOf _ _) fun name found => ?_
    refine .bind (failsOnly_tableOf (table_of_fieldOf found)) fun fields _ => ?_
    exact .bind (failsOnly_optionalElements _ _) fun _ _ => .ok _

theorem failsOnly_uniquesOf {uniques : Value} (shaped : ShapedOptional uniques) :
    FailsOnly Defect.IsForeseen (uniquesOf uniques) := by
  refine .bind (failsOnly_optionalTable shaped) fun fields _ => ?_
  refine .bind (.mapM ?_) fun _ _ => .ok _
  rintro ⟨base, entries⟩ -
  refine .bind (failsOnly_elementsOf entries) fun elements _ => ?_
  exact .bind (.mapM fun entry _ => failsOnly_uniqueOf entry) fun _ _ => .ok _

/-! ## Assembly -/

theorem failsOnly_assemble {items rules suggestions uniques : Value} (shaped : Shaped items rules suggestions uniques) :
    FailsOnly Defect.IsForeseen (assemble items rules suggestions uniques) := by
  refine .bind (failsOnly_mentions _ _) fun hasClasses mentioned => ?_
  have held := mentions_eq_ok_iff.mp mentioned
  -- The classes stand in a field of their own or are the whole document; what follows is the same.
  cases hasClasses
  case' true =>
    refine .bind (failsOnly_fieldOf _ _) fun classes found => ?_
    have table := shaped.items.inField held classes (fieldOf_eq_ok_iff.mp found)
  case' false => have table := shaped.items.asWhole held
  all_goals
    refine .bind (failsOnly_basesByClassOf table) fun basesByClass _ => ?_
    refine .bind (failsOnly_lengthIndexOf shaped.items _) fun _ _ => ?_
    refine .bind (failsOnly_limitsTableOf shaped.rules) fun _ _ => ?_
    refine .bind (failsOnly_soundsOf shaped.rules) fun _ _ => ?_
    refine .bind (failsOnly_optionalTable shaped.suggestions) fun _ _ => ?_
    refine .bind (failsOnly_optionalElements _ _) fun _ _ => ?_
    refine .bind (.mapM fun entry _ => failsOnly_extraBaseOf entry) fun _ _ => ?_
    refine .bind (failsOnly_optionalElements _ _) fun _ _ => ?_
    refine .bind (.mapM fun entry _ => failsOnly_extraClassOf entry) fun _ _ => ?_
    refine .bind (failsOnly_uniquesOf shaped.uniques) fun _ _ => ?_
    refine .bind (failsOnly_fieldOf _ _) fun _ found => ?_
    refine .bind (failsOnly_elementsOf _) fun _ _ => ?_
    refine .bind (failsOnly_occurrencesTableOf shaped.rules) fun _ _ => ?_
    refine .bind (failsOnly_fieldOf _ _) fun _ _ => ?_
    refine .bind (failsOnly_elementsOf _) fun _ _ => ?_
    refine .bind (failsOnly_fieldOf _ _) fun _ _ => ?_
    refine .bind (failsOnly_elementsOf _) fun _ _ => ?_
    exact .bind (failsOnly_descriptionsOf (table_of_fieldOf found)) fun _ _ => .ok _

theorem hasWords_of_assemble {items rules suggestions uniques : Value} {reference : Reference}
    (shaped : ShapedRules rules) (done : assemble items rules suggestions uniques = .ok reference) :
    reference.HasWords := by
  have lists : (do elementsOf (← fieldOf "rarities" rules)) = .ok reference.rarities ∧
      (do elementsOf (← fieldOf "booleans" rules)) = .ok reference.booleans := by
    unfold assemble at done
    obtain ⟨hasClasses, -, done⟩ := ok_of_bind done
    cases hasClasses
    case' true => obtain ⟨classes, -, done⟩ := ok_of_bind done
    all_goals
      iterate 13 obtain ⟨_, -, done⟩ := ok_of_bind done
      obtain ⟨_, rarityList, done⟩ := ok_of_bind done
      obtain ⟨_, rarities, done⟩ := ok_of_bind done
      obtain ⟨_, booleanList, done⟩ := ok_of_bind done
      obtain ⟨_, booleans, done⟩ := ok_of_bind done
      obtain ⟨_, -, done⟩ := ok_of_bind done
      cases done
      rw [rarityList, booleanList]
      exact ⟨rarities, booleans⟩
  obtain ⟨rarityList, rarityField, rarities⟩ := ok_of_bind lists.1
  obtain ⟨booleanList, booleanField, booleans⟩ := ok_of_bind lists.2
  constructor
  · exact shaped.words "rarities" (by simp) rarityList _ (fieldOf_eq_ok_iff.mp rarityField)
      (elementsOf_eq_ok_iff.mp rarities)
  · exact shaped.words "booleans" (by simp) booleanList _ (fieldOf_eq_ok_iff.mp booleanField)
      (elementsOf_eq_ok_iff.mp booleans)

end Reference

end LootFilter
