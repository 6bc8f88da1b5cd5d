import LootFilter.Proofs.Reference.Coverage
import LootFilter.Proofs.Reference.LengthIndex

/-! The names of bases in assembled data: those that the classes list, those that have a class, and those of the length
index, which items may list themselves. -/

set_option autoImplicit false

namespace LootFilter

namespace LengthIndex

theorem mem_insertName {name other : String} {sorted : List String} :
    other ∈ insertName name sorted ↔ other = name ∨ other ∈ sorted := by
  induction sorted with
  | nil => simp [insertName]
  | cons head rest ih =>
    unfold insertName
    split
    · next same => simp [same]
    · split
      · simp
      · simp [ih, or_left_comm]

theorem mem_sortNames {name : String} {names : List String} : name ∈ sortNames names ↔ name ∈ names := by
  have inserted : ∀ sorted : List String,
      name ∈ names.foldl (fun sorted name => insertName name sorted) sorted ↔ name ∈ sorted ∨ name ∈ names := by
    induction names with
    | nil => simp
    | cons head rest ih =>
      intro sorted
      rw [List.foldl_cons, ih, mem_insertName, List.mem_cons, or_comm (a := name = head), or_assoc]
  rw [sortNames, inserted]
  simp

theorem name_mem_ofNames {name : String} {names : List String} :
    .name name ∈ (ofNames names).bases ↔ name ∈ names := by
  simp only [ofNames, List.mem_map, Base.name.injEq, exists_eq_right, mem_sortNames]

theorem leading_eq_of_length {α β : Type} {answer? : α → Option β} {items : List α}
    (all : items.length ≤ (leading answer? items).length) : items.map answer? = (leading answer? items).map some := by
  induction items with
  | nil => rfl
  | cons item rest ih =>
    unfold leading at all ⊢
    split at all
    · simp at all
    · next answer found =>
      simp only [found, List.map_cons]
      rw [ih (by simpa using all)]

theorem ofValue?_eq_name_iff {value : Value} {name : String} :
    Base.ofValue? value = some (.name name) ↔ value = .text name := by
  cases value <;> simp [Base.ofValue?]

theorem name_mem_ofValues {bases starts : List Value} {index : LengthIndex} (done : ofValues bases starts = .ok index)
    {name : String} : .name name ∈ index.bases ↔ .text name ∈ bases := by
  unfold ofValues at done
  obtain ⟨_, -, done⟩ := ok_of_bind done
  by_cases unmeasured : (leading Base.ofValue? bases).length < bases.length
  · simp only [unmeasured, if_true] at done
    cases done
  · simp only [unmeasured, if_false] at done
    obtain ⟨_, -, done⟩ := ok_of_bind done
    obtain ⟨_, -, done⟩ := ok_of_bind done
    split at done
    · cases done
    · cases done
      have all := leading_eq_of_length (Nat.le_of_not_lt unmeasured)
      have member := congrArg (fun answers => some (Base.name name) ∈ answers) all
      simp only [List.mem_map, Option.some.injEq, exists_eq_right, ofValue?_eq_name_iff] at member
      exact member.symm ▸ Iff.rfl

end LengthIndex

namespace Reference

def IsBase (reference : Reference) (base : String) : Prop :=
  ∃ itemClass ∈ reference.classes, base ∈ reference.basesOf itemClass

/-- The bases that an items document lists itself, which it does only together with their positions. -/
def listedBases? : Value → Option (List Value)
  | .table fields =>
    match fields.get? "sortedBases", fields.get? "sortedBasesIndices" with
    | some bases, some _ => bases.elements?
    | _, _ => none
  | _ => none

theorem mem_basePairs_iff {basesByClass : Table (List String)} (distinct : basesByClass.names.Nodup)
    {base itemClass : String} :
    (base, itemClass) ∈ (basesByClass.entries.flatMap fun (itemClass, bases) => bases.map (·, itemClass)) ↔
      itemClass ∈ basesByClass.names ∧ base ∈ basesByClass.getD itemClass [] := by
  simp only [List.mem_flatMap, List.mem_map, Prod.mk.injEq]
  constructor
  · rintro ⟨⟨held, bases⟩, member, other, inside, rfl, rfl⟩
    have found := Table.get?_of_mem_entries distinct member
    exact ⟨Table.mem_names_iff.mpr ⟨bases, found⟩, by rwa [Table.getD, found]⟩
  · rintro ⟨member, inside⟩
    obtain ⟨bases, found⟩ := Table.mem_names_iff.mp member
    rw [Table.getD, found] at inside
    exact ⟨(itemClass, bases), Table.mem_entries_of_get? found, base, inside, rfl, rfl⟩

section
variable {items rules suggestions uniques : Value} {reference : Reference}

theorem nodup_classes_of_assemble (done : assemble items rules suggestions uniques = .ok reference) :
    reference.basesByClass.names.Nodup := by
  obtain ⟨source, classed⟩ := (assemble_items done).2.1
  unfold basesByClassOf at classed
  obtain ⟨fields, -, classed⟩ := ok_of_bind classed
  obtain ⟨entries, -, classed⟩ := ok_of_bind classed
  rw [← Except.ok.inj classed]
  exact Table.nodup_names_ofList entries

theorem mem_classByBase_iff (done : assemble items rules suggestions uniques = .ok reference) {base : String} :
    base ∈ reference.classByBase.names ↔ reference.IsBase base := by
  have distinct := nodup_classes_of_assemble done
  rw [(assemble_items done).2.2.1, classByBaseOf, Table.mem_names_ofList, List.mem_map]
  constructor
  · rintro ⟨⟨held, itemClass⟩, member, rfl⟩
    exact ⟨itemClass, (mem_basePairs_iff distinct).mp member⟩
  · rintro ⟨itemClass, member⟩
    exact ⟨(base, itemClass), (mem_basePairs_iff distinct).mpr member, rfl⟩

theorem isBase_of_classOf? (done : assemble items rules suggestions uniques = .ok reference) {base itemClass : String}
    (found : reference.classOf? base = some itemClass) :
    itemClass ∈ reference.classes ∧ base ∈ reference.basesOf itemClass := by
  rw [classOf?, (assemble_items done).2.2.1] at found
  exact (mem_basePairs_iff (nodup_classes_of_assemble done)).mp (Table.mem_of_get?_ofList found)

theorem elements?_of_elementsOf {value : Value} {elements : List Value} (found : elementsOf value = .ok elements) :
    value.elements? = some elements := by
  unfold elementsOf at found
  split at found
  · next held =>
    cases found
    exact held
  · cases found

theorem name_mem_givenIndex {bases starts : Value} {index : LengthIndex} (done : givenIndex bases starts = .ok index) :
    ∃ listed, bases.elements? = some listed ∧ ∀ base, .name base ∈ index.bases ↔ .text base ∈ listed := by
  unfold givenIndex at done
  obtain ⟨listed, elements, done⟩ := ok_of_bind done
  obtain ⟨positions, -, done⟩ := ok_of_bind done
  refine ⟨listed, elements?_of_elementsOf elements, fun base => ?_⟩
  cases taken : LengthIndex.ofValues listed positions with
  | error flaw =>
    rw [taken] at done
    cases done
  | ok given =>
    rw [taken] at done
    cases done
    exact LengthIndex.name_mem_ofValues taken

theorem lengthIndexOf_table (fields : Table Value) (names : List String) :
    lengthIndexOf (.table fields) names =
      match fields.get? "sortedBases", fields.get? "sortedBasesIndices" with
      | some bases, some starts => givenIndex bases starts
      | _, _ => .ok (.ofNames names) := by
  unfold lengthIndexOf
  simp only [mentions, Value.holds?, Table.contains, fieldOf]
  cases fields.get? "sortedBases" with
  | none => rfl
  | some bases =>
    cases fields.get? "sortedBasesIndices" with
    | none => rfl
    | some starts => rfl

/-- The index is that of all bases with a class, or it has the bases that the items list. -/
theorem index_cases (done : assemble items rules suggestions uniques = .ok reference) :
    (listedBases? items = none ∧ reference.lengthIndex = .ofNames reference.classByBase.names) ∨
      ∃ listed, listedBases? items = some listed ∧
        ∀ base, .name base ∈ reference.lengthIndex.bases ↔ .text base ∈ listed := by
  obtain ⟨⟨fields, rfl⟩, -, -, indexed⟩ := assemble_items done
  rw [lengthIndexOf_table] at indexed
  cases hasBases : fields.get? "sortedBases" with
  | none =>
    simp only [hasBases] at indexed
    exact .inl ⟨by simp only [listedBases?, hasBases], (Except.ok.inj indexed).symm⟩
  | some bases =>
    cases hasStarts : fields.get? "sortedBasesIndices" with
    | none =>
      simp only [hasBases, hasStarts] at indexed
      exact .inl ⟨by simp only [listedBases?, hasBases, hasStarts], (Except.ok.inj indexed).symm⟩
    | some starts =>
      simp only [hasBases, hasStarts] at indexed
      obtain ⟨listed, elements, same⟩ := name_mem_givenIndex indexed
      exact .inr ⟨listed, by simp only [listedBases?, hasBases, hasStarts, elements], same⟩

theorem lengthIndex_of_unlisted (done : assemble items rules suggestions uniques = .ok reference)
    (unlisted : listedBases? items = none) : reference.lengthIndex = .ofNames reference.classByBase.names := by
  obtain ⟨-, computed⟩ | ⟨listed, given, -⟩ := index_cases done
  · exact computed
  · cases unlisted.symm.trans given

theorem name_mem_index_iff (done : assemble items rules suggestions uniques = .ok reference) {base : String} :
    .name base ∈ reference.lengthIndex.bases ↔
      match listedBases? items with
      | some listed => .text base ∈ listed
      | none => reference.IsBase base := by
  obtain ⟨unlisted, computed⟩ | ⟨listed, given, same⟩ := index_cases done
  · rw [unlisted, computed, LengthIndex.name_mem_ofNames, mem_classByBase_iff done]
  · rw [given, same]

/-- With the same bases in the index, a value is found among all bases if some class has a base that holds it. -/
theorem finds_all_iff (done : assemble items rules suggestions uniques = .ok reference)
    (named : ∀ base ∈ reference.lengthIndex.bases, ∃ name, base = .name name)
    (same : ∀ base, .name base ∈ reference.lengthIndex.bases ↔ reference.IsBase base) {value : String} :
    (Pool.choose reference []).finds value = true ↔
      ∃ itemClass ∈ reference.classes, ∃ base ∈ reference.basesOf itemClass, value.toList <:+: base.toList := by
  change reference.lengthIndex.finds value = true ↔ _
  rw [LengthIndex.finds_iff (sound_of_assemble done) named]
  simp only [same, IsBase]
  constructor
  · rintro ⟨base, ⟨itemClass, member, inside⟩, held⟩
    exact ⟨itemClass, member, base, inside, held⟩
  · rintro ⟨itemClass, member, base, inside, held⟩
    exact ⟨base, ⟨itemClass, member, inside⟩, held⟩

theorem exists_finds_class_iff {reference : Reference} {value : String} :
    (∃ itemClass ∈ reference.classes, (Pool.choose reference [itemClass]).finds value = true) ↔
      ∃ itemClass ∈ reference.classes, ∃ base ∈ reference.basesOf itemClass, value.toList <:+: base.toList := by
  simp only [Pool.finds_choose_of_parts (List.cons_ne_nil _ _)]
  constructor
  · rintro ⟨-, -, itemClass, member, -, found⟩
    exact ⟨itemClass, member, found⟩
  · rintro ⟨itemClass, member, found⟩
    exact ⟨itemClass, member, itemClass, member, ⟨itemClass, List.mem_cons_self, List.infix_rfl⟩, found⟩

/-- In assembled data the bases with a class are those that the classes list, and the class of a base lists it. The
length index has the same bases if and only if items that list bases themselves list exactly these; a value is then
found among all bases if and only if it is found through some class. -/
theorem bases_agree_iff_listed (items rules suggestions uniques : Value) (reference : Reference)
    (assembled : assemble items rules suggestions uniques = .ok reference)
    (named : ∀ base ∈ reference.lengthIndex.bases, ∃ name, base = .name name) :
    (∀ base, base ∈ reference.classByBase.names ↔ reference.IsBase base) ∧
    (∀ base itemClass, reference.classOf? base = some itemClass →
      itemClass ∈ reference.classes ∧ base ∈ reference.basesOf itemClass) ∧
    ((∀ base, .name base ∈ reference.lengthIndex.bases ↔ reference.IsBase base) ↔
      ∀ listed, listedBases? items = some listed → ∀ base, .text base ∈ listed ↔ reference.IsBase base) ∧
    ((∀ base, .name base ∈ reference.lengthIndex.bases ↔ reference.IsBase base) →
      ∀ value, (Pool.choose reference []).finds value = true ↔
        ∃ itemClass ∈ reference.classes, (Pool.choose reference [itemClass]).finds value = true) := by
  refine ⟨fun base => mem_classByBase_iff assembled, fun base itemClass => isBase_of_classOf? assembled, ?_, ?_⟩
  · simp only [name_mem_index_iff assembled]
    cases listedBases? items with
    | none => simp
    | some listed => simp
  · intro same value
    rw [finds_all_iff assembled named same, exists_finds_class_iff]
end

def ringItems (bases : List String) (starts : List Int) : Value :=
  .table ⟨[("classesToBases", .table ⟨[("Rings", .list [.text "Iron Ring"])]⟩),
    ("sortedBases", .list (bases.map .text)), ("sortedBasesIndices", .list (starts.map .integer))]⟩

def ringReference (bases : List String) (starts : List Int) : Reference :=
  { Bundled.reference with
    basesByClass := ⟨[("Rings", ["Iron Ring"])]⟩
    classByBase := ⟨[("Iron Ring", "Rings")]⟩
    lengthIndex := ⟨bases.map .name, starts.map .number⟩
    extraClasses := []
    extraBases := []
    uniques := .empty }

theorem listed_ring_is_found :
    assemble (ringItems ["Iron Ring"] (List.replicate 9 0)) Bundled.rules .null .null =
      .ok (ringReference ["Iron Ring"] (List.replicate 9 0)) ∧
      (∀ base, .name base ∈ (ringReference ["Iron Ring"] (List.replicate 9 0)).lengthIndex.bases ↔
        (ringReference ["Iron Ring"] (List.replicate 9 0)).IsBase base) ∧
      (Pool.choose (ringReference ["Iron Ring"] (List.replicate 9 0)) []).finds "Iron" = true := by
  have assembled : assemble (ringItems ["Iron Ring"] (List.replicate 9 0)) Bundled.rules .null .null =
      .ok (ringReference ["Iron Ring"] (List.replicate 9 0)) := rfl
  obtain ⟨-, -, agree_iff, found_iff⟩ :=
    bases_agree_iff_listed _ _ _ _ _ assembled (by simp [ringReference])
  have same := agree_iff.mpr (by
    intro listed found base
    obtain rfl : [.text "Iron Ring"] = listed := Option.some.inj found
    simp [IsBase, classes, basesOf, ringReference, Table.names, Table.getD, Table.get?])
  refine ⟨assembled, same, (found_iff same "Iron").mpr ⟨"Rings", List.mem_cons_self, ?_⟩⟩
  decide +kernel

/-- Items that list another base in place of their ring are accepted: the ring is found through its class but not among
all bases. -/
theorem unlisted_ring_is_not_found :
    assemble (ringItems ["Arc"] [0, 0, 0]) Bundled.rules .null .null = .ok (ringReference ["Arc"] [0, 0, 0]) ∧
      .name "Arc" ∈ (ringReference ["Arc"] [0, 0, 0]).lengthIndex.bases ∧
      ¬(ringReference ["Arc"] [0, 0, 0]).IsBase "Arc" ∧ (ringReference ["Arc"] [0, 0, 0]).IsBase "Iron Ring" ∧
      .name "Iron Ring" ∉ (ringReference ["Arc"] [0, 0, 0]).lengthIndex.bases ∧
      (Pool.choose (ringReference ["Arc"] [0, 0, 0]) ["Rings"]).finds "Iron Ring" = true ∧
      (Pool.choose (ringReference ["Arc"] [0, 0, 0]) []).finds "Iron Ring" = false := by
  refine ⟨rfl, by simp [ringReference], ?_, ?_, by simp [ringReference], by decide +kernel, by decide +kernel⟩
  · simp [IsBase, classes, basesOf, ringReference, Table.names, Table.getD, Table.get?]
  · simp [IsBase, classes, basesOf, ringReference, Table.names, Table.getD, Table.get?]

end Reference
end LootFilter
