import LootFilter.Proofs.Answers
import LootFilter.Proofs.Reference.BaseSearch
import LootFilter.Reference.Assembly
import Mathlib.Data.List.Basic

/-! Searching through a length index finds a value in exactly the names that hold it: an index may skip the names that
are shorter than the value, and no others. -/

set_option autoImplicit false

namespace LootFilter

theorem Indexing.mem_upwardFrom_of_mem_drop {α : Type} {items : List α} {start : Int} {item : α}
    (member : item ∈ items.drop start.toNat) : item ∈ upwardFrom items start := by
  unfold upwardFrom
  split
  · exact member
  · exact List.mem_append_right _ (List.mem_of_mem_drop member)

theorem Indexing.mem_of_mem_upwardFrom {α : Type} {items : List α} {start : Int} {item : α}
    (member : item ∈ upwardFrom items start) : item ∈ items := by
  unfold upwardFrom at member
  split at member
  · exact List.mem_of_mem_drop member
  · obtain last | again := List.mem_append.mp member
    · exact List.mem_of_mem_drop last
    · exact again

theorem Indexing.at?_eq_some_iff {α : Type} {items : List α} {index : Int} {item : α} :
    at? items index = some item ↔
      ∃ place : Nat, items[place]? = some item ∧ (index = place ∨ index = (place : Int) - items.length) := by
  unfold at?
  split
  · next fromStart =>
    constructor
    · intro found
      exact ⟨index.toNat, found, by omega⟩
    · intro placed
      obtain ⟨place, found, same⟩ := placed
      have inRange := (List.getElem?_eq_some_iff.mp found).1
      rw [show index.toNat = place by omega, found]
  · next fromEnd =>
    split
    · next inside =>
      constructor
      · intro found
        exact ⟨_, found, by omega⟩
      · intro placed
        obtain ⟨place, found, same⟩ := placed
        rw [show items.length - (-index).toNat = place by omega, found]
    · next outside =>
      refine ⟨nofun, fun placed => ?_⟩
      obtain ⟨place, found, same⟩ := placed
      omega

theorem Indexing.bounds_of_at? {α : Type} {items : List α} {index : Int} {item : α}
    (found : at? items index = some item) : -(items.length : Int) ≤ index ∧ index < items.length := by
  obtain ⟨place, held, same⟩ := at?_eq_some_iff.mp found
  have inRange := (List.getElem?_eq_some_iff.mp held).1
  omega

namespace LengthIndex

/-- No base is longer than the lengths that have a start, and every base before the start of a length is shorter. A
negative start leaves no base out, as long as it does not lie before all of them. -/
structure Sound (index : LengthIndex) : Prop where
  searchable : index.Searchable
  longest : ∀ base ∈ index.bases, base.length ≤ index.starts.length
  shorter : ∀ (length : Nat) start, index.starts[length]? = some start →
    ∀ base ∈ index.bases.take start.position.toNat, base.length ≤ length

theorem mem_drop_of_le {index : LengthIndex} (sound : index.Sound) {base : Base} (member : base ∈ index.bases)
    {length : Nat} {start : Start} (found : index.starts[length]? = some start) (long : length < base.length) :
    base ∈ index.bases.drop start.position.toNat := by
  rw [← List.take_append_drop start.position.toNat index.bases] at member
  obtain before | behind := List.mem_append.mp member
  · have := sound.shorter length start found base before
    omega
  · exact behind

theorem finds_iff {index : LengthIndex} (sound : index.Sound)
    (named : ∀ base ∈ index.bases, ∃ name, base = .name name) {value : String} :
    index.finds value = true ↔ ∃ name, .name name ∈ index.bases ∧ value.toList <:+: name.toList := by
  rw [finds, finds?]
  split
  · next long =>
    constructor
    · intro found
      cases found
    · intro held
      obtain ⟨name, member, inside⟩ := held
      have fits := inside.length_le
      have bound : name.length ≤ index.starts.length := sound.longest _ member
      simp only [String.length_toList] at fits
      omega
  · next fits =>
    simp only [sound.searchable.neg_startFor_le, if_true, Option.getD_some, List.any_eq_true]
    constructor
    · intro found
      obtain ⟨base, met, held⟩ := found
      have member := Indexing.mem_of_mem_upwardFrom met
      obtain ⟨name, rfl⟩ := named base member
      exact ⟨name, member, Text.occursIn_iff.mp held⟩
    · intro held
      obtain ⟨name, member, inside⟩ := held
      refine ⟨.name name, Indexing.mem_upwardFrom_of_mem_drop ?_, Text.occursIn_iff.mpr inside⟩
      -- A name that holds the value is long enough, so it is not among those before the start.
      rw [startFor]
      split
      · exact member
      · next visible =>
        have long := inside.length_le
        have inRange : value.length - 1 < index.starts.length := by omega
        have start := List.getElem?_eq_getElem inRange
        rw [List.getD_eq_getElem?_getD, List.getElem?_map, start]
        apply mem_drop_of_le sound member start
        simp only [String.length_toList] at long
        change value.length - 1 < name.length
        omega

/-! ## Checked indices -/

theorem check_eq_ok_iff {index : LengthIndex} :
    index.check = .ok () ↔ checkOrder index.bases = .ok () ∧ checkCount index.bases index.starts.length = .ok () ∧
      checkStarts index.bases 1 index.starts = .ok () := by
  unfold check
  cases checkOrder index.bases with
  | error flaw => simp [bind, Except.bind]
  | ok done =>
    cases checkCount index.bases index.starts.length with
    | error flaw => simp [bind, Except.bind]
    | ok done => simp [bind, Except.bind]

theorem checkCount_eq_ok_iff {bases : List Base} {count : Nat} :
    checkCount bases count = .ok () ↔ count = longest bases := by
  unfold checkCount
  split
  · next same => simp [same]
  · next other => simp [other]

/-- A position leads to a base that is long enough, and no such base stands right before it. -/
def Placed (bases : List Base) (length : Nat) (position : Int) : Prop :=
  (∃ base, Indexing.at? bases position = some base ∧ length ≤ base.length) ∧
    (0 < position → ∀ base, Indexing.at? bases (position - 1) = some base → base.length < length)

theorem checkStarts_cons_iff (bases : List Base) (length : Nat) (first : Start) (rest : List Start) :
    checkStarts bases length (first :: rest) = .ok () ↔
      Placed bases length first.position ∧ checkStarts bases (length + 1) rest = .ok () := by
  rw [checkStarts, Placed]
  cases Indexing.at? bases first.position with
  | none => simp
  | some base =>
    simp only [Option.some.injEq, exists_eq_left', Bool.or_eq_true, Bool.and_eq_true, decide_eq_true_eq,
      Option.any_eq_true]
    split
    · next misplaced =>
      simp only [reduceCtorEq, false_iff, not_and]
      intro placed
      obtain short | ⟨inside, earlier, held, long⟩ := misplaced
      · omega
      · have := placed.2 inside earlier held
        omega
    · next placed =>
      have here : length ≤ base.length ∧
          (0 < first.position → ∀ base, Indexing.at? bases (first.position - 1) = some base → base.length < length) := by
        constructor
        · omega
        · intro inside earlier held
          by_contra long
          exact placed (.inr ⟨inside, earlier, held, by omega⟩)
      exact (and_iff_right here).symm

theorem checkStarts_eq_ok_iff (bases : List Base) (length : Nat) (starts : List Start) :
    checkStarts bases length starts = .ok () ↔
      ∀ count start, starts[count]? = some start → Placed bases (length + count) start.position := by
  induction starts generalizing length with
  | nil => simp [checkStarts]
  | cons first rest ih =>
    rw [checkStarts_cons_iff, ih]
    constructor
    · intro both count start found
      cases count with
      | zero =>
        cases found
        exact both.1
      | succ count =>
        have later := both.2 count start found
        rwa [Nat.add_assoc, Nat.add_comm 1] at later
    · intro all
      refine ⟨all 0 first rfl, fun count start found => ?_⟩
      have later := all (count + 1) start found
      rwa [← Nat.add_assoc, Nat.add_right_comm] at later

theorem length_le_of_follows? {first second : Base} (ordered : first.follows? second = some false) :
    first.length ≤ second.length := by
  unfold Base.follows? at ordered
  split at ordered
  · omega
  · split at ordered
    · cases ordered
    · omega

theorem pairwise_of_checkOrder {bases : List Base} (checked : checkOrder bases = .ok ()) :
    bases.Pairwise fun first second => first.length ≤ second.length := by
  fun_induction checkOrder bases with
  | case1 first second rest unlike => cases checked
  | case2 first second rest unordered => cases checked
  | case3 first second rest ordered ih =>
    have later := ih checked
    refine List.pairwise_cons.mpr ⟨?_, later⟩
    intro base member
    have step := length_le_of_follows? ordered
    obtain rfl | behind := List.mem_cons.mp member
    · exact step
    · have := (List.pairwise_cons.mp later).1 base behind
      omega
  | case4 bases short =>
    match bases with
    | [] => exact .nil
    | [base] => exact List.pairwise_singleton _ base
    | first :: second :: rest => exact absurd rfl (short first second rest)

section
variable {bases : List Base} (ordered : bases.Pairwise fun first second => first.length ≤ second.length)
include ordered

theorem length_le_of_mem_take {count : Nat} {last base : Base} (found : bases[count]? = some last)
    (member : base ∈ bases.take (count + 1)) : base.length ≤ last.length := by
  have split : bases.take (count + 1) = bases.take count ++ [last] := by rw [List.take_add_one, found]; rfl
  have sorted := ordered.sublist (List.take_sublist (count + 1) bases)
  rw [split] at member sorted
  obtain before | same := List.mem_append.mp member
  · exact (List.pairwise_append.mp sorted).2.2 base before last List.mem_cons_self
  · obtain rfl := List.mem_singleton.mp same
    exact Nat.le_refl _

theorem length_le_longest {base : Base} (member : base ∈ bases) : base.length ≤ longest bases := by
  have some_base : 0 < bases.length := List.length_pos_of_mem member
  have found : bases[bases.length - 1]? = some bases[bases.length - 1] := List.getElem?_eq_getElem (by omega)
  rw [longest, List.getLast?_eq_getElem?, found]
  apply length_le_of_mem_take ordered found
  rw [Nat.sub_add_cancel some_base, List.take_length]
  exact member

/-- A position of its length has only shorter bases before it. -/
theorem shorter_of_placed {length : Nat} {position : Int} (placed : Placed bases length position) :
    ∀ base ∈ bases.take position.toNat, base.length < length := by
  intro base member
  -- The base right before the position is the longest one before it.
  have positive : 0 < position := by
    by_contra none
    rw [Int.toNat_of_nonpos (by omega)] at member
    cases member
  obtain ⟨⟨met, reached, -⟩, before⟩ := placed
  obtain ⟨place, found, same⟩ := Indexing.at?_eq_some_iff.mp reached
  have inRange := (List.getElem?_eq_some_iff.mp found).1
  have last : bases[place - 1]? = some bases[place - 1] := List.getElem?_eq_getElem (by omega)
  rw [show position.toNat = place - 1 + 1 by omega] at member
  have longest := length_le_of_mem_take ordered last member
  have shorter := before positive _ (Indexing.at?_eq_some_iff.mpr ⟨place - 1, last, by omega⟩)
  omega

end

theorem bounds_of_check {index : LengthIndex} (checked : index.check = .ok ()) :
    ∀ start ∈ index.starts, -(index.bases.length : Int) ≤ start.position ∧ start.position < index.bases.length := by
  intro start member
  obtain ⟨count, found⟩ := List.mem_iff_getElem?.mp member
  obtain ⟨⟨base, reached, -⟩, -⟩ :=
    (checkStarts_eq_ok_iff _ _ _).mp (check_eq_ok_iff.mp checked).2.2 count start found
  exact Indexing.bounds_of_at? reached

theorem sound_of_check {index : LengthIndex} (checked : index.check = .ok ()) : index.Sound := by
  obtain ⟨order, count, starts⟩ := check_eq_ok_iff.mp checked
  have ordered := pairwise_of_checkOrder order
  constructor
  · intro start member
    have := (bounds_of_check checked start member).1
    omega
  · intro base member
    rw [checkCount_eq_ok_iff.mp count]
    exact length_le_longest ordered member
  · intro length start found base member
    have placed := (checkStarts_eq_ok_iff _ _ _).mp starts length start found
    have := shorter_of_placed ordered placed base member
    omega

theorem length_leading_le {α β : Type} (answer? : α → Option β) (items : List α) :
    (leading answer? items).length ≤ items.length := by
  induction items with
  | nil => exact Nat.le_refl 0
  | cons item rest ih =>
    unfold leading
    split
    · exact Nat.zero_le _
    · exact Nat.succ_le_succ ih

theorem sound_ofValues {bases starts : List Value} {index : LengthIndex} (done : ofValues bases starts = .ok index) :
    index.Sound := by
  apply sound_of_check
  unfold ofValues at done
  obtain ⟨_, order, done⟩ := ok_of_bind done
  by_cases unmeasured : (leading Base.ofValue? bases).length < bases.length
  · simp only [unmeasured, if_true] at done
    cases done
  · simp only [unmeasured, if_false] at done
    obtain ⟨_, count, done⟩ := ok_of_bind done
    obtain ⟨_, places, done⟩ := ok_of_bind done
    by_cases missing : (leading Start.ofValue? starts).length < starts.length
    · simp only [missing, if_true] at done
      cases done
    · simp only [missing, if_false] at done
      cases done
      have positions : (leading Start.ofValue? starts).length = starts.length := by
        have := length_leading_le Start.ofValue? starts
        omega
      simp only [check, order, positions, count, places]
      rfl

/-! ## Computed indices -/

theorem place_of_startsFrom {covered position : Nat} {names : List String} {length : Nat} {start : Start}
    (found : (startsFrom covered position names)[length]? = some start) :
    ∃ (count : Nat) (name : String), start = .number (position + count : Nat) ∧ names[count]? = some name ∧
      covered + length < name.length ∧ ∀ shorter ∈ names.take count, shorter.length ≤ covered + length := by
  induction names generalizing covered position length with
  | nil => cases found
  | cons first rest ih =>
    rw [startsFrom, List.getElem?_append, List.length_replicate] at found
    split at found
    · next opened =>
      rw [List.getElem?_replicate, if_pos opened] at found
      obtain rfl := Option.some.inj found
      exact ⟨0, first, rfl, rfl, by omega, nofun⟩
    · next later =>
      obtain ⟨count, name, rfl, held, long, short⟩ := ih found
      refine ⟨count + 1, name, ?_, held, by omega, ?_⟩
      · rw [Nat.add_right_comm, Nat.add_assoc]
      · intro shorter member
        rw [List.take_succ_cons] at member
        obtain rfl | member := List.mem_cons.mp member
        · omega
        · have := short shorter member
          omega

theorem length_le_of_startsFrom (covered position : Nat) {names : List String} {name : String} (member : name ∈ names) :
    name.length ≤ covered + (startsFrom covered position names).length := by
  induction names generalizing covered position with
  | nil => cases member
  | cons first rest ih =>
    rw [startsFrom, List.length_append, List.length_replicate]
    obtain rfl | member := List.mem_cons.mp member
    · omega
    · have := ih (max covered first.length) (position + 1) member
      omega

theorem named_ofNames (names : List String) : ∀ base ∈ (ofNames names).bases, ∃ name, base = .name name := by
  intro base member
  obtain ⟨name, -, rfl⟩ := List.mem_map.mp member
  exact ⟨name, rfl⟩

theorem sound_ofNames (names : List String) : (ofNames names).Sound := by
  constructor
  · intro start member
    obtain ⟨length, found⟩ := List.mem_iff_getElem?.mp member
    obtain ⟨count, -, rfl, -⟩ := place_of_startsFrom found
    simp only [Start.position]
    omega
  · intro base member
    obtain ⟨name, inside, rfl⟩ := List.mem_map.mp member
    have := length_le_of_startsFrom 0 0 inside
    change name.length ≤ (startsFrom 0 0 (sortNames names)).length
    omega
  · intro length start found base member
    obtain ⟨count, -, rfl, -, -, short⟩ := place_of_startsFrom found
    -- The starts count from the first name, so a position is the count of names before it.
    have place : (Start.number (0 + count : Nat)).position.toNat = count := by simp [Start.position]
    rw [place, ofNames, ← List.map_take] at member
    obtain ⟨name, inside, rfl⟩ := List.mem_map.mp member
    have := short name inside
    change name.length ≤ length
    omega

end LengthIndex

namespace Reference

section
variable {items rules suggestions uniques : Value} {reference : Reference}

theorem table_of_fieldOf {name : String} {value field : Value} (found : fieldOf name value = .ok field) :
    ∃ fields, value = .table fields := by
  cases value with
  | table fields => exact ⟨fields, rfl⟩
  | _ => cases found

theorem table_of_basesByClassOf {value : Value} {basesByClass : Table (List String)}
    (done : basesByClassOf value = .ok basesByClass) : ∃ fields, value = .table fields := by
  cases value with
  | table fields => exact ⟨fields, rfl⟩
  | _ => cases done

theorem assemble_items (done : assemble items rules suggestions uniques = .ok reference) :
    (∃ fields, items = .table fields) ∧ (∃ source, basesByClassOf source = .ok reference.basesByClass) ∧
      reference.classByBase = classByBaseOf reference.basesByClass ∧
      lengthIndexOf items reference.classByBase.names = .ok reference.lengthIndex := by
  unfold assemble at done
  obtain ⟨hasClasses, -, done⟩ := ok_of_bind done
  -- The classes stand in a field of their own or are the whole document; what follows is the same.
  have table : ∃ fields, items = .table fields := by
    cases hasClasses with
    | true =>
      obtain ⟨classes, field, -⟩ := ok_of_bind done
      exact table_of_fieldOf field
    | false =>
      obtain ⟨basesByClass, classed, -⟩ := ok_of_bind done
      exact table_of_basesByClassOf classed
  refine ⟨table, ?_⟩
  cases hasClasses
  case' true => obtain ⟨classes, -, done⟩ := ok_of_bind done
  all_goals
    obtain ⟨basesByClass, classed, done⟩ := ok_of_bind done
    obtain ⟨index, indexed, done⟩ := ok_of_bind done
    -- The sixteen other parts do not touch the index.
    iterate 16 obtain ⟨_, -, done⟩ := ok_of_bind done
    cases done
    exact ⟨⟨_, classed⟩, rfl, indexed⟩

theorem lengthIndexOf_of_assemble (done : assemble items rules suggestions uniques = .ok reference) :
    lengthIndexOf items reference.classByBase.names = .ok reference.lengthIndex :=
  (assemble_items done).2.2.2

theorem sound_of_givenIndex {bases starts : Value} {index : LengthIndex}
    (done : givenIndex bases starts = .ok index) : index.Sound := by
  unfold givenIndex at done
  obtain ⟨baseValues, -, done⟩ := ok_of_bind done
  obtain ⟨startValues, -, done⟩ := ok_of_bind done
  cases taken : LengthIndex.ofValues baseValues startValues with
  | error flaw =>
    rw [taken] at done
    cases done
  | ok given =>
    rw [taken] at done
    cases done
    exact LengthIndex.sound_ofValues taken

theorem sound_of_assemble (done : assemble items rules suggestions uniques = .ok reference) :
    reference.lengthIndex.Sound := by
  have indexed := lengthIndexOf_of_assemble done
  unfold lengthIndexOf at indexed
  obtain ⟨hasBases, -, indexed⟩ := ok_of_bind indexed
  obtain ⟨hasStarts, -, indexed⟩ := ok_of_bind indexed
  split at indexed
  · obtain ⟨bases, -, indexed⟩ := ok_of_bind indexed
    obtain ⟨starts, -, indexed⟩ := ok_of_bind indexed
    exact sound_of_givenIndex indexed
  · rw [← Except.ok.inj indexed]
    exact LengthIndex.sound_ofNames _

end

end Reference

end LootFilter
