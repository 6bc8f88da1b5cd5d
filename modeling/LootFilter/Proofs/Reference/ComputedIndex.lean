import LootFilter.Proofs.Reference.BaseNames
import LootFilter.Proofs.Reference.CheckedIndex

/-! Building a length index from names. The names are put in order, each of them once, and the start of each length is
found by a search that goes on where the search for the length before has stopped. No search runs past the last name,
and each one stops at the first name that is long enough. -/

set_option autoImplicit false

namespace LootFilter

namespace LengthIndex

/-! ## Order -/

/-- Shorter names come first, and names of one length by their characters; no name comes twice. -/
def Earlier (first second : String) : Prop :=
  first.length < second.length ∨ (first.length = second.length ∧ first < second)

theorem precedes_iff {first second : String} : precedes first second = true ↔ Earlier first second := by
  simp only [precedes, Earlier, Bool.or_eq_true, Bool.and_eq_true, decide_eq_true_eq, beq_iff_eq]

theorem Earlier.noLater {first second : String} (earlier : Earlier first second) : NoLater first second :=
  earlier.imp_right fun same => ⟨same.1, String.not_lt.mp (String.lt_asymm same.2)⟩

theorem Earlier.trans {first second third : String} (before : Earlier first second) (after : Earlier second third) :
    Earlier first third := by
  unfold Earlier at *
  by_cases shorter : first.length < third.length
  · exact .inl shorter
  · have less := String.lt_trans (before.resolve_left (by omega)).2 (after.resolve_left (by omega)).2
    exact .inr ⟨by omega, less⟩

theorem earlier_of_not_precedes {name head : String} (apart : name ≠ head) (later : ¬precedes name head = true) :
    Earlier head name := by
  apply (precedes_eq_false_iff.mp (Bool.of_not_eq_true later)).imp_right
  rintro ⟨same, le⟩
  refine ⟨same, ?_⟩
  by_contra less
  exact apart (String.le_antisymm (String.not_lt.mp less) le)

theorem pairwise_insertName (name : String) {sorted : List String} (ordered : sorted.Pairwise Earlier) :
    (insertName name sorted).Pairwise Earlier := by
  induction sorted with
  | nil => exact List.pairwise_singleton Earlier name
  | cons head rest ih =>
    obtain ⟨least, others⟩ := List.pairwise_cons.mp ordered
    unfold insertName
    split
    · exact ordered
    · next apart =>
      split
      · next first =>
        have before := precedes_iff.mp first
        refine List.pairwise_cons.mpr ⟨?_, ordered⟩
        intro other member
        obtain rfl | member := List.mem_cons.mp member
        · exact before
        · exact before.trans (least other member)
      · next later =>
        refine List.pairwise_cons.mpr ⟨?_, ih others⟩
        intro other member
        obtain rfl | member := mem_insertName.mp member
        · exact earlier_of_not_precedes apart later
        · exact least other member

theorem pairwise_sortNames (names : List String) : (sortNames names).Pairwise Earlier := by
  -- Names are put into a list that is in order all the way.
  have inserted : ∀ sorted : List String, sorted.Pairwise Earlier →
      (names.foldl (fun sorted name => insertName name sorted) sorted).Pairwise Earlier := by
    induction names with
    | nil => exact fun sorted ordered => ordered
    | cons name rest ih => exact fun sorted ordered => ih _ (pairwise_insertName name ordered)
  exact inserted [] .nil

/-! ## Places -/

/-- The place of the first name of at least this length, looked for from a place upward. There is none past the last
name. -/
def placeFrom? (names : List String) (length place : Nat) : Option Nat :=
  if inRange : place < names.length then
    if names[place].length < length then placeFrom? names length (place + 1) else some place
  else none
termination_by names.length - place

def placesFrom? (names : List String) : Nat → Nat → Nat → Option (List Nat)
  | 0, _, _ => some []
  | count + 1, length, place => do
    let found ← placeFrom? names length place
    let others ← placesFrom? names count (length + 1) found
    return found :: others

def build? (names : List String) : Option LengthIndex := do
  let ordered := sortNames names
  let places ← placesFrom? ordered (longest (ordered.map .name)) 1 0
  return ⟨ordered.map .name, places.map fun (place : Nat) => .number place⟩

section
variable {names : List String} {length target place : Nat}

theorem placeFrom?_eq_some (least : IsLeast (LongEnough names length) target) (behind : place ≤ target) :
    placeFrom? names length place = some target := by
  have inRange := lt_of_mem_longEnough least.1
  fun_induction placeFrom? names length place with
  | case1 place inside short ih =>
    -- A name that is too short is not the target, so the target is still ahead.
    apply ih
    obtain rfl | ahead := Nat.eq_or_lt_of_le behind
    · obtain ⟨name, found, long⟩ := least.1
      obtain rfl := Option.some.inj ((List.getElem?_eq_getElem inside).symm.trans found)
      omega
    · exact ahead
  | case2 place inside long =>
    have here : place ∈ LongEnough names length := ⟨names[place], List.getElem?_eq_getElem inside, by omega⟩
    rw [Nat.le_antisymm behind (least.2 here)]
  | case3 place outside => omega

theorem longEnough_subset_succ (names : List String) (length : Nat) :
    LongEnough names (length + 1) ⊆ LongEnough names length := by
  rintro place ⟨name, found, long⟩
  exact ⟨name, found, by omega⟩

/-- Longer names start later, so no search has to go back. -/
theorem placesFrom?_eq_some {places : List Nat} (behind : ∀ first ∈ places.head?, place ≤ first)
    (least : ∀ (count target : Nat), places[count]? = some target → IsLeast (LongEnough names (length + count)) target) :
    placesFrom? names places.length length place = some places := by
  induction places generalizing length place with
  | nil => rfl
  | cons first rest ih =>
    have here : IsLeast (LongEnough names length) first := least 0 first rfl
    have found := placeFrom?_eq_some here (behind first rfl)
    have later : placesFrom? names rest.length (length + 1) first = some rest := by
      apply ih
      · intro second head
        have next := least 1 second (by rwa [List.getElem?_cons_succ, ← List.head?_eq_getElem?])
        exact next.mono here (longEnough_subset_succ names length)
      · intro count target held
        have next := least (count + 1) target held
        rwa [← Nat.add_assoc, Nat.add_right_comm] at next
    rw [List.length_cons, placesFrom?, found, Option.bind_eq_bind, Option.bind_some, later]
    rfl

end

/-! ## The index of some names -/

section
variable (names : List String)

/-- The start of a length is the first place of a name that long. -/
theorem isLeast_of_startsFrom {length : Nat} {start : Start} (found : (startsFrom 0 0 names)[length]? = some start) :
    ∃ place : Nat, start = .number place ∧ IsLeast (LongEnough names (length + 1)) place := by
  obtain ⟨place, name, rfl, held, long, short⟩ := place_of_startsFrom found
  refine ⟨place, by rw [Nat.zero_add], ⟨name, held, by omega⟩, ?_⟩
  rintro other ⟨name, held, long⟩
  by_contra before
  have member : name ∈ names.take place := by
    apply List.mem_of_getElem? (i := other)
    rw [List.getElem?_take_of_lt (by omega), held]
  have := short name member
  omega

theorem lt_length_startsFrom_iff {length : Nat} :
    length < (startsFrom 0 0 names).length ↔ ∃ name ∈ names, length < name.length := by
  constructor
  · intro inRange
    obtain ⟨place, -, ⟨name, held, long⟩, -⟩ := isLeast_of_startsFrom names (List.getElem?_eq_getElem inRange)
    exact ⟨name, List.mem_of_getElem? held, long⟩
  · rintro ⟨name, member, long⟩
    have := length_le_of_startsFrom 0 0 member
    omega

theorem ofNames_starts : (ofNames names).starts = startsFrom 0 0 (sortNames names) := rfl

theorem length_starts_eq_longest :
    (ofNames names).starts.length = longest ((sortNames names).map .name) := by
  have ordered : ((sortNames names).map Base.name).Pairwise fun first second => first.length ≤ second.length := by
    refine List.pairwise_map.mpr ((pairwise_sortNames names).imp fun earlier => ?_)
    exact earlier.elim Nat.le_of_lt fun same => Nat.le_of_eq same.1
  rw [ofNames_starts]
  apply Nat.le_antisymm
  · by_contra more
    obtain ⟨name, member, long⟩ := (lt_length_startsFrom_iff (sortNames names)).mp (Nat.lt_of_not_le more)
    exact Nat.not_le.mpr long (length_le_longest ordered (List.mem_map_of_mem member))
  · rw [longest_names]
    cases last : (sortNames names).getLast? with
    | none => exact Nat.zero_le _
    | some name =>
      have := length_le_of_startsFrom 0 0 (List.mem_of_getLast? last)
      simp only [Option.map_some, Option.getD_some]
      omega

theorem exists_places : ∃ places : List Nat, (ofNames names).starts = places.map fun (place : Nat) => .number place := by
  refine ⟨(ofNames names).starts.map fun start => start.position.toNat, ?_⟩
  rw [List.map_map]
  refine (List.map_id _).symm.trans (List.map_congr_left fun start member => ?_)
  obtain ⟨length, found⟩ := List.mem_iff_getElem?.mp member
  obtain ⟨place, rfl, -⟩ := isLeast_of_startsFrom (sortNames names) found
  rfl

theorem build?_eq_ofNames : build? names = some (ofNames names) := by
  obtain ⟨places, same⟩ := exists_places names
  have count : places.length = longest ((sortNames names).map .name) := by
    rw [← length_starts_eq_longest, same, List.length_map]
  have least : ∀ (count target : Nat), places[count]? = some target →
      IsLeast (LongEnough (sortNames names) (1 + count)) target := by
    intro count target held
    have found : (startsFrom 0 0 (sortNames names))[count]? = some (.number target) := by
      rw [← ofNames_starts, same, List.getElem?_map, held]
      rfl
    obtain ⟨place, position, first⟩ := isLeast_of_startsFrom (sortNames names) found
    obtain rfl := Int.ofNat_inj.mp (Start.number.inj position)
    rwa [Nat.add_comm]
  rw [build?, ← count, placesFrom?_eq_some (fun first _ => Nat.zero_le first) least, Option.bind_eq_bind,
    Option.bind_some, ← same]
  rfl

theorem check_ofNames : (ofNames names).check = .ok () := by
  have ordered : (sortNames names).Pairwise NoLater := (pairwise_sortNames names).imp Earlier.noLater
  refine check_eq_ok_iff.mpr ⟨?_, ?_, ?_⟩
  · exact (checkOrder_names_iff _).mpr ordered
  · exact checkCount_eq_ok_iff.mpr (length_starts_eq_longest names)
  · refine (checkStarts_eq_ok_iff _ _ _).mpr fun count start found => ?_
    obtain ⟨place, rfl, least⟩ := isLeast_of_startsFrom (sortNames names) found
    rw [Nat.add_comm] at least
    exact (placed_names_iff ordered _).mpr (.inl ⟨place, rfl, least⟩)

theorem length_starts_eq_max : (ofNames names).starts.length = (names.map String.length).max?.getD 0 := by
  have reached : ∀ length, length < (ofNames names).starts.length ↔ ∃ name ∈ names, length < name.length := by
    intro length
    simp only [ofNames_starts, lt_length_startsFrom_iff, mem_sortNames]
  cases most : (names.map String.length).max? with
  | none =>
    have nothing : names = [] := List.map_eq_nil_iff.mp (List.max?_eq_none_iff.mp most)
    rw [nothing]
    rfl
  | some greatest =>
    obtain ⟨member, bound⟩ := List.max?_eq_some_iff.mp most
    obtain ⟨name, listed, rfl⟩ := List.mem_map.mp member
    apply Nat.le_antisymm
    · by_contra more
      obtain ⟨other, inside, long⟩ := (reached name.length).mp (Nat.lt_of_not_le more)
      exact Nat.not_le.mpr long (bound _ (List.mem_map_of_mem inside))
    · by_contra less
      exact Nat.lt_irrefl _ ((reached _).mpr ⟨name, listed, Nat.lt_of_not_le less⟩)

/-- Building an index never looks past the names. The answer has the names in order, each of them once; it has one start
for each length up to that of a longest name, which is the first place of a name that long; and it passes the check of
an index. -/
theorem build?_answers_checked_index :
    build? names = some (ofNames names) ∧
    (ofNames names).bases = (sortNames names).map .name ∧
    (sortNames names).Pairwise Earlier ∧ (∀ name, name ∈ sortNames names ↔ name ∈ names) ∧
    (ofNames names).starts.length = (names.map String.length).max?.getD 0 ∧
    (∀ (length : Nat) (start : Start), (ofNames names).starts[length]? = some start →
      ∃ place : Nat, start = .number place ∧ IsLeast (LongEnough (sortNames names) (length + 1)) place) ∧
    (ofNames names).check = .ok () := by
  refine ⟨build?_eq_ofNames names, rfl, pairwise_sortNames names, fun name => mem_sortNames, length_starts_eq_max names,
    ?_, check_ofNames names⟩
  intro length start found
  exact isLeast_of_startsFrom (sortNames names) found

end

end LengthIndex

end LootFilter
