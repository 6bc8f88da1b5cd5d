import LootFilter.Proofs.Reference.LengthIndex
import Mathlib.Order.Bounds.Basic

/-! What the check of a length index accepts. It compares neighbours, an entry and the name before it; in order, this
says that each entry leads to the first name that is long enough. Entries that count from the end are only asked to
lead to a name that is long enough. -/

set_option autoImplicit false

namespace LootFilter

namespace LengthIndex

/-! ## Order -/

def NoLater (first second : String) : Prop :=
  first.length < second.length ∨ (first.length = second.length ∧ first ≤ second)

theorem precedes_eq_false_iff {first second : String} : precedes second first = false ↔ NoLater first second := by
  simp only [precedes, NoLater, Bool.or_eq_false_iff, Bool.and_eq_false_iff, decide_eq_false_iff_not,
    beq_eq_false_iff_ne, ← String.not_lt]
  by_cases later : second < first
  · simp only [later, not_true, or_false, and_false]
    omega
  · simp only [later, not_false_eq_true, or_true, and_true]
    omega

theorem NoLater.trans {first second third : String} (before : NoLater first second) (after : NoLater second third) :
    NoLater first third := by
  unfold NoLater at *
  by_cases shorter : first.length < third.length
  · exact .inl shorter
  · have := String.le_trans (before.resolve_left (by omega)).2 (after.resolve_left (by omega)).2
    exact .inr ⟨by omega, this⟩

instance : IsTrans String NoLater := ⟨fun _ _ _ => NoLater.trans⟩

theorem checkOrder_names_iff (names : List String) :
    checkOrder (names.map .name) = .ok () ↔ names.Pairwise NoLater := by
  rw [← List.isChain_iff_pairwise]
  induction names with
  | nil => simp [checkOrder]
  | cons first rest ih =>
    cases rest with
    | nil => simp [checkOrder]
    | cons second rest =>
      rw [List.isChain_cons_cons, ← precedes_eq_false_iff, ← ih]
      simp only [List.map_cons, checkOrder, follows?_name]
      cases precedes second first with
      | true => simp
      | false => simp

/-! ## Starts -/

def LongEnough (names : List String) (length : Nat) : Set Nat :=
  {place | ∃ name, names[place]? = some name ∧ length ≤ name.length}

section
variable {names : List String} {length : Nat}

theorem lt_of_mem_longEnough {place : Nat} (long : place ∈ LongEnough names length) : place < names.length := by
  obtain ⟨name, found, -⟩ := long
  exact (List.getElem?_eq_some_iff.mp found).1

theorem mem_longEnough_of_le (ordered : names.Pairwise NoLater) {first second : Nat} (le : first ≤ second)
    (inRange : second < names.length) (long : first ∈ LongEnough names length) : second ∈ LongEnough names length := by
  obtain ⟨name, found, fits⟩ := long
  obtain ⟨before, rfl⟩ := List.getElem?_eq_some_iff.mp found
  refine ⟨names[second], List.getElem?_eq_getElem inRange, ?_⟩
  obtain rfl | less := Nat.eq_or_lt_of_le le
  · exact fits
  · obtain shorter | same := List.pairwise_iff_getElem.mp ordered first second before inRange less
    · omega
    · omega

/-- In order, the first name of a length is one with a shorter name right before it. -/
theorem isLeast_longEnough_iff (ordered : names.Pairwise NoLater) {place : Nat} :
    IsLeast (LongEnough names length) place ↔
      place ∈ LongEnough names length ∧ ∀ before, place = before + 1 → before ∉ LongEnough names length := by
  apply and_congr_right
  intro long
  constructor
  · intro least before next inside
    have := least inside
    omega
  · intro short other inside
    by_contra less
    have inRange := lt_of_mem_longEnough long
    apply short (place - 1) (by omega)
    exact mem_longEnough_of_le ordered (by omega) (by omega) inside

theorem reaches_iff {position : Int} :
    (∃ base, Indexing.at? (names.map Base.name) position = some base ∧ length ≤ base.length) ↔
      ∃ place ∈ LongEnough names length, position = place ∨ position = (place : Int) - names.length := by
  simp only [Indexing.at?_eq_some_iff, List.getElem?_map, Option.map_eq_some_iff, List.length_map]
  constructor
  · intro reached
    obtain ⟨base, ⟨place, ⟨name, found, rfl⟩, same⟩, fits⟩ := reached
    exact ⟨place, ⟨name, found, fits⟩, same⟩
  · intro reached
    obtain ⟨place, ⟨name, found, fits⟩, same⟩ := reached
    exact ⟨.name name, ⟨place, ⟨name, found, rfl⟩, same⟩, fits⟩

theorem placed_names_iff (ordered : names.Pairwise NoLater) (position : Int) :
    Placed (names.map .name) length position ↔
      (∃ place : Nat, position = place ∧ IsLeast (LongEnough names length) place) ∨
        ∃ place ∈ LongEnough names length, position = (place : Int) - names.length := by
  have before : (∀ base, Indexing.at? (names.map Base.name) (position - 1) = some base → base.length < length) ↔
      ¬∃ base, Indexing.at? (names.map Base.name) (position - 1) = some base ∧ length ≤ base.length := by
    simp only [not_exists, not_and, Nat.not_le]
  rw [Placed, before, reaches_iff, reaches_iff]
  constructor
  · intro placed
    obtain ⟨⟨place, long, fromStart | fromEnd⟩, short⟩ := placed
    · refine .inl ⟨place, fromStart, (isLeast_longEnough_iff ordered).mpr ⟨long, ?_⟩⟩
      intro earlier next inside
      exact short (by omega) ⟨earlier, inside, .inl (by omega)⟩
    · exact .inr ⟨place, long, fromEnd⟩
  · intro least
    obtain ⟨place, fromStart, least⟩ | ⟨place, long, fromEnd⟩ := least
    · obtain ⟨long, short⟩ := (isLeast_longEnough_iff ordered).mp least
      refine ⟨⟨place, long, .inl fromStart⟩, fun inside reached => ?_⟩
      obtain ⟨earlier, held, same⟩ := reached
      have inRange := lt_of_mem_longEnough held
      exact short earlier (by omega) held
    · have inRange := lt_of_mem_longEnough long
      exact ⟨⟨place, long, .inr fromEnd⟩, fun inside => by omega⟩

end

theorem longest_names (names : List String) :
    longest (names.map .name) = (names.getLast?.map String.length).getD 0 := by
  rw [longest, List.getLast?_map, Option.map_map]
  rfl

/-- An index passes the check if and only if its names are in order, it has one start for each length up to that of the
last name, and each start is the first place of a name of its length or, counted from the end, any place of one. -/
theorem check_accepts_iff (names : List String) (starts : List Start) :
    check ⟨names.map .name, starts⟩ = .ok () ↔
      names.Pairwise NoLater ∧ starts.length = (names.getLast?.map String.length).getD 0 ∧
        ∀ (length : Nat) (start : Start), starts[length]? = some start →
          (∃ place : Nat, start.position = place ∧ IsLeast (LongEnough names (length + 1)) place) ∨
            ∃ place ∈ LongEnough names (length + 1), start.position = (place : Int) - names.length := by
  rw [check_eq_ok_iff, checkOrder_names_iff, checkCount_eq_ok_iff, longest_names, checkStarts_eq_ok_iff]
  apply and_congr_right
  intro ordered
  simp only [placed_names_iff ordered, Nat.add_comm 1]

/-- The last name is long enough for any length, so counted from the end it may stand for the first one of each. -/
theorem negative_start_accepted :
    check ⟨["Arc", "Ring"].map .name, [.number (-1), .number 0, .number 0, .number 1]⟩ = .ok () ∧
      ¬∀ (length : Nat) (start : Start),
        [Start.number (-1), .number 0, .number 0, .number 1][length]? = some start →
          ∃ place : Nat, start.position = place ∧ IsLeast (LongEnough ["Arc", "Ring"] (length + 1)) place := by
  refine ⟨rfl, fun all => ?_⟩
  obtain ⟨place, same, -⟩ := all 0 (.number (-1)) rfl
  exact absurd same (by simp [Start.position])

end LengthIndex

end LootFilter
