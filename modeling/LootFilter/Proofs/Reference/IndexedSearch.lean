import LootFilter.Proofs.Reference.LengthIndex

/-! Searching a length index position by position. The search looks bases up by signed positions, which could lie
outside of the tables; on an index that passes its check none of them does, and the answer is that of a scan of all
names. -/

set_option autoImplicit false

namespace LootFilter

namespace Indexing

variable {α : Type}

/-- Looks at `count` items from an index upward, until one passes the test. An index without an item is a failure. -/
def search? (items : List α) (test : α → Bool) : Nat → Int → Option Bool
  | 0, _ => some false
  | count + 1, index => do
    let item ← at? items index
    if test item then some true else search? items test count (index + 1)

theorem upwardFrom_step {items : List α} {index : Int} (above : -(items.length : Int) ≤ index)
    (below : index < items.length) :
    ∃ item, at? items index = some item ∧ upwardFrom items index = item :: upwardFrom items (index + 1) := by
  by_cases nonnegative : 0 ≤ index
  · have inRange : index.toNat < items.length := by omega
    refine ⟨items[index.toNat], ?_, ?_⟩
    · rw [at?, if_pos nonnegative]
      exact List.getElem?_eq_getElem inRange
    · rw [upwardFrom, upwardFrom, if_pos nonnegative, if_pos (by omega), List.drop_eq_getElem_cons inRange,
        Int.toNat_add nonnegative (by omega)]
      rfl
  · have inRange : items.length - (-index).toNat < items.length := by omega
    refine ⟨items[items.length - (-index).toNat], ?_, ?_⟩
    · rw [at?, if_neg nonnegative, if_pos (by omega)]
      exact List.getElem?_eq_getElem inRange
    · rw [upwardFrom, if_neg nonnegative, List.drop_eq_getElem_cons inRange, List.cons_append, upwardFrom]
      -- Behind the last item the whole list follows, which is where a count from zero starts.
      split
      · next last =>
        have done : items.length - (-index).toNat + 1 = items.length := by omega
        have start : (index + 1).toNat = 0 := by omega
        rw [done, start, List.drop_length, List.nil_append, List.drop_zero]
      · next before =>
        have next : items.length - (-index).toNat + 1 = items.length - (-(index + 1)).toNat := by omega
        rw [next]

theorem search?_eq_some {items : List α} (test : α → Bool) {count : Nat} {index : Int}
    (above : -(items.length : Int) ≤ index) (whole : index + count = items.length) :
    search? items test count index = some ((upwardFrom items index).any test) := by
  induction count generalizing index with
  | zero =>
    have nothing : upwardFrom items index = [] := by
      rw [upwardFrom, if_pos (by omega), List.drop_eq_nil_iff]
      omega
    rw [nothing]
    rfl
  | succ count ih =>
    obtain ⟨item, found, step⟩ := upwardFrom_step above (by omega)
    have later : search? items test count (index + 1) = some ((upwardFrom items (index + 1)).any test) :=
      ih (by omega) (by omega)
    rw [search?, found, step, List.any_cons, Option.bind_eq_bind, Option.bind_some, later]
    cases test item with
    | true => rfl
    | false => rfl

/-- Up to the end of the list, only an index before its start makes the search fail. -/
theorem search?_to_end (items : List α) (test : α → Bool) (index : Int) :
    search? items test (items.length - index).toNat index =
      if -index ≤ items.length then some ((upwardFrom items index).any test) else none := by
  split
  · next above =>
    by_cases inside : index ≤ items.length
    · exact search?_eq_some test (by omega) (by omega)
    · have nothing : upwardFrom items index = [] := by
        rw [upwardFrom, if_pos (by omega), List.drop_eq_nil_iff]
        omega
      rw [nothing, show (items.length - index).toNat = 0 by omega]
      rfl
  · next below =>
    have outside : at? items index = none := by rw [at?, if_neg (by omega), if_neg (by omega)]
    obtain ⟨count, some_steps⟩ : ∃ count, (items.length - index).toNat = count + 1 :=
      Nat.exists_eq_add_one.mpr (by omega)
    rw [some_steps, search?, outside]
    rfl

end Indexing

namespace LengthIndex

def search? (index : LengthIndex) (value : String) : Option Bool :=
  if index.starts.length < value.length then some false
  else do
    let start ←
      if value.length = 0 then some 0
      else (Indexing.at? index.starts (value.length - 1)).map Start.position
    Indexing.search? index.bases (·.holds value) (index.bases.length - start).toNat start

theorem at?_starts {index : LengthIndex} {length : Nat} (visible : length ≠ 0) (fits : length ≤ index.starts.length) :
    (Indexing.at? index.starts (length - 1)).map Start.position = some (index.startFor length) := by
  have inRange : length - 1 < index.starts.length := by omega
  have place : ((length : Int) - 1).toNat = length - 1 := by omega
  rw [Indexing.at?, if_pos (by omega), place, startFor, if_neg visible, List.getD_eq_getElem?_getD, List.getElem?_map,
    List.getElem?_eq_getElem inRange]
  rfl

theorem search?_eq_finds? (index : LengthIndex) (value : String) : index.search? value = index.finds? value := by
  unfold search? finds?
  split
  · rfl
  · next fits =>
    have answered := Indexing.search?_to_end index.bases (·.holds value) (index.startFor value.length)
    split
    · next empty =>
      have start : index.startFor value.length = 0 := by rw [empty, startFor, if_pos rfl]
      rw [start] at answered ⊢
      exact answered
    · next visible =>
      rw [at?_starts visible (by omega)]
      exact answered

/-- On names and starts that pass the check, the search never looks outside of the tables, and it finds exactly the
values that some name holds. Starts may be negative, and values may be empty or longer than any name. -/
theorem finds_eq_scan_of_check (names : List String) (starts : List Start)
    (checked : check ⟨names.map .name, starts⟩ = .ok ()) (value : String) :
    search? ⟨names.map .name, starts⟩ value = some (finds ⟨names.map .name, starts⟩ value) ∧
      (finds ⟨names.map .name, starts⟩ value = true ↔ ∃ name ∈ names, value.toList <:+: name.toList) := by
  refine ⟨?_, ?_⟩
  · rw [search?_eq_finds?, (sound_of_check checked).searchable.finds?_eq_some]
  have named : ∀ base ∈ names.map Base.name, ∃ name, base = .name name := by
    intro base member
    obtain ⟨name, -, rfl⟩ := List.mem_map.mp member
    exact ⟨name, rfl⟩
  rw [finds_iff (sound_of_check checked) named]
  constructor
  · intro held
    obtain ⟨name, member, inside⟩ := held
    obtain ⟨other, listed, same⟩ := List.mem_map.mp member
    cases same
    exact ⟨name, listed, inside⟩
  · intro held
    obtain ⟨name, listed, inside⟩ := held
    exact ⟨name, List.mem_map_of_mem listed, inside⟩

theorem finds_ring_from_the_end :
    check ⟨["Arc", "Ring"].map .name, [.number (-2), .number 0, .flag false, .number (-1)]⟩ = .ok () ∧
      finds ⟨["Arc", "Ring"].map .name, [.number (-2), .number 0, .flag false, .number (-1)]⟩ "Ring" = true := by
  have checked :
      check ⟨["Arc", "Ring"].map .name, [.number (-2), .number 0, .flag false, .number (-1)]⟩ = .ok () := by rfl
  refine ⟨checked, (finds_eq_scan_of_check _ _ checked "Ring").2.mpr ?_⟩
  exact ⟨"Ring", List.mem_cons_of_mem _ List.mem_cons_self, List.infix_rfl⟩

end LengthIndex

end LootFilter
