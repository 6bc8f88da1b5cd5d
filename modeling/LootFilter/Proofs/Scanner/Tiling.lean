import LootFilter.Proofs.Text.Blanks
import LootFilter.Source
import Mathlib.Logic.ExistsUnique

/-! Ranges that take a line apart between two columns. They stand from left to right, each starts at a character that is
not blank, and what stands in none of them is blank. -/

set_option autoImplicit false

namespace LootFilter

open Text (isBlank)

def Text.BlankBetween (text : List Char) (first last : Nat) : Prop :=
  ∀ column c, first ≤ column → column < last → text[column]? = some c → isBlank c = true

theorem Text.blankBetween_of_rest {text blanks rest : List Char} {column : Nat}
    (split : text.drop column = blanks ++ rest) (all : ∀ c ∈ blanks, isBlank c = true) :
    BlankBetween text column (column + blanks.length) := by
  intro place c behind before found
  obtain ⟨offset, rfl⟩ := Nat.exists_eq_add_of_le behind
  have inside : offset < blanks.length := by omega
  rw [← List.getElem?_drop, split, List.getElem?_append_left inside] at found
  exact all c (List.mem_of_getElem? found)

namespace Range

def Holds (range : Range) (column : Nat) : Prop := range.start.character ≤ column ∧ column < range.stop.character

/-- The range is a part of a row between two columns. It is not empty, and its first character is not blank. -/
structure Part (row : Int) (text : List Char) (first last : Nat) (range : Range) : Prop where
  starts_on : range.start.line = row
  stops_on : range.stop.line = row
  starts_behind : first ≤ range.start.character
  not_empty : range.start.character < range.stop.character
  stops_before : range.stop.character ≤ last
  visible : ∃ c, text[range.start.character.toNat]? = some c ∧ isBlank c = false

/-- From left to right these ranges take a line apart between two columns: each character that is not blank is in
exactly one of them. -/
structure Tiling (row : Int) (text : List Char) (first last : Nat) (ranges : List Range) : Prop where
  forward : first ≤ last
  parts : ∀ range ∈ ranges, range.Part row text first last
  ordered : ranges.Pairwise fun left right => left.stop.character ≤ right.start.character
  complete : ∀ column c, first ≤ column → column < last → text[column]? = some c → isBlank c = false →
    ∃! range, range ∈ ranges ∧ range.Holds column

section
variable {row : Int} {text : List Char} {first last : Nat}

theorem Tiling.nil (forward : first ≤ last) (blank : Text.BlankBetween text first last) :
    Tiling row text first last [] where
  forward := forward
  parts := List.forall_mem_nil _
  ordered := .nil
  complete := by
    intro column c behind before found plain
    rw [blank column c behind before found] at plain
    cases plain

theorem Tiling.cons {start stop : Nat} {c : Char} {ranges : List Range} (later : first ≤ start)
    (blank : Text.BlankBetween text first start) (found : text[start]? = some c) (plain : isBlank c = false)
    (not_empty : start < stop) (rest : Tiling row text stop last ranges) :
    Tiling row text first last (onLine row start stop :: ranges) where
  forward := by
    have forward := rest.forward
    omega
  parts := by
    have forward := rest.forward
    intro range member
    obtain rfl | member := List.mem_cons.mp member
    · exact ⟨rfl, rfl, Int.ofNat_le.mpr later, Int.ofNat_lt.mpr not_empty, Int.ofNat_le.mpr forward, c, found, plain⟩
    · have part := rest.parts range member
      have behind := part.starts_behind
      exact { part with starts_behind := by omega }
  ordered := List.pairwise_cons.mpr ⟨fun range member => (rest.parts range member).starts_behind, rest.ordered⟩
  complete := by
    intro column d behind before present visible
    have apart : ∀ range ∈ ranges, range.Holds column → stop ≤ column := by
      intro range member holds
      have := (rest.parts range member).starts_behind
      have := holds.1
      omega
    by_cases left : column < start
    · rw [blank column d behind left present] at visible
      cases visible
    · by_cases inside : column < stop
      · refine ⟨onLine row start stop, ⟨List.mem_cons_self, ?_, Int.ofNat_lt.mpr inside⟩, ?_⟩
        · exact Int.ofNat_le.mpr (Nat.not_lt.mp left)
        · rintro range ⟨member, holds⟩
          obtain same | member := List.mem_cons.mp member
          · exact same
          · have := apart range member holds
            omega
      · obtain ⟨range, ⟨member, holds⟩, unique⟩ := rest.complete column d (Nat.not_lt.mp inside) before present visible
        refine ⟨range, ⟨List.mem_cons_of_mem _ member, holds⟩, ?_⟩
        rintro other ⟨member', holds'⟩
        obtain rfl | member' := List.mem_cons.mp member'
        · exact absurd (Int.ofNat_lt.mp holds'.2) inside
        · exact unique other ⟨member', holds'⟩

end

end Range

end LootFilter
