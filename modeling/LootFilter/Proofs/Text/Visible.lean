import LootFilter.Proofs.Text.Blanks
import Mathlib.Data.List.DropRight

/-! Texts that neither start nor end with a blank, and what trimming leaves of a text. -/

set_option autoImplicit false

namespace LootFilter.Text

structure Visible (text : List Char) : Prop where
  first : ∃ c, text.head? = some c ∧ isBlank c = false
  last : ∃ c, text.getLast? = some c ∧ isBlank c = false

theorem visible_of_forall {text : List Char} (some_text : text ≠ []) (plain : ∀ c ∈ text, isBlank c = false) :
    Visible text where
  first := ⟨text.head some_text, List.head?_eq_some_head some_text, plain _ (List.head_mem some_text)⟩
  last := ⟨text.getLast some_text, List.getLast?_eq_some_getLast some_text, plain _ (List.getLast_mem some_text)⟩

theorem visible_quoted (inner : List Char) : Visible ('"' :: inner ++ ['"']) where
  first := ⟨'"', rfl, rfl⟩
  last := ⟨'"', List.getLast?_concat, rfl⟩

theorem Visible.ne_nil {text : List Char} (visible : Visible text) : text ≠ [] := by
  obtain ⟨c, first, -⟩ := visible.first
  rintro rfl
  cases first

theorem split_blanks {text : List Char} (visible : ∃ c ∈ text, isBlank c = false) :
    ∃ blanks c rest, text = blanks ++ c :: rest ∧ (∀ d ∈ blanks, isBlank d = true) ∧ isBlank c = false := by
  obtain ⟨d, member, plain⟩ := visible
  cases left : trimStart text with
  | nil =>
    have blank := List.dropWhile_eq_nil_iff.mp left d member
    rw [plain] at blank
    cases blank
  | cons c rest =>
    have plain := startsPlain_trimStart text
    rw [left] at plain
    refine ⟨text.takeWhile isBlank, c, rest, ?_, ?_, by simpa [startsPlain] using plain⟩
    · rw [← left, blanks_append_trimStart]
    · exact fun d member => List.all_eq_true.mp List.all_takeWhile d member

/-! ## Trimming -/

theorem trimEnd_eq_rdropWhile (text : List Char) : trimEnd text = text.rdropWhile isBlank := by
  induction text with
  | nil => rfl
  | cons c rest ih =>
    rw [trimEnd, ih, List.rdropWhile, List.rdropWhile, List.reverse_cons, List.dropWhile_append]
    cases kept : rest.reverse.dropWhile isBlank with
    | nil => by_cases blank : isBlank c = true <;> simp [blank]
    | cons d others =>
      have nonempty : ∀ tail : List Char, tail ++ [d] ≠ [] := by simp
      simp [nonempty]

theorem trimEnd_eq_nil_iff {text : List Char} : trimEnd text = [] ↔ ∀ c ∈ text, isBlank c = true := by
  rw [trimEnd_eq_rdropWhile, List.rdropWhile_eq_nil_iff]

theorem trimEnd_prefix (text : List Char) : trimEnd text <+: text := by
  rw [trimEnd_eq_rdropWhile]
  exact List.rdropWhile_prefix isBlank text

theorem trimEnd_append (first : List Char) {second : List Char} (kept : trimEnd second ≠ []) :
    trimEnd (first ++ second) = first ++ trimEnd second := by
  induction first with
  | nil => rfl
  | cons c rest ih =>
    rw [List.cons_append, trimEnd, ih]
    split
    · next nothing => exact absurd (List.append_eq_nil_iff.mp nothing).2 kept
    · rfl

theorem trimEnd_append_blanks (text : List Char) {blanks : List Char} (all : ∀ c ∈ blanks, isBlank c = true) :
    trimEnd (text ++ blanks) = trimEnd text := by
  have reversed : ∀ c ∈ blanks.reverse, isBlank c = true := fun c member => all c (List.mem_reverse.mp member)
  rw [trimEnd_eq_rdropWhile, trimEnd_eq_rdropWhile, List.rdropWhile, List.rdropWhile, List.reverse_append,
    List.dropWhile_append_of_pos reversed]

theorem trimEnd_of_visible {text : List Char} (visible : Visible text) : trimEnd text = text := by
  obtain ⟨c, last, plain⟩ := visible.last
  rw [trimEnd_eq_rdropWhile, List.rdropWhile_eq_self_iff]
  intro some_text blank
  rw [List.getLast?_eq_some_getLast some_text] at last
  rw [Option.some.inj last, plain] at blank
  cases blank

theorem split_trimEnd (text : List Char) :
    ∃ blanks, text = trimEnd text ++ blanks ∧ ∀ c ∈ blanks, isBlank c = true := by
  refine ⟨text.rtakeWhile isBlank, ?_, fun c => List.mem_rtakeWhile_imp⟩
  rw [trimEnd_eq_rdropWhile, List.rdropWhile_append_rtakeWhile]

theorem visible_trimEnd {c : Char} (plain : isBlank c = false) (rest : List Char) :
    Visible (trimEnd (c :: rest)) := by
  have kept : trimEnd (c :: rest) ≠ [] := by
    intro nothing
    have blank := trimEnd_eq_nil_iff.mp nothing c List.mem_cons_self
    rw [plain] at blank
    cases blank
  constructor
  · obtain ⟨d, others, same⟩ := List.exists_cons_of_ne_nil kept
    -- What is kept is a prefix, so it starts as the text does.
    have head := trimEnd_prefix (c :: rest)
    rw [same, List.cons_prefix_cons] at head
    exact ⟨c, by rw [same, head.1]; rfl, plain⟩
  · refine ⟨(trimEnd (c :: rest)).getLast kept, List.getLast?_eq_some_getLast kept, ?_⟩
    have last := List.rdropWhile_last_not isBlank (c :: rest)
    rw [← trimEnd_eq_rdropWhile] at last
    simpa using last kept

end LootFilter.Text
