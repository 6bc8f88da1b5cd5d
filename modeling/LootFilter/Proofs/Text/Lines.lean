import LootFilter.Text.Lines
import Mathlib.Data.List.Basic

/-! Splitting a text into lines. -/

set_option autoImplicit false

namespace LootFilter.Text

theorem splitLines_ne_nil (text : List Char) : splitLines text ≠ [] := by
  fun_cases splitLines text <;> simp

theorem no_break_of_mem_splitLines {text line : List Char} (member : line ∈ splitLines text) :
    ∀ c ∈ line, isBreak c = false := by
  -- The induction is that of the splitting: a line end, or a character that joins the line after it.
  fun_induction splitLines text generalizing line with
  | case1 => simp_all
  | case2 rest ih =>
    obtain rfl | later := List.mem_cons.mp member
    · nofun
    · exact ih later
  | case3 c rest apart breaks ih =>
    obtain rfl | later := List.mem_cons.mp member
    · nofun
    · exact ih later
  | case4 c rest apart plain nothing ih => exact absurd nothing (splitLines_ne_nil rest)
  | case5 c rest apart plain first lines split ih =>
    obtain rfl | later := List.mem_cons.mp member
    · intro d inside
      obtain rfl | inside := List.mem_cons.mp inside
      · simpa using plain
      · exact ih (split ▸ List.mem_cons_self) d inside
    · exact ih (split ▸ List.mem_cons_of_mem _ later)

theorem isBreak_of_isDigit {c : Char} (digit : c.isDigit = true) : isBreak c = false := by
  by_contra breaks
  simp only [isBreak, Bool.not_eq_false, Bool.or_eq_true, beq_iff_eq] at breaks
  cases breaks with
  | inl carriage =>
    rw [carriage] at digit
    cases digit
  | inr feed =>
    rw [feed] at digit
    cases digit

theorem splitLines_cons {c : Char} {rest : List Char} (apart : c = '\r' → rest.head? ≠ some '\n') :
    splitLines (c :: rest) =
      if isBreak c then [] :: splitLines rest
      else
        match splitLines rest with
        | [] => [[c]]
        | line :: lines => (c :: line) :: lines := by
  apply splitLines.eq_3
  intro tail carriage feed
  apply apart carriage
  rw [feed]
  rfl

/-- A line feed between two texts parts their lines, unless it ends a line together with a carriage return. -/
theorem splitLines_append {first second : List Char} (ends : first.getLast? ≠ some '\r') :
    splitLines (first ++ '\n' :: second) = splitLines first ++ splitLines second := by
  -- A carriage return is not the last character, so what follows it is the same with the second text behind it.
  have apart : ∀ {c : Char} {rest : List Char}, (∀ tail, c = '\r' → rest = '\n' :: tail → False) →
      (c :: rest).getLast? ≠ some '\r' → c = '\r' → (rest ++ '\n' :: second).head? ≠ some '\n' := by
    intro c rest apart ends carriage feed
    cases rest with
    | nil => exact ends (by rw [carriage]; rfl)
    | cons d tail => exact apart tail carriage (by rw [Option.some.inj feed])
  have later : ∀ {c : Char} {rest : List Char}, (c :: rest).getLast? ≠ some '\r' → rest.getLast? ≠ some '\r' := by
    intro c rest ends last
    apply ends
    rw [List.getLast?_cons, last]
    rfl
  fun_induction splitLines first with
  | case1 => simp [splitLines, isBreak]
  | case2 rest ih => simp only [List.cons_append, splitLines, ih (later (later ends))]
  | case3 c rest unpaired breaks ih =>
    rw [List.cons_append, splitLines_cons (apart unpaired ends), if_pos breaks, ih (later ends)]
    rfl
  | case4 c rest unpaired plain nothing ih => exact absurd nothing (splitLines_ne_nil rest)
  | case5 c rest unpaired plain line lines split ih =>
    rw [List.cons_append, splitLines_cons (apart unpaired ends), if_neg plain, ih (later ends), split]
    rfl

theorem splitLines_of_no_break {text : List Char} (oneLine : ∀ c ∈ text, isBreak c = false) :
    splitLines text = [text] := by
  induction text with
  | nil => rfl
  | cons c rest ih =>
    have plain : isBreak c = false := oneLine c List.mem_cons_self
    have unpaired : c = '\r' → rest.head? ≠ some '\n' := by
      rintro rfl
      cases plain
    rw [splitLines_cons unpaired, plain, ih fun d inside => oneLine d (List.mem_cons_of_mem _ inside)]
    rfl

theorem splitLines_intercalate {texts : List (List Char)} (some : texts ≠ [])
    (oneLine : ∀ text ∈ texts, ∀ c ∈ text, isBreak c = false) : splitLines (['\n'].intercalate texts) = texts := by
  induction texts with
  | nil => exact absurd rfl some
  | cons text rest ih =>
    have first := oneLine text List.mem_cons_self
    cases rest with
    | nil => simpa using splitLines_of_no_break first
    | cons next others =>
      have ends : text.getLast? ≠ .some '\r' := by
        intro last
        cases first _ (List.mem_of_getLast? last)
      have later := ih (List.cons_ne_nil _ _) fun text inside => oneLine text (List.mem_cons_of_mem _ inside)
      rw [List.intercalate_cons_cons, List.append_assoc, List.singleton_append, splitLines_append ends, later,
        splitLines_of_no_break first, List.singleton_append]

end LootFilter.Text
