import LootFilter.Proofs.Editor.Completion
import Mathlib.Data.List.Infix

/-! Names as they are suggested, read back. A name in quotation marks reads back as itself; without them it does so only
if none of its characters ends a bare string, and a space is the only one that brings quotation marks with it. -/

set_option autoImplicit false

namespace LootFilter

theorem Cursor.read_whole_iff {α : Type} {reader : Reader α} {shape : Shape α} (captures : Captures reader shape)
    (row : Int) (text : List Char) (value : α) :
    (⟨row, text, 0⟩ : Cursor).read reader =
        (some ⟨value, Range.onLine row 0 text.length⟩, ⟨row, text, text.length⟩) ↔ shape text value := by
  constructor
  · intro found
    obtain ⟨blanks, chars, split, -, shaped, -, range, -⟩ := read_extent captures found
    have whole : text = blanks ++ (chars ++ (⟨row, text, text.length⟩ : Cursor).rest) := split
    simp only [Range.onLine, Range.mk.injEq, Position.mk.injEq, Nat.zero_add, true_and] at range
    have nothing : blanks = [] := List.eq_nil_of_length_eq_zero (by omega)
    have spent : (⟨row, text, text.length⟩ : Cursor).rest = [] := List.drop_length
    rw [nothing, spent, List.nil_append, List.append_nil] at whole
    rw [whole]
    exact shaped
  · intro shaped
    have split : (⟨row, text, 0⟩ : Cursor).rest = [] ++ (text ++ []) := by simp [Cursor.rest]
    have found := read_of_extent captures split (List.forall_mem_nil _) shaped rfl
    simpa using found

namespace Suggestion

def Plain (name : String) : Prop :=
  ∀ c ∈ name.toList, Text.isBlank c = false ∧ c ∉ ['\'', '<', '>', '=']

theorem plain_iff {name : String} (closed : '"' ∉ name.toList) :
    Plain name ↔ ∀ c ∈ name.toList, Lexeme.isBare c = true := by
  apply forall₂_congr
  intro c member
  have other : c ≠ '"' := fun same => closed (same ▸ member)
  simp [Lexeme.isBare, other, and_assoc]

theorem occursIn_space_iff {name : String} : Text.occursIn " " name = true ↔ ' ' ∈ name.toList := by
  rw [Text.occursIn_iff, show " ".toList = [' '] from rfl, List.singleton_infix_iff]

theorem string_written_iff {name : String} (some_chars : name ≠ "") (closed : '"' ∉ name.toList) (quotes : Bool) :
    Shape.string (written quotes name).toList name ↔ quotes = true ∨ ' ' ∈ name.toList ∨ Plain name := by
  rw [plain_iff closed, ← occursIn_space_iff, ← or_assoc, ← Bool.or_eq_true, written]
  cases quoted : quotes || Text.occursIn " " name with
  | true =>
    rw [if_pos rfl, toList_inQuotes]
    have shaped : Shape.string ('"' :: name.toList ++ ['"']) name := .inl ⟨name.toList, rfl, closed, by simp⟩
    exact iff_of_true shaped (.inl rfl)
  | false =>
    rw [if_neg Bool.false_ne_true]
    constructor
    · intro shaped
      obtain ⟨inner, same, -⟩ | ⟨-, all, -⟩ := shaped
      · exact absurd (by simp [same]) closed
      · exact .inr all
    · intro fit
      have all := fit.resolve_left Bool.false_ne_true
      exact .inr ⟨by simpa using some_chars, all, by simp⟩

/-- A name without quotation marks and line breaks is always suggested, as a text of one line. This text is one string
from end to end, and stands for the name, exactly if quotation marks are wanted, the name holds a space, or none of its
characters ends a bare string. -/
theorem suggested_name_reads_back_iff (source : Source) (quotes : Bool) (range : Range) (row : Int) (name : String)
    (some_chars : name ≠ "") (closed : '"' ∉ name.toList) (oneLine : ∀ c ∈ name.toList, Text.isBreak c = false) :
    ∃ suggestion new cursor, ofValue source quotes range (.text name) = .ok suggestion ∧
      suggestion.newText = .text new ∧ Cursor.ofLine? row new.toList = some cursor ∧
      (cursor.readString = (some ⟨name, Range.onLine row 0 new.length⟩, { cursor with column := new.length }) ↔
        quotes = true ∨ ' ' ∈ name.toList ∨ Plain name) := by
  have fresh := Cursor.ofLine?_of_unbroken row (unbroken_written oneLine quotes)
  refine ⟨_, written quotes name, _, ofValue_text source quotes range name, rfl, fresh, ?_⟩
  rw [← string_written_iff some_chars closed, ← Cursor.read_whole_iff Lexeme.captures_string row]
  simp only [Cursor.readString, String.length_toList]

theorem spaced_name_reads_back :
    ∃ suggestion new cursor, ofValue .reference false (.empty ⟨2, 9⟩) (.text "Goat's Horn") = .ok suggestion ∧
      suggestion.newText = .text new ∧ Cursor.ofLine? 2 new.toList = some cursor ∧
      cursor.readString = (some ⟨"Goat's Horn", Range.onLine 2 0 new.length⟩, { cursor with column := new.length }) := by
  obtain ⟨suggestion, new, cursor, done, text, fresh, reads⟩ := suggested_name_reads_back_iff .reference false
    (.empty ⟨2, 9⟩) 2 "Goat's Horn" (by decide) (by decide) (by simp [Text.isBreak])
  exact ⟨suggestion, new, cursor, done, text, fresh, reads.mpr (.inr (.inl (by decide)))⟩

/-- An apostrophe ends a bare string, and does not bring quotation marks with it. -/
theorem suggested_apostrophe_unread :
    (ofValue .whitelist false (.empty ⟨0, 6⟩) (.text "Goat's")).map newText = .ok (.text "Goat's") ∧
      (⟨0, "Goat's".toList, 0⟩ : Cursor).readString = (none, ⟨0, "Goat's".toList, 0⟩) := by
  constructor
  · rfl
  · rfl

end Suggestion

end LootFilter
