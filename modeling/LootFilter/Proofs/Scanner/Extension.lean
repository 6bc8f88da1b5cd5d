import LootFilter.Proofs.Scanner.Exclusion

/-! More text behind a line: what is read of a line is read again when text is added after a blank, and only then does
reading go on. -/

set_option autoImplicit false

namespace LootFilter

open Text (isBlank endsHere trimStart)

theorem Text.endsHere_append {rest tail : List Char} (ends : endsHere rest = true) (blank : endsHere tail = true) :
    endsHere (rest ++ tail) = true := by
  cases rest with
  | nil => exact blank
  | cons c others => exact ends

theorem Text.endsHere_of_append {rest tail : List Char} (ends : endsHere (rest ++ tail) = true) :
    endsHere rest = true := by
  cases rest with
  | nil => rfl
  | cons c others => exact ends

theorem Text.endsHere_of_blanks {blanks : List Char} (some : blanks ≠ []) (all : ∀ c ∈ blanks, isBlank c = true)
    (tail : List Char) : endsHere (blanks ++ tail) = true := by
  cases blanks with
  | nil => exact absurd rfl some
  | cons c others => exact all c List.mem_cons_self

theorem Text.endsHere_of_all {blanks : List Char} (all : ∀ c ∈ blanks, isBlank c = true) : endsHere blanks = true := by
  cases blanks with
  | nil => rfl
  | cons c others => exact all c List.mem_cons_self

section
variable {α : Type} {reader : Reader α} {shape : Shape α}

theorem Follows.append {text rest tail : List Char} {value : α} (follows : Follows shape text value rest)
    (blank : endsHere tail = true) : Follows shape (text ++ tail) value (rest ++ tail) := by
  obtain ⟨blanks, chars, rfl, all, shaped, ends⟩ := follows
  exact ⟨blanks, chars, by simp, all, shaped, Text.endsHere_append ends blank⟩

theorem Captures.follows_blanks_iff (captures : Captures reader shape) {blanks text rest : List Char} {value : α}
    (all : ∀ c ∈ blanks, isBlank c = true) :
    Follows shape (blanks ++ text) value rest ↔ Follows shape text value rest := by
  have same : trimStart (blanks ++ text) = trimStart text := List.dropWhile_append_of_pos all
  rw [captures.follows_iff, captures.follows_iff, same]

theorem Cursor.read_of_follows (captures : Captures reader shape) {cursor : Cursor} {value : α} {rest : List Char}
    (follows : Follows shape cursor.rest value rest) :
    ∃ token next, cursor.read reader = (some token, next) ∧ token.value = value ∧ next.rest = rest := by
  rcases result : cursor.read reader with ⟨token?, next⟩
  cases token? with
  | none => exact absurd follows ((read_eq_none captures result).2 _ _)
  | some token =>
    obtain ⟨same, left⟩ := captures.follows_unique (read_eq_some captures result).1 follows
    exact ⟨token, next, rfl, same, left⟩

end

theorem not_ignorable_of_word {text rest : List Char} {name : String} (follows : Follows Shape.word text name rest) :
    ¬Ignorable text := by
  intro ignorable
  obtain ⟨c, tail, shaped, first⟩ := Lexeme.captures_word.head follows
  obtain rfl := ignorable.head first
  exact absurd (shaped.2.1 '#' List.mem_cons_self) (by decide)

/-! ## Strings -/

theorem Strings.append {text rest tail last : List Char} {values words : List String}
    (strings : Strings text values rest) (blank : endsHere tail = true) (later : Strings (rest ++ tail) words last) :
    Strings (text ++ tail) (values ++ words) last := by
  induction strings with
  | done => exact later
  | next follows _ ih => exact .next (follows.append blank) (ih later)

theorem exists_strings (text : List Char) : ∃ words rest, Strings text words rest :=
  ⟨_, _, Cursor.strings_readStrings ⟨0, text, 0⟩⟩

theorem Strings.of_blanks {blanks text rest : List Char} {word : String} {words : List String}
    (strings : Strings text (word :: words) rest) (all : ∀ c ∈ blanks, isBlank c = true) :
    Strings (blanks ++ text) (word :: words) rest := by
  cases strings with
  | next follows later => exact .next ((Lexeme.captures_string.follows_blanks_iff all).mpr follows) later

theorem plain_before_blank {text tail chars rest : List Char} (plain : ∀ c ∈ chars, isBlank c = false)
    (blank : endsHere tail = true) (same : text ++ tail = chars ++ rest) :
    ∃ left, text = chars ++ left ∧ rest = left ++ tail := by
  obtain ⟨more, rfl, split⟩ | split := List.append_eq_append_iff.mp same
  · cases more with
    | nil => exact ⟨[], by simp, split.symm⟩
    | cons c others =>
      rw [split] at blank
      exact absurd ((plain c (by simp)).symm.trans blank) Bool.false_ne_true
  · exact split

theorem no_string_of_comment {blanks comment tail : List Char} (all : ∀ c ∈ blanks, isBlank c = true)
    (nothing : ∀ value rest, ¬Follows Shape.string (blanks ++ '#' :: comment) value rest)
    (blank : endsHere tail = true) (value : String) (rest : List Char) :
    ¬Follows Shape.string (blanks ++ '#' :: comment ++ tail) value rest := by
  intro follows
  rw [List.append_assoc, Lexeme.captures_string.follows_blanks_iff all] at follows
  obtain ⟨chars, found, same, ends⟩ := Lexeme.captures_string.follows_iff.mp follows
  have whole : '#' :: comment ++ tail = chars ++ rest := same
  obtain ⟨inner, rfl, -⟩ | ⟨visible, bare, named⟩ := (Lexeme.captures_string.sound found).1
  · cases (List.cons.inj whole).1
  · obtain ⟨left, cut, rfl⟩ := plain_before_blank (fun c member => Lexeme.bare_not_blank (bare c member)) blank whole
    exact nothing value left
      ⟨blanks, chars, by rw [cut], all, .inr ⟨visible, bare, named⟩, Text.endsHere_of_append ends⟩

end LootFilter
