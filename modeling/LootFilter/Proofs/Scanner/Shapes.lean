import LootFilter.Proofs.Scanner.Number
import LootFilter.Proofs.Text.Blanks
import Mathlib.Data.List.Forall2

/-! The shapes of lexemes as a grammar: which characters make a lexeme, and what they stand for.

Each reader captures its shape: it only answers lexemes of the shape, and it answers every one that is followed by a
blank or by the end of the line. -/

set_option autoImplicit false

namespace LootFilter

abbrev Shape (α : Type) := List Char → α → Prop

namespace Shape

def number : Shape Int := fun chars value =>
  ∃ sign digits, chars = sign ++ digits ∧ (sign = [] ∨ sign = ['+'] ∨ sign = ['-']) ∧
    digits ≠ [] ∧ (∀ c ∈ digits, c.isDigit = true) ∧
    value = Lexeme.clamp (Lexeme.exactValue (sign = ['-']) digits)

def word : Shape String := fun chars value =>
  chars ≠ [] ∧ (∀ c ∈ chars, Lexeme.isLetter c = true) ∧ value = String.ofList chars

def operator : Shape Operator := fun chars value => chars = value.spelling.toList

def Cased (letters : String) (chars : List Char) : Prop :=
  List.Forall₂ (fun letter c => Lexeme.sameLetter letter c = true) letters.toList chars

def booleanName : Bool → String
  | true => "true"
  | false => "false"

def boolean : Shape Bool := fun chars value =>
  ∃ inner, Cased (booleanName value) inner ∧ (chars = inner ∨ chars = '"' :: inner ++ ['"'])

def string : Shape String := fun chars value =>
  (∃ inner, chars = '"' :: inner ++ ['"'] ∧ '"' ∉ inner ∧ value = String.ofList inner) ∨
    (chars ≠ [] ∧ (∀ c ∈ chars, Lexeme.isBare c = true) ∧ value = String.ofList chars)

end Shape

/-- The reader finds exactly the lexemes of a shape. -/
structure Captures {α : Type} (reader : Reader α) (shape : Shape α) : Prop where
  sound : ∀ {text lexeme}, reader text = some lexeme → shape lexeme.chars lexeme.value ∧ lexeme.chars <+: text
  complete : ∀ {chars value rest}, shape chars value → Text.endsHere rest = true →
    reader (chars ++ rest) = some ⟨chars, value⟩
  visible : ∀ {chars value}, shape chars value → ∃ c rest, chars = c :: rest ∧ Text.isBlank c = false

namespace Lexeme

open Text (isBlank endsHere)

theorem letter_codes {c : Char} (letter : isLetter c = true) :
    (65 ≤ c.toNat ∧ c.toNat ≤ 90) ∨ (97 ≤ c.toNat ∧ c.toNat ≤ 122) ∨ c.toNat = 246 := by
  change ((decide (65 ≤ c.val ∧ c.val ≤ 90) || (decide (97 ≤ c.val) && decide (c.val ≤ 122))) || c == 'ö') = true
    at letter
  simp only [Bool.or_eq_true, Bool.and_eq_true, decide_eq_true_eq, beq_iff_eq, UInt32.le_iff_toNat_le] at letter
  change ((65 ≤ c.toNat ∧ c.toNat ≤ 90) ∨ 97 ≤ c.toNat ∧ c.toNat ≤ 122) ∨ c = 'ö' at letter
  rcases letter with letter | rfl
  · omega
  · decide

theorem letter_not_blank {c : Char} (letter : isLetter c = true) : isBlank c = false := by
  by_contra blank
  have codes := Text.blank_codes (Bool.of_not_eq_false blank)
  have letters := letter_codes letter
  omega

theorem digit_not_blank {c : Char} (digit : c.isDigit = true) : isBlank c = false := by
  by_contra blank
  have codes := Text.blank_codes (Bool.of_not_eq_false blank)
  have bounds := digit_bounds digit
  omega

theorem bare_not_blank {c : Char} (bare : isBare c = true) : isBlank c = false := by
  simp only [isBare, Bool.and_eq_true, Bool.not_eq_true'] at bare
  exact bare.1.1.1.1.1

theorem run?_eq_some {member : Char → Bool} {text run : List Char} (found : run? member text = some run) :
    run ≠ [] ∧ (∀ c ∈ run, member c = true) ∧ run <+: text := by
  unfold run? at found
  split at found
  · cases found
  · next first some_run =>
    cases found
    exact ⟨some_run, fun c mem => List.all_eq_true.mp List.all_takeWhile c mem, List.takeWhile_prefix member⟩

theorem run?_append {member : Char → Bool} (plain : ∀ c, member c = true → isBlank c = false)
    {run rest : List Char} (some_run : run ≠ []) (all : ∀ c ∈ run, member c = true) (ends : endsHere rest = true) :
    run? member (run ++ rest) = some run := by
  -- The rest is empty or starts with a blank, which is no member.
  have stops : rest.takeWhile member = [] := by
    cases rest with
    | nil => rfl
    | cons c tail =>
      have blank : isBlank c = true := ends
      have other : member c ≠ true := fun inside => by simp [plain c inside] at blank
      exact List.takeWhile_cons_of_neg other
  unfold run?
  rw [List.takeWhile_append_of_pos all, stops, List.append_nil]
  cases run with
  | nil => exact absurd rfl some_run
  | cons c tail => rfl

theorem head_plain {member : Char → Bool} (plain : ∀ c, member c = true → isBlank c = false) {run : List Char}
    (some_run : run ≠ []) (all : ∀ c ∈ run, member c = true) : ∃ c rest, run = c :: rest ∧ isBlank c = false := by
  cases run with
  | nil => exact absurd rfl some_run
  | cons c rest => exact ⟨c, rest, rfl, plain c (all c List.mem_cons_self)⟩

theorem captures_word : Captures word Shape.word where
  sound := by
    intro text lexeme found
    simp only [word, Option.map_eq_some_iff] at found
    obtain ⟨run, found, rfl⟩ := found
    obtain ⟨some_run, all, head⟩ := run?_eq_some found
    exact ⟨⟨some_run, all, rfl⟩, head⟩
  complete := by
    rintro chars value rest ⟨some_run, all, rfl⟩ ends
    simp [word, run?_append (fun _ => letter_not_blank) some_run all ends]
  visible := by
    rintro chars value ⟨some_run, all, -⟩
    exact head_plain (fun _ => letter_not_blank) some_run all

theorem number_signless {text : List Char} (plus : text.head? ≠ some '+') (minus : text.head? ≠ some '-') :
    number text = (run? Char.isDigit text).map fun chars => ⟨chars, numberValue chars⟩ := by
  unfold number
  split
  · exact absurd rfl plus
  · exact absurd rfl minus
  · rfl

theorem digits_head {digits rest : List Char} (some_digits : digits ≠ []) (all : ∀ c ∈ digits, c.isDigit = true)
    {c : Char} (other : c.isDigit = false) : (digits ++ rest).head? ≠ some c := by
  cases digits with
  | nil => exact absurd rfl some_digits
  | cons digit tail =>
    intro same
    have digit := all digit List.mem_cons_self
    simp only [List.cons_append, List.head?_cons, Option.some.injEq] at same
    simp [same, other] at digit

theorem captures_number : Captures number Shape.number where
  sound := by
    intro text lexeme found
    simp only [number, Option.map_eq_some_iff] at found
    obtain ⟨chars, found, rfl⟩ := found
    -- One case per sign.
    split at found
    · next tail =>
      obtain ⟨digits, run, rfl⟩ := Option.map_eq_some_iff.mp found
      obtain ⟨some_run, all, head⟩ := run?_eq_some run
      exact ⟨⟨['+'], digits, rfl, by simp, some_run, all, numberValue_plus all⟩, List.cons_prefix_cons.mpr ⟨rfl, head⟩⟩
    · next tail =>
      obtain ⟨digits, run, rfl⟩ := Option.map_eq_some_iff.mp found
      obtain ⟨some_run, all, head⟩ := run?_eq_some run
      exact ⟨⟨['-'], digits, rfl, by simp, some_run, all, numberValue_minus all⟩, List.cons_prefix_cons.mpr ⟨rfl, head⟩⟩
    · obtain ⟨some_run, all, head⟩ := run?_eq_some found
      exact ⟨⟨[], chars, rfl, by simp, some_run, all, numberValue_digits all⟩, head⟩
  complete := by
    rintro chars value rest ⟨sign, digits, rfl, sign_eq, some_run, all, rfl⟩ ends
    -- Without a sign the first digit keeps the reader out of the two cases with one.
    have run := run?_append (fun _ => digit_not_blank) some_run all ends
    rcases sign_eq with rfl | rfl | rfl
    · rw [List.nil_append, number_signless (digits_head some_run all rfl) (digits_head some_run all rfl), run]
      simp [numberValue_digits all]
    · simp [number, run, numberValue_plus all]
    · simp [number, run, numberValue_minus all]
  visible := by
    rintro chars value ⟨sign, digits, rfl, sign_eq, some_run, all, -⟩
    rcases sign_eq with rfl | rfl | rfl
    · exact head_plain (fun _ => digit_not_blank) some_run all
    · exact ⟨'+', digits, rfl, rfl⟩
    · exact ⟨'-', digits, rfl, rfl⟩

theorem captures_operator : Captures operator Shape.operator where
  sound := by
    intro text lexeme found
    unfold operator at found
    split at found <;> cases found <;> exact ⟨rfl, by simp⟩
  complete := by
    rintro chars value rest rfl ends
    -- A bare `<` or `>` is not followed by `=`, for what follows is a blank.
    have next : rest.head? ≠ some '=' := by
      cases rest with
      | nil => simp
      | cons c tail =>
        rintro ⟨⟩
        have blank : isBlank '=' = true := ends
        exact absurd blank (by decide)
    cases value with
    | equal => rfl
    | atMost => rfl
    | atLeast => rfl
    | less =>
      change operator ('<' :: rest) = _
      unfold operator
      split <;> simp_all [Operator.spelling]
    | greater =>
      change operator ('>' :: rest) = _
      unfold operator
      split <;> simp_all [Operator.spelling]
  visible := by
    rintro chars value rfl
    cases value <;> exact ⟨_, _, rfl, by decide⟩

theorem toLower_cases (c : Char) :
    c.toLower = c ∨ (65 ≤ c.toNat ∧ c.toNat ≤ 90 ∧ c.toLower.toNat = c.toNat + 32) := by
  unfold Char.toLower
  split
  · next capital =>
    have least : 65 ≤ c.val.toNat := UInt32.le_iff_toNat_le.mp capital.1
    have greatest : c.val.toNat ≤ 90 := UInt32.le_iff_toNat_le.mp capital.2
    refine .inr ⟨least, greatest, ?_⟩
    change (c.val + ('a'.val - 'A'.val)).toNat = c.val.toNat + 32
    rw [UInt32.toNat_add, show ('a'.val - 'A'.val).toNat = 32 from rfl, Nat.mod_eq_of_lt (by omega)]
  · exact .inl rfl

theorem sameLetter_quote {c : Char} : sameLetter '"' c = true ↔ c = '"' := by
  constructor
  · intro same
    have lower : c.toLower = '"' := by simpa [sameLetter] using same
    rcases toLower_cases c with fixed | ⟨least, -, shifted⟩
    · exact fixed.symm.trans lower
    · rw [lower] at shifted
      change 34 = c.toNat + 32 at shifted
      omega
  · rintro rfl
    decide

/-- A character spells one letter only. -/
theorem sameLetter_unique {first c : Char} (named : sameLetter first c = true) (second : Char)
    (plain : first ≠ 's' ∧ second ≠ 's') (apart : first ≠ second) : sameLetter second c = false := by
  have lower : c.toLower = first := by simpa [sameLetter, plain.1] using named
  simp [sameLetter, plain.2, lower, apart]

theorem sameLetter_not_blank {letter c : Char} (named : sameLetter letter c = true)
    (small : 33 ≤ letter.toNat ∧ letter.toNat ≤ 126) : isBlank c = false := by
  by_contra blank
  have codes := Text.blank_codes (Bool.of_not_eq_false blank)
  simp only [sameLetter, Bool.or_eq_true, Bool.and_eq_true, beq_iff_eq] at named
  rcases named with rfl | ⟨rfl, rfl⟩
  · rcases toLower_cases c with fixed | capital
    · rw [fixed] at small
      omega
    · omega
  · revert codes
    decide

theorem spelled_eq_some {letters text chars : List Char} (found : spelled letters text = some chars) :
    List.Forall₂ (fun letter c => sameLetter letter c = true) letters chars ∧ chars <+: text := by
  induction letters generalizing text chars with
  | nil =>
    cases found
    exact ⟨.nil, List.nil_prefix⟩
  | cons letter letters ih =>
    cases text with
    | nil => cases found
    | cons c rest =>
      unfold spelled at found
      split at found
      · next same =>
        obtain ⟨tail, spelling, rfl⟩ := Option.map_eq_some_iff.mp found
        obtain ⟨named, head⟩ := ih spelling
        exact ⟨.cons same named, List.cons_prefix_cons.mpr ⟨rfl, head⟩⟩
      · cases found

theorem spelled_append {letters chars : List Char}
    (named : List.Forall₂ (fun letter c => sameLetter letter c = true) letters chars) (rest : List Char) :
    spelled letters (chars ++ rest) = some chars := by
  induction named with
  | nil => rfl
  | cons same _ ih => simp [spelled, same, ih]

theorem spelled_cons_none {letter c : Char} (other : sameLetter letter c = false) (letters rest : List Char) :
    spelled (letter :: letters) (c :: rest) = none := by
  simp [spelled, other]

theorem literal_eq_some {letters : String} {value : Bool} {text : List Char} {lexeme : Lexeme Bool}
    (found : literal letters value text = some lexeme) :
    lexeme.value = value ∧ Shape.Cased letters lexeme.chars ∧ lexeme.chars <+: text := by
  obtain ⟨chars, spelling, rfl⟩ := Option.map_eq_some_iff.mp found
  exact ⟨rfl, spelled_eq_some spelling⟩

theorem literal_append (letters : String) (value : Bool) {chars : List Char} (named : Shape.Cased letters chars)
    (rest : List Char) : literal letters value (chars ++ rest) = some ⟨chars, value⟩ := by
  rw [literal, spelled_append named]
  rfl

theorem literal_none {letters : String} {value : Bool} {first c : Char} {others : List Char}
    (spelling : letters.toList = first :: others) (other : sameLetter first c = false) (rest : List Char) :
    literal letters value (c :: rest) = none := by
  rw [literal, spelling, spelled_cons_none other]
  rfl

theorem forall₂_quoted_iff (letters : List Char) {chars : List Char} :
    List.Forall₂ (fun letter c => sameLetter letter c = true) ('"' :: letters ++ ['"']) chars ↔
      ∃ inner, List.Forall₂ (fun letter c => sameLetter letter c = true) letters inner ∧
        chars = '"' :: inner ++ ['"'] := by
  constructor
  · intro named
    obtain ⟨c, tail, quote, others, rfl⟩ := List.forall₂_cons_left_iff.mp named
    obtain rfl := sameLetter_quote.mp quote
    change List.Forall₂ _ (letters ++ ['"']) tail at others
    refine ⟨tail.take letters.length, ?_, ?_⟩
    · simpa using List.forall₂_take letters.length others
    · have last := List.forall₂_drop letters.length others
      rw [List.drop_left] at last
      obtain ⟨d, after, quote, nothing, same⟩ := List.forall₂_cons_left_iff.mp last
      obtain rfl := sameLetter_quote.mp quote
      obtain rfl := List.forall₂_nil_left_iff.mp nothing
      rw [List.cons_append, ← same, List.take_append_drop]
  · rintro ⟨inner, named, rfl⟩
    exact .cons (sameLetter_quote.mpr rfl) (List.rel_append named (.cons (sameLetter_quote.mpr rfl) .nil))

theorem cased_quoted {letters : String} {inner : List Char} (named : Shape.Cased letters inner) :
    Shape.Cased ("\"" ++ letters ++ "\"") ('"' :: inner ++ ['"']) := by
  unfold Shape.Cased
  rw [String.toList_append, String.toList_append]
  exact (forall₂_quoted_iff letters.toList).mpr ⟨inner, named, rfl⟩

theorem captures_boolean : Captures boolean Shape.boolean where
  sound := by
    intro text lexeme found
    simp only [boolean, Option.or_eq_some_iff] at found
    -- The reader tries both words, each bare and between quotation marks.
    rcases found with found | ⟨-, found | ⟨-, found | ⟨-, found⟩⟩⟩ <;>
      obtain ⟨value, named, head⟩ := literal_eq_some found <;> refine ⟨?_, head⟩ <;> rw [value]
    · exact ⟨lexeme.chars, named, .inl rfl⟩
    · obtain ⟨inner, named, quoted⟩ := (forall₂_quoted_iff "true".toList).mp named
      exact ⟨inner, named, .inr quoted⟩
    · exact ⟨lexeme.chars, named, .inl rfl⟩
    · obtain ⟨inner, named, quoted⟩ := (forall₂_quoted_iff "false".toList).mp named
      exact ⟨inner, named, .inr quoted⟩
  complete := by
    rintro chars value rest ⟨inner, named, bare | quoted⟩ ends
    · subst bare
      cases value with
      | true => rw [boolean, literal_append "true" true named, Option.some_or]
      | false =>
        -- The first letter tells the two words apart.
        obtain ⟨c, tail, first, -, rfl⟩ := List.forall₂_cons_left_iff.mp named
        have first : sameLetter 'f' c = true := first
        rw [boolean, literal_append "false" false named, List.cons_append,
          literal_none rfl (sameLetter_unique first 't' (by decide) (by decide)),
          literal_none rfl (sameLetter_unique first '"' (by decide) (by decide))]
        rfl
    · subst quoted
      cases value with
      | true =>
        rw [boolean, literal_append "\"true\"" true (cased_quoted named), List.cons_append,
          List.cons_append, literal_none rfl (by decide)]
        rfl
      | false =>
        rw [boolean, literal_append "\"false\"" false (cased_quoted named)]
        obtain ⟨c, tail, first, -, rfl⟩ := List.forall₂_cons_left_iff.mp named
        have first : sameLetter 'f' c = true := first
        have other : literal "\"true\"" true ('"' :: c :: (tail ++ '"' :: rest)) = none := by
          simp [literal, spelled, sameLetter_unique first 't' (by decide) (by decide)]
        simp only [List.cons_append, List.append_assoc, List.nil_append]
        rw [other, literal_none rfl (by decide), literal_none rfl (by decide)]
        rfl
  visible := by
    rintro chars value ⟨inner, named, bare | quoted⟩
    · subst bare
      cases value with
      | true =>
        obtain ⟨c, tail, first, -, rfl⟩ := List.forall₂_cons_left_iff.mp named
        exact ⟨c, tail, rfl, sameLetter_not_blank first (by decide)⟩
      | false =>
        obtain ⟨c, tail, first, -, rfl⟩ := List.forall₂_cons_left_iff.mp named
        exact ⟨c, tail, rfl, sameLetter_not_blank first (by decide)⟩
    · exact ⟨'"', inner ++ ['"'], quoted, rfl⟩

theorem takeWhile_quote {inner : List Char} (closed : '"' ∉ inner) (rest : List Char) :
    (inner ++ '"' :: rest).takeWhile (· != '"') = inner := by
  have all : ∀ c ∈ inner, (c != '"') = true := by
    intro c member
    simpa using fun same : c = '"' => closed (same ▸ member)
  rw [List.takeWhile_append_of_pos all]
  simp

theorem string_quoted {inner : List Char} (closed : '"' ∉ inner) (rest : List Char) :
    string ('"' :: (inner ++ '"' :: rest)) = some ⟨'"' :: inner ++ ['"'], String.ofList inner⟩ := by
  simp only [string, takeWhile_quote closed, List.drop_left]

theorem string_bare {text : List Char} (bare : text.head? ≠ some '"') :
    string text = (run? isBare text).map fun chars => ⟨chars, String.ofList chars⟩ := by
  unfold string
  split
  · exact absurd rfl bare
  · rfl

/-- A quotation mark opens a string only if another one closes it. -/
theorem quoted_of_string {tail : List Char} {lexeme : Lexeme String} (found : string ('"' :: tail) = some lexeme) :
    ∃ inner rest, '"' ∉ inner ∧ tail = inner ++ '"' :: rest ∧
      lexeme = ⟨'"' :: inner ++ ['"'], String.ofList inner⟩ := by
  -- The string ends at the first quotation mark of the tail; there has to be one.
  have split_tail := List.takeWhile_append_dropWhile (p := (· != '"')) (l := tail)
  have closed : '"' ∉ tail.takeWhile (· != '"') := by
    intro member
    simpa using List.all_eq_true.mp (List.all_takeWhile (p := (· != '"'))) _ member
  cases after : tail.dropWhile (· != '"') with
  | nil =>
    rw [after, List.append_nil] at split_tail
    simp [string, split_tail] at found
  | cons c rest =>
    have quote : c = '"' := by
      have head := List.head?_dropWhile_not (· != '"') tail
      rw [after] at head
      simpa using head
    subst quote
    rw [after] at split_tail
    refine ⟨_, rest, closed, split_tail.symm, ?_⟩
    rw [← split_tail, string_quoted closed] at found
    exact (Option.some.inj found).symm

theorem captures_string : Captures string Shape.string where
  sound := by
    intro text lexeme found
    -- A quotation mark at the head decides for one of the two forms.
    by_cases quote : text.head? = some '"'
    · obtain ⟨tail, rfl⟩ := List.head?_eq_some_iff.mp quote
      obtain ⟨inner, rest, closed, rfl, rfl⟩ := quoted_of_string found
      exact ⟨.inl ⟨inner, rfl, closed, rfl⟩, rest, by simp⟩
    · rw [string_bare quote] at found
      obtain ⟨run, taken, rfl⟩ := Option.map_eq_some_iff.mp found
      obtain ⟨some_run, all, head⟩ := run?_eq_some taken
      exact ⟨.inr ⟨some_run, all, rfl⟩, head⟩
  complete := by
    rintro chars value rest (⟨inner, rfl, closed, rfl⟩ | ⟨some_run, all, rfl⟩) ends
    · have whole : '"' :: inner ++ ['"'] ++ rest = '"' :: (inner ++ '"' :: rest) := by simp
      rw [whole, string_quoted closed]
    · have bare : (chars ++ rest).head? ≠ some '"' := by
        intro quote
        cases chars with
        | nil => exact absurd rfl some_run
        | cons c tail =>
          obtain rfl : c = '"' := by simpa using quote
          exact absurd (all '"' List.mem_cons_self) (by decide)
      rw [string_bare bare, run?_append (fun _ => bare_not_blank) some_run all ends]
      rfl
  visible := by
    rintro chars value (⟨inner, rfl, -, -⟩ | ⟨some_run, all, -⟩)
    · exact ⟨'"', inner ++ ['"'], rfl, rfl⟩
    · exact head_plain (fun _ => bare_not_blank) some_run all

end Lexeme

end LootFilter
