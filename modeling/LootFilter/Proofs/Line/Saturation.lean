import LootFilter.Line
import LootFilter.Proofs.Reference.Coverage
import LootFilter.Proofs.Scanner.Shapes

/-! Numbers that are read exactly. Reading stops numbers at `largestNumber`; as long as the reference data ask for no
number that large, a reader of exact numbers would read every line in the same way. -/

set_option autoImplicit false

namespace LootFilter

/-! ## Exact numbers -/

namespace Lexeme

def spelledValue (chars : List Char) : Int :=
  exactValue (chars.head? = some '-') (chars.dropWhile fun c => c == '+' || c == '-')

/-- The same lexemes as those of `number`, with their exact values. -/
def exactNumber : Reader Int := fun text =>
  (number text).map fun lexeme => ⟨lexeme.chars, spelledValue lexeme.chars⟩

theorem spelledValue_append {sign digits : List Char} (signed : sign = [] ∨ sign = ['+'] ∨ sign = ['-'])
    (all : ∀ c ∈ digits, c.isDigit = true) :
    spelledValue (sign ++ digits) = exactValue (sign = ['-']) digits := by
  rw [spelledValue]
  obtain rfl | rfl | rfl := signed
  · simp [head?_ne_minus all, dropWhile_sign all]
  · simp [dropWhile_sign all]
  · simp [dropWhile_sign all]

theorem numberValue_append {sign digits : List Char} (signed : sign = [] ∨ sign = ['+'] ∨ sign = ['-'])
    (all : ∀ c ∈ digits, c.isDigit = true) :
    numberValue (sign ++ digits) = clamp (exactValue (sign = ['-']) digits) := by
  obtain rfl | rfl | rfl := signed
  · simp [numberValue_digits all]
  · simp [numberValue_plus all]
  · simp [numberValue_minus all]

theorem number_eq_clamped (text : List Char) :
    number text = (exactNumber text).map fun lexeme => ⟨lexeme.chars, clamp lexeme.value⟩ := by
  rw [exactNumber]
  cases found : number text with
  | none => rfl
  | some lexeme =>
    obtain ⟨sign, digits, same, signed, -, all, value⟩ := (captures_number.sound found).1
    simp only [Option.map_some, same, spelledValue_append signed all, ← value]
    rw [← same]

theorem clamp_eq_self {value : Int} (below : -largestNumber ≤ value) (above : value ≤ largestNumber) :
    clamp value = value := by
  rw [clamp]
  omega

end Lexeme

def Token.clamped (token : Token Int) : Token Int := ⟨Lexeme.clamp token.value, token.range⟩

@[simp] theorem Token.clamped_value (token : Token Int) : token.clamped.value = Lexeme.clamp token.value := rfl

@[simp] theorem Token.clamped_range (token : Token Int) : token.clamped.range = token.range := rfl

namespace Cursor

def readExactNumber : NumberReader := read Lexeme.exactNumber

/-- Reading a number finds the same lexeme as reading an exact one, and stops at the same place. -/
theorem readNumber_eq_clamped (cursor : Cursor) :
    cursor.readNumber = (cursor.readExactNumber.1.map Token.clamped, cursor.readExactNumber.2) := by
  rw [readNumber, readExactNumber, read, read, Lexeme.number_eq_clamped]
  cases Lexeme.exactNumber (Text.trimStart cursor.rest) with
  | none => rfl
  | some lexeme =>
    simp only [Option.map_some]
    split <;> rfl

end Cursor

/-! ## Numbers that are told apart -/

/-- Numbers that reading does not change. -/
def Moderate (number : Int) : Prop := -(Lexeme.largestNumber : Int) < number ∧ number < Lexeme.largestNumber

instance (number : Int) : Decidable (Moderate number) := inferInstanceAs (Decidable (_ ∧ _))

namespace Moderate

variable {bound : Int} (moderate : Moderate bound) (value : Int)
include moderate

theorem le_clamp_iff : bound ≤ Lexeme.clamp value ↔ bound ≤ value := by
  have ⟨below, above⟩ := moderate
  rw [Lexeme.clamp]
  omega

theorem clamp_le_iff : Lexeme.clamp value ≤ bound ↔ value ≤ bound := by
  have ⟨below, above⟩ := moderate
  rw [Lexeme.clamp]
  omega

theorem clamp_eq_iff : Lexeme.clamp value = bound ↔ value = bound := by
  rw [Int.le_antisymm_iff, Int.le_antisymm_iff, moderate.clamp_le_iff, moderate.le_clamp_iff]

end Moderate

structure Limits.Moderate (limits : Limits) : Prop where
  least : LootFilter.Moderate limits.least
  greatest : LootFilter.Moderate limits.greatest
  extras : ∀ extra ∈ limits.extras, LootFilter.Moderate extra

structure Sounds.Moderate (sounds : Sounds) : Prop where
  least : LootFilter.Moderate sounds.least
  greatest : LootFilter.Moderate sounds.greatest

/-- No rule asks for a number as large as the greatest one that is read. -/
structure Reference.Moderate (reference : Reference) : Prop where
  limits : ∀ keyword limits, reference.limits.get? keyword = some limits → limits.Moderate
  sounds : reference.sounds.Moderate

theorem Reference.Moderate.map_limitsOf {reference : Reference} (moderate : reference.Moderate) {keyword : String}
    {α : Type} {first second : Limits → α} (same : ∀ limits : Limits, limits.Moderate → first limits = second limits) :
    first <$> reference.limitsOf keyword = second <$> reference.limitsOf keyword := by
  rw [limitsOf]
  split
  · next limits found => exact congrArg Except.ok (same limits (moderate.limits _ _ found))
  · rfl

namespace Limits.Moderate

variable {limits : Limits} (moderate : limits.Moderate)
include moderate

theorem spans_clamp (value : Int) : limits.spans (Lexeme.clamp value) = limits.spans value := by
  simp only [spans, moderate.least.le_clamp_iff, moderate.greatest.clamp_le_iff]

theorem contains_clamp (value : Int) : limits.contains (Lexeme.clamp value) = limits.contains value := by
  have extras : limits.extras.contains (Lexeme.clamp value) = limits.extras.contains value := by
    rw [Bool.eq_iff_iff, List.contains_iff_mem, List.contains_iff_mem]
    constructor
    · intro member
      rwa [((moderate.extras _ member).clamp_eq_iff value).mp rfl]
    · intro member
      rwa [((moderate.extras _ member).clamp_eq_iff value).mpr rfl]
  rw [contains, contains, moderate.spans_clamp, extras]

theorem clamped_of_spans {token : Token Int} (inside : limits.spans token.value = true) : token.clamped = token := by
  simp only [spans, Bool.and_eq_true, decide_eq_true_eq] at inside
  have below := moderate.least.1
  have above := moderate.greatest.2
  rw [Token.clamped, Lexeme.clamp_eq_self (by omega) (by omega)]

end Limits.Moderate

theorem Bundled.moderate : Bundled.reference.Moderate where
  limits := by
    have all : ∀ entry ∈ Bundled.limits, LootFilter.Moderate entry.2.least ∧ LootFilter.Moderate entry.2.greatest ∧
        ∀ extra ∈ entry.2.extras, LootFilter.Moderate extra := by decide
    intro keyword limits found
    have ⟨least, greatest, extras⟩ := all _ (Table.mem_entries_of_get? found)
    exact ⟨least, greatest, extras⟩
  sounds := ⟨by decide, by decide⟩

/-! ## Exact numbers make no difference -/

namespace Rule

section
variable {limits : Limits} (moderate : limits.Moderate) (keyword : String)
include moderate

theorem readNumberAfter_exact (findings : List Finding) (cursor : Cursor) :
    readNumberAfter limits keyword findings cursor Cursor.readExactNumber =
      readNumberAfter limits keyword findings cursor := by
  simp only [readNumberAfter, cursor.readNumber_eq_clamped]
  rcases cursor.readExactNumber with ⟨number?, next⟩
  cases number? with
  | none => rfl
  | some number => simp only [Option.map_some, Token.clamped, moderate.contains_clamp]

theorem readChannels_exact (count : Nat) (cursor : Cursor) :
    readChannels limits keyword count cursor Cursor.readExactNumber = readChannels limits keyword count cursor := by
  induction count generalizing cursor with
  | zero => rfl
  | succ count ih =>
    simp only [readChannels, cursor.readNumber_eq_clamped]
    rcases cursor.readExactNumber with ⟨number?, next⟩
    cases number? with
    | none => rfl
    | some number =>
      simp only [Option.map_some, ih, Token.clamped_range, Token.clamped_value, moderate.spans_clamp]
      -- A channel out of the limits leaves only its range; the others are read exactly.
      split
      · next inside => rw [moderate.clamped_of_spans inside]
      · rfl

theorem readColor_exact (cursor : Cursor) :
    readColor limits keyword cursor Cursor.readExactNumber = readColor limits keyword cursor := by
  simp only [readColor, readChannels_exact moderate]
  rcases readChannels limits keyword 3 (readEquality keyword cursor).2 with ⟨own, channels?, last⟩
  cases channels? with
  | none => rfl
  | some channels =>
    simp only [last.readNumber_eq_clamped]
    rcases last.readExactNumber with ⟨alpha?, next⟩
    cases alpha? with
    | none => rfl
    | some alpha =>
      cases inside : limits.spans alpha.value with
      | true => simp [moderate.clamped_of_spans inside]
      | false => simp [Option.filter_some, moderate.spans_clamp, inside]

end

section
variable {sounds : Sounds} (moderate : sounds.Moderate) (settings : Settings) (keyword : String) (cursor : Cursor)

include moderate in
theorem readIdentifier_exact :
    readIdentifier settings sounds keyword cursor Cursor.readExactNumber =
      readIdentifier settings sounds keyword cursor := by
  simp only [readIdentifier]
  rcases cursor.readWord with ⟨word?, next⟩
  cases word? with
  | some word => rfl
  | none =>
    simp only [next.readNumber_eq_clamped]
    rcases next.readExactNumber with ⟨number?, last⟩
    cases number? with
    | none => rfl
    | some number =>
      have least := moderate.least
      have greatest := moderate.greatest
      simp only [Option.map_some, Token.clamped, least.le_clamp_iff, greatest.clamp_le_iff]
      split
      · next inside => rw [Lexeme.clamp_eq_self (by have := least.1; omega) (by have := greatest.2; omega)]
      · rfl

theorem readVolume_exact : readVolume keyword cursor Cursor.readExactNumber = readVolume keyword cursor := by
  simp only [readVolume, cursor.readNumber_eq_clamped]
  rcases cursor.readExactNumber with ⟨number?, next⟩
  cases number? with
  | none => rfl
  | some number =>
    have zero : LootFilter.Moderate 0 := by decide
    have greatest : LootFilter.Moderate greatestVolume := by decide
    simp only [Option.map_some, Token.clamped, zero.le_clamp_iff, greatest.clamp_le_iff]
    split
    · next inside => rw [Lexeme.clamp_eq_self (by omega) (by have := greatest.2; omega)]
    · rfl

include moderate in
theorem readSound_exact :
    readSound settings sounds keyword cursor Cursor.readExactNumber = readSound settings sounds keyword cursor := by
  simp only [readSound, readIdentifier_exact moderate]
  rcases readIdentifier settings sounds keyword (readEquality keyword cursor).2 with ⟨found?, next⟩
  cases found? with
  | none => rfl
  | some found => simp only [readVolume_exact]

end

theorem read_exact {reference : Reference} (moderate : reference.Moderate) (settings : Settings) (kind : Kind)
    (keyword : String) (head : Range) (cursor : Cursor) (block : Block) :
    Rule.read settings reference kind keyword head cursor block Cursor.readExactNumber =
      Rule.read settings reference kind keyword head cursor block := by
  cases kind with
  | number =>
    apply moderate.map_limitsOf
    intro limits moderate
    simp only [readNumber, readNumberAfter_exact moderate]
  | fontSize =>
    apply moderate.map_limitsOf
    intro limits moderate
    simp only [readFontSize, readNumberAfter_exact moderate]
  | color =>
    apply moderate.map_limitsOf
    intro limits moderate
    rw [readColor_exact moderate]
  | sound => simp only [Rule.read, readSound_exact moderate.sounds]
  | _ => rfl

end Rule

namespace Line

/-- Numbers stop at `largestNumber`, and no line shows it: where the data only mention smaller numbers, a reader of
exact numbers learns the same from every line. -/
theorem saturation_unseen :
    (∀ sign digits, (sign = [] ∨ sign = ['+'] ∨ sign = ['-']) → (∀ c ∈ digits, c.isDigit = true) →
      Lexeme.numberValue (sign ++ digits) = Lexeme.clamp (Lexeme.exactValue (sign = ['-']) digits) ∧
        Lexeme.spelledValue (sign ++ digits) = Lexeme.exactValue (sign = ['-']) digits) ∧
    ∀ reference : Reference, reference.Moderate → ∀ settings row text block,
      read settings reference row text block Cursor.readExactNumber = read settings reference row text block := by
  constructor
  · intro sign digits signed all
    exact ⟨Lexeme.numberValue_append signed all, Lexeme.spelledValue_append signed all⟩
  · intro reference moderate settings row text block
    simp only [read, readFrom, Rule.read_exact moderate]

theorem saturation_unseen_on_color :
    Bundled.reference.Moderate ∧
      Lexeme.numberValue "-1000000000000000001".toList = Lexeme.clamp (-1000000000000000001) ∧
      read {} Bundled.reference 0 "SetTextColor 0 7 -1000000000000000001 # dark".toList {} Cursor.readExactNumber =
        read {} Bundled.reference 0 "SetTextColor 0 7 -1000000000000000001 # dark".toList {} :=
  ⟨Bundled.moderate,
    (saturation_unseen.1 ['-'] "1000000000000000001".toList (.inr (.inr rfl)) (List.all_eq_true.mp rfl)).1,
    saturation_unseen.2 Bundled.reference Bundled.moderate {} 0 _ {}⟩

end Line

end LootFilter
