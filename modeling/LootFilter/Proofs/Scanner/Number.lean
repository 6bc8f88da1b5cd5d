import LootFilter.Scanner.Lexeme
import Mathlib.Algebra.Group.Nat.Defs

/-! The numbers that digits spell. Reading a number saturates: its value is the exact one, clamped to the interval from
`-largestNumber` to `largestNumber`. -/

set_option autoImplicit false

namespace LootFilter.Lexeme

theorem digit_bounds {c : Char} (digit : c.isDigit = true) : 48 ≤ c.toNat ∧ c.toNat ≤ 57 := by
  simp only [Char.isDigit, Bool.and_eq_true, decide_eq_true_eq] at digit
  exact ⟨UInt32.le_iff_toNat_le.mp digit.1, UInt32.le_iff_toNat_le.mp digit.2⟩

theorem foldl_decimalValue (value : Nat) (digits : List Char) :
    digits.foldl (fun value digit => 10 * value + (digit.toNat - '0'.toNat)) value =
      value * 10 ^ digits.length + decimalValue digits := by
  -- The value so far is carried along, so the induction is for every value.
  induction digits generalizing value with
  | nil => simp [decimalValue]
  | cons digit rest ih =>
    simp only [decimalValue, List.foldl_cons, List.length_cons]
    rw [ih (10 * value + _), ih (10 * 0 + _), Nat.pow_succ]
    grind

theorem decimalValue_cons (digit : Char) (rest : List Char) :
    decimalValue (digit :: rest) = (digit.toNat - 48) * 10 ^ rest.length + decimalValue rest := by
  rw [decimalValue, List.foldl_cons, foldl_decimalValue]
  simp

theorem decimalValue_lt {digits : List Char} (all : ∀ c ∈ digits, c.isDigit = true) :
    decimalValue digits < 10 ^ digits.length := by
  induction digits with
  | nil => simp [decimalValue]
  | cons digit rest ih =>
    have small := ih fun c member => all c (List.mem_cons_of_mem digit member)
    have bounds := digit_bounds (all digit List.mem_cons_self)
    rw [decimalValue_cons, List.length_cons, Nat.pow_succ]
    have le : (digit.toNat - 48) * 10 ^ rest.length ≤ 9 * 10 ^ rest.length :=
      Nat.mul_le_mul_right _ (by omega)
    omega

theorem decimalValue_dropWhile_zero (digits : List Char) :
    decimalValue (digits.dropWhile (· == '0')) = decimalValue digits := by
  induction digits with
  | nil => rfl
  | cons digit rest ih =>
    by_cases zero : digit = '0'
    · rw [List.dropWhile_cons_of_pos (by simpa using zero), ih, decimalValue_cons, zero]
      simp
    · rw [List.dropWhile_cons_of_neg (by simpa using zero)]

theorem le_decimalValue_dropWhile_zero {digits : List Char} (all : ∀ c ∈ digits, c.isDigit = true) (count : Nat)
    (long : count < (digits.dropWhile (· == '0')).length) :
    10 ^ count ≤ decimalValue (digits.dropWhile (· == '0')) := by
  induction digits with
  | nil => simp at long
  | cons digit rest ih =>
    by_cases zero : digit = '0'
    · rw [List.dropWhile_cons_of_pos (by simpa using zero)] at long ⊢
      exact ih (fun c member => all c (List.mem_cons_of_mem digit member)) long
    · rw [List.dropWhile_cons_of_neg (by simpa using zero), List.length_cons] at long
      rw [List.dropWhile_cons_of_neg (by simpa using zero), decimalValue_cons]
      have bounds := digit_bounds (all digit List.mem_cons_self)
      have positive : 1 ≤ digit.toNat - 48 := by
        have apart : digit.toNat ≠ 48 := fun same => zero (Char.toNat_inj.mp same)
        omega
      calc 10 ^ count
          ≤ 10 ^ rest.length := Nat.pow_le_pow_right (by omega) (by omega)
        _ = 1 * 10 ^ rest.length := (Nat.one_mul _).symm
        _ ≤ (digit.toNat - 48) * 10 ^ rest.length := Nat.mul_le_mul_right _ positive
        _ ≤ _ := Nat.le_add_right _ _

def exactValue (negative : Bool) (digits : List Char) : Int :=
  if negative then -(decimalValue digits : Int) else decimalValue digits

/-- The nearest number whose magnitude is at most `largestNumber`. -/
def clamp (number : Int) : Int := max (-(largestNumber : Int)) (min number largestNumber)

theorem magnitude_eq_min {digits : List Char} (all : ∀ c ∈ digits, c.isDigit = true) :
    (if 18 < (digits.dropWhile (· == '0')).length then largestNumber
      else decimalValue (digits.dropWhile (· == '0'))) = min (decimalValue digits) largestNumber := by
  -- Zeros at the head count for nothing, so the length of the other digits bounds the value from both sides.
  rw [← decimalValue_dropWhile_zero digits]
  split
  · next long => exact (Nat.min_eq_right (le_decimalValue_dropWhile_zero all 18 long)).symm
  · next short =>
    have kept : ∀ c ∈ digits.dropWhile (· == '0'), c.isDigit = true :=
      fun c member => all c ((List.dropWhile_suffix _).subset member)
    have less : decimalValue (digits.dropWhile (· == '0')) < largestNumber :=
      Nat.lt_of_lt_of_le (decimalValue_lt kept) (Nat.pow_le_pow_right (by omega) (by omega))
    exact (Nat.min_eq_left (Nat.le_of_lt less)).symm

theorem clamp_exactValue (negative : Bool) (digits : List Char) :
    clamp (exactValue negative digits) =
      if negative then -((min (decimalValue digits) largestNumber : Nat) : Int)
      else ((min (decimalValue digits) largestNumber : Nat) : Int) := by
  cases negative <;> simp only [clamp, exactValue] <;> simp only [Bool.false_eq_true, if_true, if_false] <;> omega

theorem dropWhile_sign {digits : List Char} (all : ∀ c ∈ digits, c.isDigit = true) :
    digits.dropWhile (fun c => c == '+' || c == '-') = digits := by
  cases digits with
  | nil => rfl
  | cons digit rest =>
    have bounds := digit_bounds (all digit List.mem_cons_self)
    apply List.dropWhile_cons_of_neg
    intro sign
    simp only [Bool.or_eq_true, beq_iff_eq] at sign
    rcases sign with rfl | rfl <;> revert bounds <;> decide

theorem head?_ne_minus {digits : List Char} (all : ∀ c ∈ digits, c.isDigit = true) : digits.head? ≠ some '-' := by
  intro minus
  have digit := all '-' (List.mem_of_head? minus)
  revert digit
  decide

theorem numberValue_digits {digits : List Char} (all : ∀ c ∈ digits, c.isDigit = true) :
    numberValue digits = clamp (exactValue false digits) := by
  simp only [numberValue, dropWhile_sign all, magnitude_eq_min all, clamp_exactValue, if_neg (head?_ne_minus all)]
  rfl

theorem numberValue_plus {digits : List Char} (all : ∀ c ∈ digits, c.isDigit = true) :
    numberValue ('+' :: digits) = clamp (exactValue false digits) := by
  have signless : ('+' :: digits).dropWhile (fun c => c == '+' || c == '-') = digits := by
    rw [List.dropWhile_cons_of_pos (by decide), dropWhile_sign all]
  simp [numberValue, signless, magnitude_eq_min all, clamp_exactValue]

theorem numberValue_minus {digits : List Char} (all : ∀ c ∈ digits, c.isDigit = true) :
    numberValue ('-' :: digits) = clamp (exactValue true digits) := by
  have signless : ('-' :: digits).dropWhile (fun c => c == '+' || c == '-') = digits := by
    rw [List.dropWhile_cons_of_pos (by decide), dropWhile_sign all]
  simp [numberValue, signless, magnitude_eq_min all, clamp_exactValue]

end LootFilter.Lexeme
