/-! Binary64 numbers in exact arithmetic: rounding a quotient, and the operations on colour channels.

A finite number is `mantissa * 2 ^ exponent` with a sign. The mantissa has at most 53 bits, and fewer than 53 only at
the least exponent, so every number has one form. -/

set_option autoImplicit false

namespace LootFilter

inductive Binary64 where
  | finite (negative : Bool) (mantissa : Nat) (exponent : Int)
  | infinite (negative : Bool)
  | nan
  deriving DecidableEq, Repr

namespace Binary64

def leastExponent : Int := -1074

def greatestExponent : Int := 971

/-- The quotient rounded to the nearest natural number; a tie goes to the even one. -/
def nearestQuotient (dividend divisor : Nat) : Nat :=
  let quotient := dividend / divisor
  let twice := 2 * (dividend % divisor)
  if twice < divisor then quotient
  else if divisor < twice then quotient + 1
  else if quotient % 2 = 0 then quotient else quotient + 1

def scaled (dividend divisor : Nat) (exponent : Int) : Nat × Nat :=
  if 0 ≤ exponent then (dividend, divisor * Nat.pow 2 exponent.toNat)
  else (dividend * Nat.pow 2 (-exponent).toNat, divisor)

def quotientExponent (dividend divisor : Nat) : Int :=
  let guess : Int := (dividend.log2 : Int) - (divisor.log2 : Int) - 52
  let (upper, lower) := scaled dividend divisor guess
  max leastExponent (if upper < lower * Nat.pow 2 52 then guess - 1 else guess)

/-- A rounded mantissa of 54 bits is a power of two and moves to the next exponent. -/
def packed (negative : Bool) (mantissa : Nat) (exponent : Int) : Binary64 :=
  let (mantissa, exponent) :=
    if mantissa = Nat.pow 2 53 then (Nat.pow 2 52, exponent + 1) else (mantissa, exponent)
  if greatestExponent < exponent then .infinite negative else .finite negative mantissa exponent

def ofQuotient (negative : Bool) (dividend divisor : Nat) : Binary64 :=
  if dividend = 0 then .finite negative 0 leastExponent
  else
    let exponent := quotientExponent dividend divisor
    let (upper, lower) := scaled dividend divisor exponent
    packed negative (nearestQuotient upper lower) exponent

def ofRatio (value : Int) (divisor : Nat) : Binary64 := ofQuotient (decide (value < 0)) value.natAbs divisor

def one : Binary64 := ofRatio 1 1

def magnitude (mantissa : Nat) (exponent : Int) : Nat × Nat :=
  if 0 ≤ exponent then (mantissa * Nat.pow 2 exponent.toNat, 1) else (mantissa, Nat.pow 2 (-exponent).toNat)

def times (number : Binary64) (factor : Nat) : Binary64 :=
  match number with
  | .finite negative mantissa exponent =>
    let (upper, lower) := magnitude mantissa exponent
    ofQuotient negative (upper * factor) lower
  | .infinite negative => .infinite negative
  | .nan => .nan

def signed (negative : Bool) (magnitude : Nat) : Int := if negative then -(magnitude : Int) else magnitude

def truncated? : Binary64 → Option Int
  | .finite negative mantissa exponent =>
    let (upper, lower) := magnitude mantissa exponent
    some (signed negative (upper / lower))
  | .infinite _ => none
  | .nan => none

/-- The number of a bit pattern of 64 bits: sign, 11 bits of exponent, 52 bits of mantissa. -/
def ofBits (bits : Nat) : Binary64 :=
  let negative := bits / Nat.pow 2 63 % 2 == 1
  let exponent : Nat := bits / Nat.pow 2 52 % Nat.pow 2 11
  let fraction := bits % Nat.pow 2 52
  if exponent = 2047 then
    if fraction = 0 then .infinite negative else .nan
  else if exponent = 0 then .finite negative fraction leastExponent
  else .finite negative (Nat.pow 2 52 + fraction) ((exponent : Int) - 1075)

def toBits : Binary64 → Nat
  | .finite negative mantissa exponent =>
    let sign := if negative then Nat.pow 2 63 else 0
    if mantissa < Nat.pow 2 52 then sign + mantissa
    else sign + (exponent + 1075).toNat * Nat.pow 2 52 + (mantissa - Nat.pow 2 52)
  | .infinite negative => (if negative then Nat.pow 2 63 else 0) + 2047 * Nat.pow 2 52
  | .nan => 2047 * Nat.pow 2 52 + Nat.pow 2 51

end Binary64

end LootFilter
