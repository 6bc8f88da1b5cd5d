import LootFilter.Binary64

/-! Decimal texts of binary64 numbers: with fixed places, and with the fewest digits that read back. -/

set_option autoImplicit false

namespace LootFilter.Binary64

def signText (negative : Bool) : String := if negative then "-" else ""

def placed (units places : Nat) : String :=
  let digits := (toString units).toList
  let padded := List.replicate (places + 1 - digits.length) '0' ++ digits
  String.ofList (padded.take (padded.length - places)) ++ "." ++ String.ofList (padded.drop (padded.length - places))

/-- Rounded to a number of decimal places, a tie going to the even digit. -/
def toFixed (places : Nat) : Binary64 → String
  | .finite negative mantissa exponent =>
    let (upper, lower) := magnitude mantissa exponent
    signText negative ++ placed (nearestQuotient (upper * Nat.pow 10 places) lower) places
  | .infinite negative => signText negative ++ "inf"
  | .nan => "nan"

def decimalQuotient (digits : Nat) (power : Int) : Nat × Nat :=
  if 0 ≤ power then (digits * Nat.pow 10 power.toNat, 1) else (digits, Nat.pow 10 (-power).toNat)

/-- The number nearest to `digits * 10 ^ power`. Powers past the range of the format need no exact arithmetic. -/
def ofDecimal (negative : Bool) (digits : Nat) (power : Int) : Binary64 :=
  if digits = 0 then .finite negative 0 leastExponent
  else
    let size := (Nat.toDigits 10 digits).length + power
    if 400 < size then .infinite negative
    else if size < -400 then .finite negative 0 leastExponent
    else
      let (upper, lower) := decimalQuotient digits power
      ofQuotient negative upper lower

/-- The decimals of `count` digits next to a positive number that read back as it, the nearer one first, as digits and
power of ten. -/
def readsBack (mantissa : Nat) (exponent point : Int) (count : Nat) : List (Nat × Int) :=
  let number := Binary64.finite false mantissa exponent
  let power := point - count
  let (upper, lower) := magnitude mantissa exponent
  let (upper, lower) :=
    if 0 ≤ power then (upper, lower * Nat.pow 10 power.toNat) else (upper * Nat.pow 10 (-power).toNat, lower)
  let below := upper / lower
  let nearest := nearestQuotient upper lower
  let other := if nearest = below then below + 1 else below
  [(nearest, power), (other, power)].filter fun candidate =>
    ofDecimal false candidate.1 candidate.2 == number

def pointOf (upper lower : Nat) : Int :=
  let size : Int := ((Nat.toDigits 10 upper).length : Int) - ((Nat.toDigits 10 lower).length : Int)
  let (scaledUpper, scaledLower) :=
    if 0 ≤ size then (upper, lower * Nat.pow 10 size.toNat) else (upper * Nat.pow 10 (-size).toNat, lower)
  if scaledLower ≤ scaledUpper then size + 1 else size

def shortest (mantissa : Nat) (exponent : Int) : Nat × Int :=
  let (upper, lower) := magnitude mantissa exponent
  let point := pointOf upper lower
  ((List.range 17).flatMap fun count => readsBack mantissa exponent point (count + 1)).headD (mantissa, 0)

def exponentText (power : Int) : String :=
  let digits := toString power.natAbs
  (if power < 0 then "e-" else "e+") ++ (if digits.length < 2 then "0" else "") ++ digits

/-- Digits with the point after the first `point` of them; from `10 ^ 16` on and below `10 ^ -4` with an exponent. -/
def digitsText (digits : List Char) (point : Int) : String :=
  if -4 < point ∧ point ≤ 16 then
    if point ≤ 0 then "0." ++ String.ofList (List.replicate (-point).toNat '0' ++ digits)
    else if (digits.length : Int) ≤ point then
      String.ofList (digits ++ List.replicate (point.toNat - digits.length) '0') ++ ".0"
    else String.ofList (digits.take point.toNat) ++ "." ++ String.ofList (digits.drop point.toNat)
  else
    let head := String.ofList (digits.take 1)
    let tail := if digits.length ≤ 1 then "" else "." ++ String.ofList (digits.drop 1)
    head ++ tail ++ exponentText (point - 1)

def toShortest : Binary64 → String
  | .finite negative mantissa exponent =>
    if mantissa = 0 then signText negative ++ "0.0"
    else
      let (digits, power) := shortest mantissa exponent
      let all := (toString digits).toList
      let kept := (all.reverse.dropWhile (· == '0')).reverse
      signText negative ++ digitsText kept (power + all.length)
  | .infinite negative => signText negative ++ "inf"
  | .nan => "nan"

end LootFilter.Binary64
