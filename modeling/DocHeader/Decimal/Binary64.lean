/-!
# Binary64 numbers

The numbers a floating-point field can hold, kept as exact dyadic rationals, and the
reading of a decimal: the nearest such number, with a tie going to the even one.

## Main definitions

* `Binary64` — a finite dyadic, an infinity, or not a number.
* `roundDiv` — a quotient rounded to the nearest integer, ties to even.
* `Binary64.ofRatio`, `Binary64.ofDecimal` — the nearest number.
* `Binary64.toRat` — the exact value.
-/

namespace DocHeader

/-- A quotient rounded to the nearest integer; a half goes to the even neighbour. -/
def roundDiv (num den : Nat) : Nat :=
  let q := num / den
  let twice := 2 * (num % den)
  if twice < den then q else if den < twice then q + 1 else if q % 2 == 0 then q else q + 1

/-- The product of `n` factors `base`. -/
def power (base n : Nat) : Nat := Nat.pow base n

/-- A binary64 number. A finite one is `mantissa * 2 ^ exponent` with its sign; zero
keeps a sign too. -/
inductive Binary64 where
  | finite (negative : Bool) (mantissa : Nat) (exponent : Int)
  | infinite (negative : Bool)
  | notANumber
  deriving DecidableEq, Repr

namespace Binary64

/-- The least exponent of a finite number, that of the subnormals. -/
def leastExponent : Int := -1074

/-- The greatest exponent of a finite number with a full mantissa. -/
def greatestExponent : Int := 971

/-- The greatest `k` with `2 ^ k ≤ num / den`, for a positive ratio. -/
def floorLog2 (num den : Nat) : Int :=
  let k : Int := (num.log2 : Int) - den.log2
  let reaches :=
    if 0 ≤ k then decide (den * power 2 k.toNat ≤ num)
    else decide (den ≤ num * power 2 (-k).toNat)
  if reaches then k else k - 1

/-- The number nearest to `num / den`. -/
def ofRatio (negative : Bool) (num den : Nat) : Binary64 :=
  if num == 0 then .finite negative 0 leastExponent
  else
    let q := max (floorLog2 num den - 52) leastExponent
    let m :=
      if 0 ≤ q then roundDiv num (den * power 2 q.toNat)
      else roundDiv (num * power 2 (-q).toNat) den
    let (m, q) := if m == power 2 53 then (power 2 52, q + 1) else (m, q)
    if greatestExponent < q then .infinite negative else .finite negative m q

/-- The number nearest to `digits * 10 ^ exponent`. A decimal far outside the range
is decided by its size alone. -/
def ofDecimal (negative : Bool) (digits : Nat) (exponent : Int) : Binary64 :=
  let size := ((Nat.toDigits 10 digits).length : Int) + exponent
  if digits == 0 || size < -400 then .finite negative 0 leastExponent
  else if 400 < size then .infinite negative
  else if 0 ≤ exponent then ofRatio negative (digits * power 10 exponent.toNat) 1
  else ofRatio negative digits (power 10 (-exponent).toNat)

/-- The magnitude of a finite number as a ratio of naturals. -/
def ratio (mantissa : Nat) (exponent : Int) : Nat × Nat :=
  if 0 ≤ exponent then (mantissa * power 2 exponent.toNat, 1)
  else (mantissa, power 2 (-exponent).toNat)

/-- The exact value of a finite number. -/
def toRat : Binary64 → Option Rat
  | .finite negative mantissa exponent =>
    let (num, den) := ratio mantissa exponent
    some (mkRat (if negative then -(num : Int) else num) den)
  | _ => none

/-- Whether the number is zero, of either sign. -/
def isZero : Binary64 → Bool
  | .finite _ mantissa _ => mantissa == 0
  | _ => false

end Binary64

end DocHeader
