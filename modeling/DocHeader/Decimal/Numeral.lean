import DocHeader.Decimal.Shortest

/-!
# Numerals

A number as it was written: an integer of any size or a binary64 number. The two keep
their own written forms, so `45` and `45.0` stay apart in messages.

## Main definitions

* `Numeral` — an integer or a real.
* `Numeral.text` — its written form.
* `Numeral.toRat` — its exact value.
* `fixedThree` — a rational with three decimals.
-/

namespace DocHeader

/-- A number as written. -/
inductive Numeral where
  | int (value : Int)
  | real (value : Binary64)
  deriving DecidableEq, Repr

namespace Numeral

/-- The written form of a number. -/
def text : Numeral → String
  | .int value => toString value
  | .real value => value.text

/-- The exact value of a number; the infinities and not-a-number have none and count
as zero. -/
def toRat : Numeral → Rat
  | .int value => value
  | .real value => value.toRat.getD 0

/-- Whether a number is zero. -/
def isZero : Numeral → Bool
  | .int value => value == 0
  | .real value => value.isZero

end Numeral

/-- A rational with three decimals, a half going to the even neighbour. -/
def fixedThree (q : Rat) : String :=
  let thousandths := roundDiv (q.num.natAbs * 1000) q.den
  let digits := Nat.toDigits 10 (thousandths % 1000)
  let part := List.replicate (3 - digits.length) '0' ++ digits
  let sign := if q.num < 0 then "-" else ""
  sign ++ toString (thousandths / 1000) ++ "." ++ String.ofList part

end DocHeader
