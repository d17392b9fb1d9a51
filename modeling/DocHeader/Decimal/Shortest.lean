import DocHeader.Decimal.Binary64

/-!
# Shortest decimals

The decimal a binary64 number is written as: of the decimals that read back as the
number those with the fewest digits, and of these the one nearest to it.

## Main definitions

* `Binary64.shortest` — digits and exponent of that decimal.
* `Binary64.text` — its written form, positional between `10 ^ -4` and `10 ^ 16`.
-/

namespace DocHeader.Binary64

/-- The greatest `k` with `10 ^ k ≤ num / den`, for a positive ratio. -/
def floorLog10 (num den : Nat) : Int :=
  let k : Int := ((Nat.toDigits 10 num).length : Int) - (Nat.toDigits 10 den).length
  let reaches :=
    if 0 ≤ k then decide (den * power 10 k.toNat ≤ num)
    else decide (den ≤ num * power 10 (-k).toNat)
  if reaches then k else k - 1

/-- The decimal on the grid of step `10 ^ e` nearest to `num / den` among those of the
two neighbours that read back as `x`. -/
def onGrid (x : Binary64) (num den : Nat) (e : Int) : Option Nat :=
  let (n, d) := if 0 ≤ e then (num, den * power 10 e.toNat) else (num * power 10 (-e).toNat, den)
  let low := n / d
  let reads (k : Nat) : Bool := ofDecimal false k e == x
  match reads low, reads (low + 1) with
  | true, true => some (roundDiv n d)
  | true, false => some low
  | false, true => some (low + 1)
  | false, false => none

/-- The first grid, from coarse to fine, that holds a decimal which reads back. -/
def firstGrid (x : Binary64) (num den : Nat) (top : Int) : List Nat → Nat × Int
  | [] => (roundDiv num den, 0)
  | places :: more =>
    let e := top - places
    match onGrid x num den e with
    | some digits => (digits, e)
    | none => firstGrid x num den top more

/-- The digits and the exponent of the shortest decimal of `mantissa * 2 ^ exponent`. -/
def shortest (mantissa : Nat) (exponent : Int) : Nat × Int :=
  if mantissa == 0 then (0, 0)
  else
    let (num, den) := ratio mantissa exponent
    firstGrid (.finite false mantissa exponent) num den (floorLog10 num den) (List.range 17)

/-- Digits without their trailing zeros. -/
def significant (digits : List Char) : List Char :=
  (digits.reverse.dropWhile (· == '0')).reverse

/-- The written form of a decimal `0.d₁d₂… * 10 ^ point`. -/
def positional (digits : List Char) (point : Int) : List Char :=
  if point ≤ 0 then
    '0' :: '.' :: List.replicate (-point).toNat '0' ++ digits
  else
    let n := point.toNat
    let whole := digits.take n ++ List.replicate (n - digits.length) '0'
    let part := digits.drop n
    whole ++ '.' :: (if part.isEmpty then ['0'] else part)

/-- The written form with an exponent of at least two digits. -/
def scientific (digits : List Char) (point : Int) : List Char :=
  let e := point - 1
  let places := Nat.toDigits 10 e.natAbs
  let mantissa := match digits with
    | [] => ['0']
    | [d] => [d]
    | d :: more => d :: '.' :: more
  mantissa ++ 'e' :: (if e < 0 then '-' else '+') ::
    (List.replicate (2 - places.length) '0' ++ places)

/-- The written form of a number: shortest digits, an exponent below `10 ^ -4` and
from `10 ^ 16` on. -/
def text : Binary64 → String
  | .finite negative mantissa exponent =>
    let sign := if negative then ['-'] else []
    let (n, e) := shortest mantissa exponent
    let all := Nat.toDigits 10 n
    let point := (all.length : Int) + e
    let digits := significant all
    .ofList (sign ++
      if mantissa == 0 then ['0', '.', '0']
      else if -4 < point && point ≤ 16 then positional digits point
      else scientific digits point)
  | .infinite negative => if negative then "-inf" else "inf"
  | .notANumber => "nan"

end DocHeader.Binary64
