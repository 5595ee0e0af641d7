import DesignMarkup.Decimal.Double

/-!
Shortest decimals.  Of the decimals that round to a number, the shortest lie on the coarsest grid
of powers of ten that has a point among them; the one written is the nearest of these, the even
one when two are equally near.
-/

namespace DesignMarkup

/-- The decimal `coefficient · 10 ^ power`. -/
structure Decimal where
  coefficient : Nat
  power : Int
deriving DecidableEq, Repr

namespace Decimal

/-- The decimal's digits, most significant first. -/
def digits (d : Decimal) : List Char :=
  Nat.toDigits 10 d.coefficient

/-- The power of ten that the first digit counts. -/
def leadingPower (d : Decimal) : Int :=
  d.power + d.digits.length - 1

/-- The digits before and after the decimal point, the first group never empty. -/
def positional (d : Decimal) : List Char × List Char :=
  if 0 ≤ d.power then (d.digits ++ List.replicate d.power.toNat '0', [])
  else
    let places := (-d.power).toNat
    let padded := List.replicate (places + 1 - d.digits.length) '0' ++ d.digits
    (padded.take (padded.length - places), padded.drop (padded.length - places))

end Decimal

namespace Double

/-- The bounds of the reals that round to a number, and the number itself, as multiples of
`2 ^ (power - 2)`.  The bounds themselves round to it when the significand is even. -/
structure Rounding where
  low : Nat
  value : Nat
  high : Nat
  closed : Bool

def rounding (x : Double) : Rounding where
  low := 4 * x.significand - (if x.isRangeStart then 1 else 2)
  value := 4 * x.significand
  high := 4 * x.significand + 2
  closed := x.significand % 2 == 0

/-- The factors that make `n · 2 ^ (power - 2)` and `c · 10 ^ k` comparable integers: the first
multiplies `n`, the second `c`. -/
def scale (x : Double) (k : Int) : Nat × Nat :=
  (Nat.pow 2 (x.power - 2).toNat * Nat.pow 10 (-k).toNat,
    Nat.pow 2 (2 - x.power).toNat * Nat.pow 10 k.toNat)

/-- The point of the grid `10 ^ k` that is written for a positive number: the nearest of the two
around it that round to the number, if any does. -/
def gridPoint? (x : Double) (k : Int) : Option Nat :=
  let r := x.rounding
  let (unit, step) := x.scale k
  let rounds (c : Nat) : Bool :=
    if r.closed then r.low * unit ≤ c * step && c * step ≤ r.high * unit
    else r.low * unit < c * step && c * step < r.high * unit
  let below := r.value * unit / step
  let gap := r.value * unit - below * step
  if rounds below && (!rounds (below + 1) || 2 * gap < step || (2 * gap == step && below % 2 == 0))
  then some below
  else if rounds (below + 1) then some (below + 1)
  else none

/-- The shortest decimal that rounds to the magnitude of a number. -/
def shortest (x : Double) : Decimal :=
  if x.significand = 0 then ⟨0, 0⟩
  else
    ((List.range 660).findSome? fun (i : Nat) =>
      let k : Int := 320 - (i : Int)
      (x.gridPoint? k).map (⟨·, k⟩)).getD ⟨0, 0⟩

end Double
end DesignMarkup
